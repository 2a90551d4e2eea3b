import FProto.Crypto.Channel
import FProto.Foundation.Run

/-!
Owns `sdk/go/client.go` and `ConnectWithReconnect` of `reconnect.go`: one client and
the calls made on it, one after the other.

Connections are numbered in the order in which they are dialed, and a session
remembers the one its handshake was made on. What the network, the peer and the
context decide comes with each call. Does not own: how long a reconnecting client waits
(`GoReconnect`).

**Main result.** `Connect` keeps the new connection when the handshake on it fails.
Until the next connection, a client that was not closed then sends with a session of
another connection, or with none: `send_session_belongs_iff`.
-/

namespace FProto.Sdk.Go

open FProto.Foundation
open FProto.Crypto

/-! ### The client -/

structure ReconnectConfig where
  initialDelay : Int
  maxAttempts : Int
deriving DecidableEq

structure Config where
  transportType : String
  reconnect : ReconnectConfig
deriving DecidableEq

/-- `MaxAttempts`, of the default configuration when there is no initial delay. -/
def Config.maxAttempts (config : Config) : Int :=
  if config.reconnect.initialDelay = 0 then 0 else config.reconnect.maxAttempts

/-- A session, with the connection on which it was negotiated. -/
structure Session (noise : Noise) where
  noiseSession : NoiseSession noise
  conn : Nat

/-- `Client`, without its key and its configuration, which never change. -/
structure Client (noise : Noise) where
  conn : Option Nat := none
  session : Option (Session noise) := none
  closed : Bool := false

/-- A client and its connections: how many were dialed, which of them were closed, and
what was written on which. -/
structure World (noise : Noise) where
  client : Client noise
  dialed : Nat
  shut : List Nat
  written : List (Nat × Bytes)
  /-- A session was negotiated on a connection that was dialed. -/
  known : ∀ session, client.session = some session → session.conn < dialed

/-- How a call ends. -/
inductive Ended (Result : Type) where
  | returned (result : Except String Result)
  | panicked (text : String)

/-- What one call of `Connect` meets: the result of dialing, the randomness of the
handshake, and what the connection returns to each of its calls. -/
structure Attempt (noise : Noise) where
  reached : Except String Unit
  random : noise.Random
  replies : Nat → Except String Bytes

section Calls

variable {noise : Noise} (config : Config) (key : KeyPair)

/-- `New`. -/
def World.new : World noise where
  client := {}
  dialed := 0
  shut := []
  written := []
  known _ impossible := by cases impossible

/-- `dial`. -/
def dial (reached : Except String Unit) : Except String Unit :=
  if config.transportType = "websocket" ∨ config.transportType = "ws" ∨
      config.transportType = "" then reached
  else if config.transportType = "quic" then reached
  else .error ("unknown transport: " ++ config.transportType)

/-- Run a handshake on a connection that answers its calls in turn. -/
def converse {Result : Type} (replies : Nat → Except String Bytes) : Nat → ConnCode Result → Result
  | _, .done result => result
  | turn, .call .read next => converse replies (turn + 1) (next (replies turn))
  | turn, .call (.write _) next =>
      converse replies (turn + 1) (next ((replies turn).map fun _ => ()))

/-- `clientHandshake` on the connection of an attempt. -/
def Attempt.handshake (attempt : Attempt noise) : Except String (NoiseSession noise) :=
  converse attempt.replies 0 (clientHandshake .sdk noise attempt.random key)

/-- `Client.Connect`. -/
def World.connect (world : World noise) (attempt : Attempt noise) :
    Except String Unit × World noise :=
  match dial config attempt.reached with
  | .error error => (.error ("dial: " ++ error), world)
  | .ok _ =>
      let conn := world.dialed
      match attempt.handshake key with
      | .error error =>
          (.error ("handshake: " ++ error),
            { world with
              client := { world.client with conn := some conn }
              dialed := conn + 1
              shut := world.shut ++ [conn]
              known := fun session isSession =>
                Nat.lt_succ_of_lt (world.known session isSession) })
      | .ok session =>
          (.ok (),
            { world with
              client := { conn := some conn, session := some ⟨session, conn⟩, closed := false }
              dialed := conn + 1
              known := fun other isOther => by
                cases isOther
                exact Nat.lt_succ_self conn })

/-- The session moves on. -/
def World.setSession (world : World noise) (session : Session noise)
    (current : world.client.session = some session) (next : NoiseSession noise) :
    World noise :=
  { world with
    client := { world.client with session := some { session with noiseSession := next } }
    known := fun other isOther => by
      cases isOther
      exact world.known session current }

/-- The check `c.closed || c.conn == nil` of `Send`, and the connection that is used when
it is passed. -/
def Client.usable (client : Client noise) : Option Nat :=
  if client.closed then none else client.conn

/-- `Client.Send`. A method of a `nil` session panics. -/
def World.send (world : World noise) (plaintext : Bytes) (sent : Except String Unit) :
    Ended Unit × World noise :=
  match world.client.usable with
  | none => (.returned (.error "client not connected"), world)
  | some conn =>
      match current : world.client.session with
      | none =>
          (.panicked "runtime error: invalid memory address or nil pointer dereference", world)
      | some session =>
          let (result, next) := session.noiseSession.encrypt plaintext
          let world := world.setSession session current next
          match result with
          | .error error => (.returned (.error error), world)
          | .ok ct => (.returned sent, { world with written := world.written ++ [(conn, ct)] })

/-- `Client.Receive`, with what is read. -/
def World.receive (world : World noise) (read : Except String Bytes) :
    Ended Bytes × World noise :=
  match world.client.conn with
  | none => (.returned (.error "client not connected"), world)
  | some _ =>
      match read with
      | .error error => (.returned (.error error), world)
      | .ok ct =>
          match current : world.client.session with
          | none =>
              (.panicked "runtime error: invalid memory address or nil pointer dereference", world)
          | some session =>
              let (result, next) := session.noiseSession.decrypt .sdk ct
              (.returned result, world.setSession session current next)

/-- `Client.Close`, with what closing the connection returns. -/
def World.close (world : World noise) (result : Except String Unit) :
    Except String Unit × World noise :=
  let closed : Client noise := { world.client with closed := true }
  match world.client.conn with
  | none => (.ok (), { world with client := closed })
  | some conn => (result, { world with client := closed, shut := world.shut ++ [conn] })

/-- `Client.ConnectWithReconnect`. Each attempt comes with what ends the wait after it:
the time, or the error of the context. `none` is a client that still tries. -/
def World.connectWithReconnect (world : World noise) (attempt : Nat) :
    List (Attempt noise × Except String Unit) → Option (Except String Unit × World noise)
  | [] => none
  | (tried, waited) :: rest =>
      match world.connect config key tried with
      | (.ok _, world) => some (.ok (), world)
      | (.error error, world) =>
          if 0 < config.maxAttempts ∧ config.maxAttempts ≤ attempt + 1 then
            some (.error error, world)
          else
            match waited with
            | .error error => some (.error error, world)
            | .ok _ => connectWithReconnect world (attempt + 1) rest

/-- A call that was made on the client. -/
inductive Call (noise : Noise) where
  | connect (attempt : Attempt noise)
  | send (plaintext : Bytes) (sent : Except String Unit)
  | receive (read : Except String Bytes)
  | close (result : Except String Unit)

def World.step (world : World noise) : Call noise → World noise
  | .connect attempt => (world.connect config key attempt).2
  | .send plaintext sent => (world.send plaintext sent).2
  | .receive read => (world.receive read).2
  | .close result => (world.close result).2

end Calls

/-! ### Histories -/

section Histories

variable {noise : Noise} (config : Config) (key : KeyPair)

/-- A call of `Connect` that reaches the server. -/
def Call.Dials : Call noise → Prop
  | .connect attempt => dial config attempt.reached = .ok ()
  | _ => False

/-- A call of `Connect` that reaches the server and fails in the handshake. -/
def Call.FailsHandshake : Call noise → Prop
  | .connect attempt =>
      dial config attempt.reached = .ok () ∧ ∃ error, attempt.handshake key = .error error
  | _ => False

/-- A call of `Connect` that succeeds. -/
def Call.Connects : Call noise → Prop
  | .connect attempt =>
      dial config attempt.reached = .ok () ∧ ∃ session, attempt.handshake key = .ok session
  | _ => False

def Call.IsClose : Call noise → Prop
  | .close _ => True
  | _ => False

/-- The handshake on the connection that was dialed last has failed. -/
def LastHandshakeFailed (history : List (Call noise)) : Prop :=
  ∃ before failed later, history = before ++ failed :: later ∧ failed.FailsHandshake config key ∧
    ∀ other ∈ later, ¬other.Dials config

/-- The client was closed and has not connected since. -/
def ClosedSince (history : List (Call noise)) : Prop :=
  ∃ before shut later, history = before ++ shut :: later ∧ shut.IsClose ∧
    ∀ other ∈ later, ¬other.Connects config key

/-- The session was negotiated on the connection that the client holds. -/
def Client.Belongs (client : Client noise) : Prop :=
  ∃ session, client.session = some session ∧ client.conn = some session.conn

/-- When `Send` passes its check, there is a session, negotiated on the connection that
is used. -/
def Client.SendsOnOwn (client : Client noise) : Prop :=
  ∀ conn, client.usable = some conn →
    ∃ session, client.session = some session ∧ session.conn = conn

/-- The client holds a connection without its session. -/
def Client.Stale (client : Client noise) : Prop :=
  client.conn.isSome ∧ ¬client.Belongs

theorem sendsOnOwn_iff (client : Client noise) :
    client.SendsOnOwn ↔ (client.Stale → client.closed = true) := by
  unfold Client.SendsOnOwn Client.usable Client.Stale Client.Belongs
  cases client.closed with
  | true => simp
  | false =>
      cases client.conn with
      | none => simp
      | some conn => simp [eq_comm]

/-! ### One call -/

/-- Connection, session and flag are related as before. -/
structure Client.Kept (before after : Client noise) : Prop where
  conn : after.conn = before.conn
  closed : after.closed = before.closed
  belongs : after.Belongs ↔ before.Belongs

theorem Client.Kept.refl (client : Client noise) : Client.Kept client client :=
  ⟨rfl, rfl, Iff.rfl⟩

theorem Client.Kept.stale {before after : Client noise} (kept : Client.Kept before after) :
    after.Stale ↔ before.Stale := by
  rw [Client.Stale, Client.Stale, kept.conn, kept.belongs]

section Steps

variable (world : World noise)

theorem setSession_kept {session : Session noise} (current : world.client.session = some session)
    (next : NoiseSession noise) :
    Client.Kept world.client (world.setSession session current next).client := by
  refine ⟨rfl, rfl, ?_⟩
  unfold Client.Belongs
  rw [current]
  simp [World.setSession]

theorem send_kept (plaintext : Bytes) (sent : Except String Unit) :
    Client.Kept world.client (world.send plaintext sent).2.client := by
  unfold World.send
  split
  · exact .refl _
  · split
    · exact .refl _
    · next session current =>
      dsimp only
      split
      · exact setSession_kept world current _
      · exact setSession_kept world current _

theorem receive_kept (read : Except String Bytes) :
    Client.Kept world.client (world.receive read).2.client := by
  unfold World.receive
  split
  · exact .refl _
  · split
    · exact .refl _
    · split
      · exact .refl _
      · next session current => exact setSession_kept world current _

/-- **One call of `Connect`.** It did not reach the server and changed nothing, or it took
the new connection and kept the session, or it took both. -/
theorem connect_cases (attempt : Attempt noise) :
    (¬(Call.connect attempt).Dials config ∧
      (world.connect config key attempt).2 = world) ∨
    ((Call.connect attempt).FailsHandshake config key ∧
      (world.connect config key attempt).2.client =
        { world.client with conn := some world.dialed }) ∨
    ((Call.connect attempt).Connects config key ∧ ∃ session,
      (world.connect config key attempt).2.client =
        ⟨some world.dialed, some ⟨session, world.dialed⟩, false⟩) := by
  dsimp only [World.connect, Call.Dials, Call.FailsHandshake, Call.Connects]
  cases dial config attempt.reached with
  | error error => exact .inl ⟨(fun impossible => by cases impossible), rfl⟩
  | ok _ =>
      cases attempt.handshake key with
      | error error => exact .inr (.inl ⟨⟨rfl, error, rfl⟩, rfl⟩)
      | ok session => exact .inr (.inr ⟨⟨rfl, session, rfl⟩, session, rfl⟩)

variable {config key}

theorem Call.FailsHandshake.dials {call : Call noise} (fails : call.FailsHandshake config key) :
    call.Dials config := by
  cases call with
  | connect attempt => exact fails.1
  | _ => exact fails

theorem Call.Connects.dials {call : Call noise} (connects : call.Connects config key) :
    call.Dials config := by
  cases call with
  | connect attempt => exact connects.1
  | _ => exact connects

/-- No call both succeeds and fails. -/
theorem Call.Connects.not_failsHandshake {call : Call noise}
    (connects : call.Connects config key) : ¬call.FailsHandshake config key := by
  cases call with
  | connect attempt =>
      rintro ⟨-, error, failed⟩
      obtain ⟨session, succeeded⟩ := connects.2
      rw [succeeded] at failed
      cases failed
  | _ => exact connects.elim

variable (config key)

/-- A failed handshake is what separates a client from its session. -/
theorem stale_step (call : Call noise) :
    (world.step config key call).client.Stale ↔
      call.FailsHandshake config key ∨ world.client.Stale ∧ ¬call.Dials config := by
  cases call with
  | connect attempt =>
      rcases connect_cases config key world attempt with
        ⟨unreached, same⟩ | ⟨fails, after⟩ | ⟨connects, session, after⟩
      · have noHandshake : ¬(Call.connect attempt).FailsHandshake config key :=
          fun fails => unreached fails.dials
        rw [World.step, same]
        simp [unreached, noHandshake]
      · rw [World.step, after]
        refine iff_of_true ⟨rfl, ?_⟩ (.inl fails)
        -- the connection is new, and every session is of an earlier one
        rintro ⟨session, isSession, isConn⟩
        have earlier := world.known session isSession
        rw [← Option.some.inj isConn] at earlier
        exact Nat.lt_irrefl _ earlier
      · rw [World.step, after]
        refine iff_of_false (fun stale => stale.2 ⟨_, rfl, rfl⟩) ?_
        rintro (fails | ⟨-, unreached⟩)
        · exact connects.not_failsHandshake fails
        · exact unreached connects.dials
  | send plaintext sent =>
      rw [World.step, (send_kept world plaintext sent).stale]
      simp [Call.FailsHandshake, Call.Dials]
  | receive read =>
      rw [World.step, (receive_kept world read).stale]
      simp [Call.FailsHandshake, Call.Dials]
  | close result =>
      have kept : (world.close result).2.client = { world.client with closed := true } := by
        unfold World.close
        cases world.client.conn <;> rfl
      rw [World.step, kept]
      simp [Call.FailsHandshake, Call.Dials, Client.Stale, Client.Belongs]

theorem closed_step (call : Call noise) :
    (world.step config key call).client.closed = true ↔
      call.IsClose ∨ world.client.closed = true ∧ ¬call.Connects config key := by
  cases call with
  | connect attempt =>
      rcases connect_cases config key world attempt with
        ⟨unreached, same⟩ | ⟨fails, after⟩ | ⟨connects, session, after⟩
      · have unconnected : ¬(Call.connect attempt).Connects config key :=
          fun connects => unreached connects.dials
        rw [World.step, same]
        simp [Call.IsClose, unconnected]
      · have unconnected : ¬(Call.connect attempt).Connects config key :=
          fun connects => connects.not_failsHandshake fails
        rw [World.step, after]
        simp [Call.IsClose, unconnected]
      · rw [World.step, after]
        simp [Call.IsClose, connects]
  | send plaintext sent =>
      rw [World.step, (send_kept world plaintext sent).closed]
      simp [Call.IsClose, Call.Connects]
  | receive read =>
      rw [World.step, (receive_kept world read).closed]
      simp [Call.IsClose, Call.Connects]
  | close result =>
      have isClosed : (world.close result).2.client.closed = true := by
        unfold World.close
        cases world.client.conn <;> rfl
      rw [World.step, isClosed]
      simp [Call.IsClose]

end Steps

/-! ### Every sequence of calls -/

/-- The world after a sequence of calls. -/
def World.after (history : List (Call noise)) : World noise :=
  history.foldl (World.step config key) World.new

/-- **When `Send` uses a session of its connection.** After any calls, `Send` passes its
check only with a session that was negotiated on the connection it uses, if and only
if the handshake on the connection dialed last did not fail, or the client was closed
and has not connected since. -/
theorem send_session_belongs_iff (history : List (Call noise)) :
    (World.after config key history).client.SendsOnOwn ↔
      (LastHandshakeFailed config key history → ClosedSince config key history) := by
  have unused : ¬(World.new : World noise).client.Stale := fun stale => by cases stale.1
  have opened : ¬(World.new : World noise).client.closed = true := fun closed => by cases closed
  have stale : (World.after config key history).client.Stale ↔
      LastHandshakeFailed config key history :=
    @has_foldl_iff _ _ (World.step config key) (fun world => world.client.Stale)
      (fun _ call => call.FailsHandshake config key) (Call.Dials config) (stale_step config key)
      _ unused history
  have closed : (World.after config key history).client.closed = true ↔
      ClosedSince config key history :=
    @has_foldl_iff _ _ (World.step config key) (fun world => world.client.closed = true)
      (fun _ call => call.IsClose) (Call.Connects config key) (closed_step config key)
      _ opened history
  rw [sendsOnOwn_iff, stale, closed]

/-- A reconnecting client makes calls of `Connect` and nothing else. -/
theorem connectWithReconnect_connects {world after : World noise} {attempt : Nat}
    {tries : List (Attempt noise × Except String Unit)} {result : Except String Unit}
    (ended : world.connectWithReconnect config key attempt tries = some (result, after)) :
    ∃ made, made <+: tries ∧
      after = (made.map fun tried => Call.connect tried.1).foldl (World.step config key) world := by
  induction tries generalizing world attempt with
  | nil => cases ended
  | cons first rest inductionHypothesis =>
      -- either the loop ends with this attempt, or it goes on from the world it left
      have last : ∀ {outcome}, some (outcome, (world.connect config key first.1).2) =
          some (result, after) → ∃ made, made <+: first :: rest ∧
            after = (made.map fun tried => Call.connect tried.1).foldl (World.step config key)
              world := by
        intro outcome same
        cases same
        exact ⟨[first], by simp, rfl⟩
      unfold World.connectWithReconnect at ended
      cases connected : world.connect config key first.1 with
      | mk outcome next =>
          rw [connected] at ended last
          cases outcome with
          | ok _ => exact last ended
          | error error =>
              dsimp only at ended
              split at ended
              · exact last ended
              · split at ended
                · exact last ended
                · obtain ⟨made, isPrefix, isAfter⟩ := inductionHypothesis ended
                  refine ⟨first :: made, List.cons_prefix_cons.mpr ⟨rfl, isPrefix⟩, ?_⟩
                  rw [List.map_cons, List.foldl_cons, World.step, connected]
                  exact isAfter

end Histories

/-- The configuration of a WebSocket client. -/
def sampleConfig : Config := ⟨"websocket", ⟨0, 0⟩⟩

/-- The server is reached and the connection breaks. -/
def brokenAttempt : Attempt sampleNoise := ⟨.ok (), (), fun _ => .error "broken pipe"⟩

/-- The server answers the handshake. -/
def completeAttempt : Attempt sampleNoise := ⟨.ok (), (), fun _ => .ok [1]⟩

/-- After a failed handshake `Send` passes its check. A new client panics there, and one
that was connected before seals with the session of its old connection. -/
theorem send_without_own_session :
    (World.after sampleConfig sampleKeyPair [.connect brokenAttempt]).client.usable = some 0 ∧
      ((World.after sampleConfig sampleKeyPair [.connect brokenAttempt]).send [5] (.ok ())).1 =
        .panicked "runtime error: invalid memory address or nil pointer dereference" ∧
      (World.after sampleConfig sampleKeyPair
        [.connect completeAttempt, .connect brokenAttempt]).client.usable = some 1 ∧
      (World.after sampleConfig sampleKeyPair
        [.connect completeAttempt, .connect brokenAttempt]).client.session.map Session.conn =
          some 0 ∧
      (World.after sampleConfig sampleKeyPair
        [.connect completeAttempt, .connect brokenAttempt, .send [5] (.ok ())]).written =
          [(1, sampleNoise.sealWith true 0 [5])] :=
  ⟨rfl, rfl, rfl, rfl, rfl⟩

end FProto.Sdk.Go

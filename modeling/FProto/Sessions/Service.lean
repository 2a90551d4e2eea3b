import FProto.Protocol.Rpc
import FProto.Sessions.Effects
import FProto.Sessions.Terminal

/-!
Owns `server/internal/sessiongrpc/server.go`: the RPCs of the session service, and
what any sequence of them does to a session that sleeps.

`UpdateSessionStatus` takes a status and passes an event on. The events it can pass
are those of the handshake, of idleness and of the logout, and the machine has no
transition for any of them out of `sleeping`.

**Main result.** No sequence of RPCs makes a sleeping session active or expired:
`sleeping_never_left`.
-/

namespace FProto.Sessions

open FProto.Foundation
open FProto.Protocol
open RedisStore (statusField)

/-! ### Messages -/

/-- `pb.SessionStatus`, an open enumeration. -/
inductive ProtoStatus where
  | unspecified
  | connecting
  | active
  | sleeping
  | expired
  | unrecognized (number : Int) (foreign : number < 0 ∨ 4 < number)
deriving DecidableEq

/-- `pb.TransportType`, an open enumeration. -/
inductive ProtoTransport where
  | unspecified
  | webSocket
  | quic
  | grpc
  | unrecognized (number : Int) (foreign : number < 0 ∨ 3 < number)
deriving DecidableEq

/-- `pb.Connection`. -/
structure ProtoConnection where
  connectionId : Bytes
  transport : ProtoTransport
  gatewayId : Bytes
  remoteAddr : Bytes
  connectedAt : Int
  lastPacketSeq : UInt64
deriving DecidableEq

/-- `pb.Session`. Times are Unix seconds. -/
structure ProtoSession where
  sessionId : Bytes
  userId : Bytes
  deviceId : Bytes
  status : ProtoStatus
  cryptoState : Bytes
  createdAt : Int
  lastActive : Int
  expiresAt : Int
  connections : List ProtoConnection
deriving DecidableEq

def statusToProto : Status → ProtoStatus
  | .connecting => .connecting
  | .active => .active
  | .sleeping => .sleeping
  | .expired => .expired
  | .unnamed _ _ => .unspecified

/-- `statusToEvent`; `none` is `ErrInvalidTransition`. -/
def statusToEvent : ProtoStatus → Option Event
  | .active => some .handshakeOK
  | .sleeping => some .idleTimeout
  | .expired => some .explicitLogout
  | _ => none

def transportToProto (transport : Bytes) : ProtoTransport :=
  if transport = utf8 "websocket" then .webSocket
  else if transport = utf8 "quic" then .quic
  else if transport = utf8 "grpc" then .grpc
  else .unspecified

def protoToTransport : ProtoTransport → Bytes
  | .webSocket => utf8 "websocket"
  | .quic => utf8 "quic"
  | .grpc => utf8 "grpc"
  | _ => utf8 "websocket"

def sessionToProto (session : Session) : ProtoSession where
  sessionId := session.sessionID
  userId := session.userID
  deviceId := session.deviceID
  status := statusToProto session.status
  cryptoState := session.cryptoState
  createdAt := session.createdAt
  lastActive := session.lastActive
  expiresAt := session.expiresAt
  connections := session.connections.map fun connection =>
    { connectionId := connection.connectionID
      transport := transportToProto connection.transport
      gatewayId := connection.gatewayID
      remoteAddr := connection.remoteAddr
      connectedAt := connection.connectedAt
      lastPacketSeq := connection.lastPacketSeq }

/-- A session that was just created, as `sessionToProto` reads it. -/
def NewSession.toSession (session : NewSession) : Session where
  sessionID := session.sessionID
  userID := session.userID.bytes
  deviceID := session.deviceID.bytes
  status := session.status
  cryptoState := session.cryptoState.bytes
  createdAt := session.createdAt.unix.toInt
  lastActive := session.lastActive.unix.toInt
  expiresAt := session.expiresAt.unix.toInt
  connections := []

inductive SessionRpc where
  | createSession (userId deviceId : Slice)
  | getSession (sessionId : Bytes)
  | updateSessionStatus (sessionId : Bytes) (status : ProtoStatus)
  | registerConnection (sessionId connectionId : Bytes) (transport : ProtoTransport)
      (gatewayId remoteAddr : Bytes)
  | unregisterConnection (sessionId connectionId : Bytes)
  | routeToSession (sessionId payload : Bytes)

/-- The text of an error, or the error that is printed after `transition: `. -/
inductive SessionMessage where
  | text (text : Bytes)
  | transition (error : TransitionSessionError)
deriving DecidableEq

inductive SessionAnswer where
  | created (sessionId : Bytes) (session : ProtoSession)
  | session (session : ProtoSession)
  | registered (activeConnections : UInt32)
  | empty
  | failed (failure : HandlerFailure SessionMessage)
deriving DecidableEq

/-! ### Handlers -/

/-- `status.Errorf` with a plain text. -/
def failWith (code : StatusCode) (text : Bytes) : SessionAnswer :=
  .failed (.status code (.text text))

/-- `Server`. -/
structure Server where
  mgr : Manager

namespace Server

/-- `Server.CreateSession`. -/
def createSession (server : Server) (userId deviceId : Slice) : Code SessionAnswer := do
  match ← server.mgr.createSession userId deviceId with
  | .error error => return failWith .internal (utf8 "create session: " ++ error)
  | .ok session => return .created session.sessionID (sessionToProto session.toSession)

/-- `Server.GetSession`. -/
def getSession (server : Server) (sessionId : Bytes) : Code SessionAnswer := do
  match ← server.mgr.getSession sessionId with
  | .error error => return failWith .notFound (utf8 "session not found: " ++ error)
  | .ok session => return .session (sessionToProto session)

/-- `Server.UpdateSessionStatus`. -/
def updateSessionStatus (server : Server) (sessionId : Bytes) (status : ProtoStatus) :
    Code SessionAnswer :=
  match statusToEvent status with
  | none => return failWith .invalidArgument (utf8 "invalid session state transition")
  | some event => do
      match ← transitionSession ConnJSON.unmarshal server.mgr.pg sessionId event with
      | .error error => return .failed (.status .failedPrecondition (.transition error))
      | .ok none => return failWith .notFound (utf8 "session destroyed")
      | .ok (some session) => return .session (sessionToProto session)

/-- `Server.RegisterConnection`. -/
def registerConnection (server : Server) (sessionId connectionId : Bytes)
    (transport : ProtoTransport) (gatewayId remoteAddr : Bytes) : Code SessionAnswer := do
  let now ← (Program.issue Command.timeNow : Code Time)
  let conn : NewConnection :=
    { connectionID := connectionId
      transport := protoToTransport transport
      gatewayID := gatewayId
      remoteAddr := remoteAddr
      connectedAt := now
      lastPacketSeq := 0 }
  match ← server.mgr.registerConnection sessionId conn with
  | (_, .error error) => return failWith .resourceExhausted error
  | (count, .ok _) => return .registered (UInt32.ofNat count)

/-- `Server.UnregisterConnection`. -/
def unregisterConnection (sessionId connectionId : Bytes) : Code SessionAnswer := do
  match ← Manager.unregisterConnection sessionId connectionId with
  | .error error => return failWith .internal error
  | .ok _ => return .empty

def code (server : Server) : SessionRpc → Code SessionAnswer
  | .createSession userId deviceId => server.createSession userId deviceId
  | .getSession sessionId => server.getSession sessionId
  | .updateSessionStatus sessionId status => server.updateSessionStatus sessionId status
  | .registerConnection sessionId connectionId transport gatewayId remoteAddr =>
      server.registerConnection sessionId connectionId transport gatewayId remoteAddr
  | .unregisterConnection sessionId connectionId => unregisterConnection sessionId connectionId
  | .routeToSession _ _ =>
      return failWith .unimplemented (utf8 "route_to_session not implemented yet")

end Server

/-! ### Sequences of RPCs -/

/-- The stores, everything executed on them, and the answers. -/
structure ServiceRun where
  state : State
  log : Log := []
  answers : List SessionAnswer := []

/-- A whole RPC, or the end of a session key's time to live. -/
inductive ServiceEvent where
  | rpc (rpc : SessionRpc) (choices : List Choice)
  | lapse (sessionID : Bytes)

def Server.next (server : Server) (current : ServiceRun) : ServiceEvent → Option ServiceRun
  | .rpc rpc choices =>
      match (server.code rpc).run exec choices current.state with
      | none => none
      | some (answer, state) =>
          some
            { state := state
              log := current.log ++ (server.code rpc).log exec choices current.state
              answers := current.answers ++ [answer] }
  | .lapse sessionID =>
      some { current with state := current.state.setHash (sessionKey sessionID) [] }

/-- The stores that a sequence of RPCs leaves, starting with empty ones. -/
def Server.Reachable (server : Server) (state : State) : Prop :=
  ∃ events current, run server.next { state := State.empty } events = some current ∧
    current.state = state

/-- Some sequence of RPCs gives a stored session a status. No `CreateSession` of
the sequence draws the id of the session, which would put another session in its
place. -/
def Server.CanMake (server : Server) (state : State) (sessionID : Bytes) (status : Status) : Prop :=
  ∃ events current, run server.next { state := state } events = some current ∧
    ⟨.rand, .ok sessionID⟩ ∉ current.log ∧ current.state.status sessionID = some status.text

/-! ### A sleeping session -/

/-- The record of a session is not there, or says that it sleeps. -/
def Dormant (hash : Hash) : Prop :=
  hash = [] ∨ hash.get statusField = some Status.sleeping.text

/-- An RPC kept the record of a session, or removed it. -/
def KeepsRecord (sessionID : Bytes) (state after : State) : Prop :=
  after.hashes (sessionKey sessionID) = state.hashes (sessionKey sessionID) ∨
    after.hashes (sessionKey sessionID) = []

theorem KeepsRecord.dormant {sessionID : Bytes} {state after : State}
    (keeps : KeepsRecord sessionID state after)
    (dormant : Dormant (state.hashes (sessionKey sessionID))) :
    Dormant (after.hashes (sessionKey sessionID)) := by
  rcases keeps with same | gone
  · rwa [same]
  · exact .inl gone

theorem dormant_ne {state : State} {sessionID : Bytes} {status : Status}
    (dormant : Dormant (state.hashes (sessionKey sessionID))) (other : status ≠ .sleeping) :
    state.status sessionID ≠ some status.text := by
  intro isStatus
  rw [State.status] at isStatus
  rcases dormant with empty | sleeping
  · rw [empty] at isStatus
    cases isStatus
  · rw [sleeping] at isStatus
    exact other (Status.text_injective (Option.some.inj isStatus)).symm

/-- No event of an RPC leads out of `sleeping`. -/
theorem transition_of_statusToEvent {status : ProtoStatus} {event : Event}
    (isEvent : statusToEvent status = some event) (result : TransitionResult) :
    transition .sleeping event ≠ .ok result := by
  cases status <;> cases isEvent <;> exact fun impossible => by cases impossible

section Calls

variable {server : Server} {state after : State} {log : Log} {sessionID : Bytes}

theorem setHash_connKey (state : State) (sessionID other : Bytes) (hash : Hash) :
    KeepsRecord sessionID state (state.setHash (connKey other) hash) := by
  refine .inl ?_
  rw [State.setHash_hashes, if_neg (connKey_ne_sessionKey other sessionID).symm]

theorem createSession_keeps {userId deviceId : Slice} {result : Except Bytes NewSession}
    (effect : CreateEffect server.mgr userId deviceId state log result after)
    (fresh : ⟨.rand, .ok sessionID⟩ ∉ log) : KeepsRecord sessionID state after := by
  cases effect with
  | noRandom error => exact .inl rfl
  | stored drawn now set expire add tail =>
      refine .inl (State.afterCreate_of_ne _ _ _ _ (sessionKey_injective.ne ?_))
      rintro rfl
      exact fresh List.mem_cons_self

/-- A transition on an event of an RPC leaves a dormant record. -/
theorem transitionSession_keeps {status : ProtoStatus} {event : Event} {other : Bytes}
    {result : Except TransitionSessionError (Option Session)}
    (isEvent : statusToEvent status = some event)
    (dormant : Dormant (state.hashes (sessionKey sessionID)))
    (effect : TransitionEffect server.mgr.pg other event state log result after) :
    KeepsRecord sessionID state after := by
  have notMoved : ∀ {session : Session} {result : TransitionResult},
      Stored state other session → transition session.status event = .ok result →
      sessionID ≠ other := by
    rintro session result ⟨present, connections, rfl⟩ allowed rfl
    rcases dormant with empty | sleeping
    · exact present empty
    · have isSleeping : Status.ofText ((state.hashes (sessionKey sessionID)).field "status") =
          .sleeping := by
        rw [Hash.field, show utf8 "status" = statusField from rfl, sleeping]
        exact Status.ofText_text .sleeping
      rw [show (Session.ofHash sessionID _ connections).status = .sleeping from isSleeping]
        at allowed
      exact transition_of_statusToEvent isEvent _ allowed
  cases effect with
  | refused => exact .inl rfl
  | deleteFailed reads quiet session stored result allowed =>
      exact .inl (State.afterDelete_of_ne _ _ _ _ _ _ (notMoved stored allowed))
  | destroyed reads quiet session stored result allowed =>
      refine .inl ?_
      show (state.afterDelete other session.userID (.ok ()) (.ok ()) (.ok ())).hashes
        (sessionKey sessionID) = _
      exact State.afterDelete_of_ne _ _ _ _ _ _ (notMoved stored allowed)
  | moved reads quiet session stored next allowed =>
      refine .inl ?_
      show (state.setHash _ _).hashes _ = _
      rw [State.setHash_hashes, if_neg (sessionKey_injective.ne (notMoved stored allowed))]

theorem registerConnection_keeps {other : Bytes} {conn : NewConnection}
    {result : Nat × Except Bytes Unit}
    (effect : RegisterEffect server.mgr other conn state log result after) :
    KeepsRecord sessionID state after := by
  cases effect with
  | added => exact setHash_connKey _ _ _ _
  | _ => exact .inl rfl

theorem unregisterConnection_keeps {other connectionID : Bytes} {result : Except Bytes Unit}
    (effect : UnregisterEffect other connectionID state log result after) :
    KeepsRecord sessionID state after := by
  cases effect with
  | removed => exact setHash_connKey _ _ _ _
  | failed => exact .inl rfl

/-- **One RPC.** -/
theorem code_keeps {rpc : SessionRpc} {answer : SessionAnswer}
    (dormant : Dormant (state.hashes (sessionKey sessionID)))
    (executes : Executes exec (server.code rpc) state log answer after)
    (fresh : ⟨.rand, .ok sessionID⟩ ∉ log) : KeepsRecord sessionID state after := by
  cases rpc with
  | createSession userId deviceId =>
      obtain ⟨result, middle, early, late, split, created, answered⟩ := executes.bind_inv
      have freshEarly : ⟨.rand, .ok sessionID⟩ ∉ early := by
        intro drawn
        rw [split] at fresh
        exact fresh (List.mem_append_left _ drawn)
      have keeps := createSession_keeps (createSession_executes created) freshEarly
      cases result <;> cases answered <;> exact keeps
  | getSession sessionId =>
      obtain ⟨result, middle, early, late, -, fetched, answered⟩ := executes.bind_inv
      have unchanged := (getSession_executes fetched).1
      cases result <;> cases answered <;> exact .inl (by rw [unchanged])
  | updateSessionStatus sessionId status =>
      rw [Server.code, Server.updateSessionStatus] at executes
      cases isEvent : statusToEvent status with
      | none =>
          rw [isEvent] at executes
          cases executes
          exact .inl rfl
      | some event =>
          rw [isEvent] at executes
          obtain ⟨result, middle, early, late, -, transitioned, answered⟩ := executes.bind_inv
          have keeps := transitionSession_keeps isEvent dormant
            (transitionSession_executes transitioned)
          rcases result with error | _ | session <;> cases answered <;> exact keeps
  | registerConnection sessionId connectionId transport gatewayId remoteAddr =>
      rw [Server.code, Server.registerConnection, Program.issue_bind] at executes
      cases executes with
      | @call _ _ _ _ _ _ now _ _ clock rest =>
          obtain rfl := exec_timeNow clock
          obtain ⟨result, middle, early, late, -, registered, answered⟩ := rest.bind_inv
          have keeps : KeepsRecord sessionID _ middle :=
            registerConnection_keeps (registerConnection_executes registered)
          rcases result with ⟨count, error | _⟩ <;> cases answered <;> exact keeps
  | unregisterConnection sessionId connectionId =>
      obtain ⟨result, middle, early, late, -, removed, answered⟩ := executes.bind_inv
      have keeps : KeepsRecord sessionID state middle :=
        unregisterConnection_keeps (unregisterConnection_executes removed)
      cases result <;> cases answered <;> exact keeps
  | routeToSession sessionId payload =>
      cases executes
      exact .inl rfl

end Calls

/-- The invariant of a sequence of RPCs: the session is dormant, unless its id was
drawn again. -/
def StaysDormant (sessionID : Bytes) (current : ServiceRun) : Prop :=
  ⟨.rand, .ok sessionID⟩ ∉ current.log → Dormant (current.state.hashes (sessionKey sessionID))

/-- **One event.** -/
theorem StaysDormant.next {server : Server} {sessionID : Bytes} {current after : ServiceRun}
    {event : ServiceEvent} (dormant : StaysDormant sessionID current)
    (stepped : server.next current event = some after) : StaysDormant sessionID after := by
  cases event with
  | rpc rpc choices =>
      simp only [Server.next] at stepped
      split at stepped
      · cases stepped
      · next answer state ran =>
        cases stepped
        intro fresh
        rw [List.mem_append, not_or] at fresh
        have before := dormant fresh.1
        exact (code_keeps before (executes_of_run ran) fresh.2).dormant before
  | lapse lapsed =>
      cases stepped
      intro fresh
      have before := dormant fresh
      show Dormant ((current.state.setHash (sessionKey lapsed) []).hashes (sessionKey sessionID))
      rw [State.setHash_hashes]
      split
      · exact .inl rfl
      · exact before

/-- A sleeping session gets no other status. -/
theorem not_canMake {server : Server} {state : State} {sessionID : Bytes} {status : Status}
    (sleeping : state.status sessionID = some Status.sleeping.text) (other : status ≠ .sleeping) :
    ¬server.CanMake state sessionID status := by
  rintro ⟨events, current, ran, fresh, isStatus⟩
  have start : StaysDormant sessionID { state := state } := fun _ => .inr sleeping
  have stays := run_invariant (fun _ _ _ dormant stepped => dormant.next stepped) start ran
  exact dormant_ne (stays fresh) other isStatus

/-- **A sleeping session stays asleep** under every sequence of RPCs, whatever else
the stores hold. -/
theorem sleeping_never_left (server : Server) {state : State} {sessionID : Bytes}
    (sleeping : state.status sessionID = some Status.sleeping.text) :
    ¬server.CanMake state sessionID .active ∧ ¬server.CanMake state sessionID .expired :=
  ⟨not_canMake sleeping Status.noConfusion, not_canMake sleeping Status.noConfusion⟩

def sampleServer : Server := ⟨⟨false, defaultConfig⟩⟩

def sampleID : Bytes := List.replicate 16 7

/-- A session is created, becomes active and falls asleep; then it is to become
active and to expire. -/
def sleepingEvents : List ServiceEvent :=
  [.rpc (.createSession (some [1]) (some [2]))
      [.random sampleID, .clock (Time.ofUnix 0), .ok, .ok, .ok],
    .rpc (.updateSessionStatus sampleID .active) [.ok, .ok, .ok],
    .rpc (.updateSessionStatus sampleID .sleeping) [.ok, .ok, .ok],
    .rpc (.updateSessionStatus sampleID .active) [.ok, .ok],
    .rpc (.updateSessionStatus sampleID .expired) [.ok, .ok]]

/-- The last two RPCs of the run are refused. -/
theorem sleepingEvents_run :
    ∃ current, run sampleServer.next { state := State.empty } sleepingEvents = some current ∧
      current.state.status sampleID = some Status.sleeping.text ∧
      current.answers.drop 3 =
        [.failed (.status .failedPrecondition
            (.transition (.transition (.notValid .handshakeOK .sleeping)))),
          .failed (.status .failedPrecondition
            (.transition (.transition (.notValid .explicitLogout .sleeping))))] :=
  ⟨_, rfl, rfl, rfl⟩

theorem sleeping_never_left_sample :
    ∃ state, sampleServer.Reachable state ∧
      state.status sampleID = some Status.sleeping.text ∧
      ¬sampleServer.CanMake state sampleID .active ∧
      ¬sampleServer.CanMake state sampleID .expired := by
  obtain ⟨current, ran, sleeping, -⟩ := sleepingEvents_run
  exact ⟨_, ⟨sleepingEvents, current, ran, rfl⟩, sleeping, sleeping_never_left _ sleeping⟩

theorem sleeping_session_refused :
    ∃ current, run sampleServer.next { state := State.empty } sleepingEvents = some current ∧
      current.state.status sampleID = some Status.sleeping.text ∧
      current.answers.drop 3 =
        [.failed (.status .failedPrecondition
            (.transition (.transition (.notValid .handshakeOK .sleeping)))),
          .failed (.status .failedPrecondition
            (.transition (.transition (.notValid .explicitLogout .sleeping))))] ∧
      ¬sampleServer.CanMake current.state sampleID .active ∧
      ¬sampleServer.CanMake current.state sampleID .expired := by
  obtain ⟨current, ran, sleeping, answers⟩ := sleepingEvents_run
  exact ⟨current, ran, sleeping, answers, not_canMake sleeping Status.noConfusion,
    not_canMake sleeping Status.noConfusion⟩

end FProto.Sessions

import FProto.Sessions.Manager

/-!
Owns what one uninterrupted call of the manager can do: the commands it
executes, what it returns, and the stores it leaves, with every pattern of
failures of its commands.

Results about calls that are made one after the other are derived from the
effects here and do not take the programs apart again.
-/

namespace FProto.Sessions

open FProto.Foundation
open RedisStore (statusField createFields firstError)

abbrev Log := List (Executed Command Reply)

/-- A write to a store that took effect. -/
def wrote : (command : Command) → Reply command → Bool
  | .hSet _ _ _, .ok _ => true
  | .hSetFields _ _, .ok _ => true
  | .hDel _ _, .ok _ => true
  | .del _, .ok _ => true
  | .sAdd _ _, .ok _ => true
  | .sRem _ _, .ok _ => true
  | .pgCreate _, .ok _ => true
  | .pgUpdateStatus _ _, .ok _ => true
  | .pgUpdateCryptoState _ _, .ok _ => true
  | .pgDelete _, .ok _ => true
  | .lapse _, _ => true
  | _, _ => false

/-- A PostgreSQL write whose error `TransitionSession` ignores. -/
def ignored : Command → Bool
  | .pgUpdateStatus _ _ => true
  | .pgDelete _ => true
  | _ => false

/-- Commands that wrote nothing, and none whose error is ignored. -/
def Quiet (log : Log) : Prop :=
  ∀ entry ∈ log, (wrote entry.1 entry.2 || ignored entry.1) = false

theorem quiet_nil : Quiet [] := fun _ member => absurd member List.not_mem_nil

theorem quiet_cons {entry : Executed Command Reply} {log : Log}
    (first : (wrote entry.1 entry.2 || ignored entry.1) = false) (rest : Quiet log) :
    Quiet (entry :: log) := by
  intro other member
  rcases List.mem_cons.mp member with rfl | member
  · exact first
  · exact rest other member

theorem Quiet.append {early late : Log} (first : Quiet early) (second : Quiet late) :
    Quiet (early ++ late) := by
  intro entry member
  rcases List.mem_append.mp member with member | member
  · exact first entry member
  · exact second entry member

/-- An effect that a failed command does not have. -/
def onSuccess {Value : Type} (reply : Except Bytes Value) (effect : State → State)
    (state : State) : State :=
  match reply with
  | .ok _ => effect state
  | .error _ => state

@[simp] theorem onSuccess_pg_hashes {Value : Type} (reply : Except Bytes Value) (rows : List Row)
    (state : State) :
    (onSuccess reply (fun state => { state with pg := rows }) state).hashes = state.hashes := by
  cases reply <;> rfl

/-! ### Single commands -/

section Commands

variable {choice : Choice} {state after : State}

theorem exec_hGetAll {key : Bytes} {reply : Except Bytes Hash}
    (executed : exec (.hGetAll key) choice state = some (reply, after)) :
    after = state ∧ ∀ vals, reply = .ok vals → vals = state.hashes key := by
  cases choice <;> cases executed
  · exact ⟨rfl, fun _ same => (Except.ok.inj same).symm⟩
  · exact ⟨rfl, nofun⟩

theorem exec_hSet {key field value : Bytes} {reply : Except Bytes Unit}
    (executed : exec (.hSet key field value) choice state = some (reply, after)) :
    after = onSuccess reply (fun state => state.setHash key ((state.hashes key).set field value))
      state := by
  cases choice <;> cases executed <;> rfl

theorem exec_hSetFields {key : Bytes} {fields : List (Bytes × Bytes)} {reply : Except Bytes Unit}
    (executed : exec (.hSetFields key fields) choice state = some (reply, after)) :
    after = onSuccess reply (fun state => state.setHash key ((state.hashes key).setAll fields))
      state := by
  cases choice <;> cases executed <;> rfl

theorem exec_hDel {key field : Bytes} {reply : Except Bytes Unit}
    (executed : exec (.hDel key field) choice state = some (reply, after)) :
    after = onSuccess reply (fun state => state.setHash key ((state.hashes key).del field))
      state := by
  cases choice <;> cases executed <;> rfl

theorem exec_expire {key : Bytes} {reply : Except Bytes Unit}
    (executed : exec (.expire key) choice state = some (reply, after)) : after = state := by
  cases choice <;> cases executed <;> rfl

theorem exec_del {key : Bytes} {reply : Except Bytes Unit}
    (executed : exec (.del key) choice state = some (reply, after)) :
    after = onSuccess reply (fun state => state.setHash key []) state := by
  cases choice <;> cases executed <;> rfl

theorem exec_sAdd {key member : Bytes} {reply : Except Bytes Unit}
    (executed : exec (.sAdd key member) choice state = some (reply, after)) :
    after = onSuccess reply (fun state => state.addMember key member) state := by
  cases choice <;> cases executed <;> rfl

theorem exec_sRem {key member : Bytes} {reply : Except Bytes Unit}
    (executed : exec (.sRem key member) choice state = some (reply, after)) :
    after = onSuccess reply (fun state => state.removeMember key member) state := by
  cases choice <;> cases executed <;> rfl

theorem exec_sMembers {key : Bytes} {reply : Except Bytes (List Bytes)}
    (executed : exec (.sMembers key) choice state = some (reply, after)) :
    after = state ∧ ∀ members, reply = .ok members → members = state.sets key := by
  cases choice <;> cases executed
  · exact ⟨rfl, fun _ same => (Except.ok.inj same).symm⟩
  · exact ⟨rfl, nofun⟩

theorem exec_now {now : Int} (executed : exec .now choice state = some (now, after)) :
    after = state := by
  cases choice <;> cases executed
  rfl

theorem exec_timeNow {now : Time} (executed : exec .timeNow choice state = some (now, after)) :
    after = state := by
  cases choice <;> cases executed
  rfl

theorem exec_rand {reply : Except Bytes Bytes}
    (executed : exec .rand choice state = some (reply, after)) : after = state := by
  cases choice with
  | random bytes =>
      simp only [exec] at executed
      split at executed
      · cases executed; rfl
      · cases executed
  | noRandom error => cases executed; rfl
  | _ => cases executed

theorem exec_pgGet {sessionID : Bytes} {reply : Except Bytes (Option Row)}
    (executed : exec (.pgGet sessionID) choice state = some (reply, after)) :
    after = state ∧ ∀ found, reply = .ok found → found = PGStore.find state.pg sessionID := by
  cases choice <;> cases executed
  · exact ⟨rfl, fun _ same => (Except.ok.inj same).symm⟩
  · exact ⟨rfl, nofun⟩

theorem exec_pgDelete {sessionID : Bytes} {reply : Except Bytes Unit}
    (executed : exec (.pgDelete sessionID) choice state = some (reply, after)) :
    after = onSuccess reply
      (fun state => { state with pg := PGStore.delete state.pg sessionID }) state := by
  cases choice <;> cases executed <;> rfl

/-- A session without crypto state is never inserted. -/
theorem exec_pgCreate {session : NewSession} (noCrypto : session.cryptoState = none)
    {reply : Except Bytes Unit}
    (executed : exec (.pgCreate session) choice state = some (reply, after)) :
    after = state ∧ ∃ error, reply = .error error := by
  have refused : ∃ error, PGStore.create state.pg session = .error error := by
    unfold PGStore.create
    rw [noCrypto]
    cases session.userID <;> cases session.deviceID <;> exact ⟨_, rfl⟩
  obtain ⟨error, refused⟩ := refused
  cases choice with
  | ok =>
      simp only [exec, refused, tableAfter, Option.some.injEq, Prod.mk.injEq] at executed
      obtain ⟨rfl, rfl⟩ := executed
      exact ⟨rfl, error, rfl⟩
  | fail error => cases executed; exact ⟨rfl, error, rfl⟩
  | _ => cases executed

/-- The rows after a status was updated. -/
def statusRows (rows : List Row) (sessionID : Bytes) (status : Status)
    (checked : status.isNamed = true) (now : Time) : List Row :=
  PGStore.update rows sessionID fun row =>
    { row with status := status, checked := checked, updatedAt := now }

theorem find_statusRows_self (rows : List Row) (sessionID : Bytes) {status : Status}
    (checked : status.isNamed = true) (now : Time) :
    PGStore.find (statusRows rows sessionID status checked now) sessionID =
      (PGStore.find rows sessionID).map fun row =>
        { row with status := status, checked := checked, updatedAt := now } := by
  rw [statusRows, PGStore.find_update_self]
  exact fun _ => rfl

theorem find_statusRows_of_ne (rows : List Row) {sessionID other : Bytes}
    (different : other ≠ sessionID) {status : Status} (checked : status.isNamed = true)
    (now : Time) :
    PGStore.find (statusRows rows sessionID status checked now) other =
      PGStore.find rows other := by
  rw [statusRows, PGStore.find_update_of_ne _ _ different]
  exact fun _ => rfl

theorem exec_pgUpdateStatus {sessionID : Bytes} {status : Status}
    (checked : status.isNamed = true) {reply : Except Bytes Unit}
    (executed : exec (.pgUpdateStatus sessionID status) choice state = some (reply, after)) :
    ∃ now, after = onSuccess reply
      (fun state => { state with pg := statusRows state.pg sessionID status checked now })
      state := by
  cases choice with
  | storedAt now =>
      simp only [exec, PGStore.updateStatus, dif_pos checked, tableAfter, Option.some.injEq,
        Prod.mk.injEq] at executed
      obtain ⟨rfl, rfl⟩ := executed
      exact ⟨now, rfl⟩
  | fail error =>
      cases executed
      exact ⟨.ofUnix 0, rfl⟩
  | _ => cases executed

theorem exec_pgUpdateCryptoState {sessionID : Bytes} {cryptoState : Slice}
    {reply : Except Bytes Unit}
    (executed : exec (.pgUpdateCryptoState sessionID cryptoState) choice state =
      some (reply, after)) :
    ∃ rows, after = onSuccess reply (fun state => { state with pg := rows }) state ∧
      (reply = .ok () →
        ∃ now, PGStore.updateCryptoState state.pg sessionID cryptoState now = .ok rows) := by
  cases choice with
  | storedAt now =>
      simp only [exec, Option.some.injEq, Prod.mk.injEq] at executed
      obtain ⟨rfl, rfl⟩ := executed
      cases result : PGStore.updateCryptoState state.pg sessionID cryptoState now with
      | error error => exact ⟨[], rfl, fun impossible => by cases impossible⟩
      | ok rows => exact ⟨rows, rfl, fun _ => ⟨now, result⟩⟩
  | fail error =>
      cases executed
      exact ⟨[], rfl, fun impossible => by cases impossible⟩
  | _ => cases executed

end Commands

/-! ### Reading a session -/

/-- Redis has a record of the session. -/
def HasRecord (state : State) (sessionID : Bytes) : Prop :=
  state.hashes (sessionKey sessionID) ≠ []

/-- `Get` returns the session when Redis answers. -/
def Stored (state : State) (sessionID : Bytes) (session : Session) : Prop :=
  HasRecord state sessionID ∧
    ∃ connections, session =
      Session.ofHash sessionID (state.hashes (sessionKey sessionID)) connections

theorem Stored.status_eq {state : State} {sessionID : Bytes} {left right : Session}
    (first : Stored state sessionID left) (second : Stored state sessionID right) :
    left.status = right.status := by
  obtain ⟨-, _, rfl⟩ := first
  obtain ⟨-, _, rfl⟩ := second
  rfl

section Reads

variable {decodeConn : DecodeConn} {sessionID : Bytes} {state after : State} {log : Log}

theorem getConnections_executes {result : Except Bytes (List Connection)}
    (executes : Executes exec (RedisStore.getConnections decodeConn sessionID) state log result
      after) : after = state ∧ Quiet log := by
  rw [RedisStore.getConnections, Program.issue_bind] at executes
  cases executes with
  | @call _ _ _ _ _ _ reply _ _ executed rest =>
      obtain ⟨rfl, -⟩ := exec_hGetAll executed
      cases reply with
      | error error =>
          cases rest
          exact ⟨rfl, quiet_cons rfl quiet_nil⟩
      | ok vals =>
          cases rest
          exact ⟨rfl, quiet_cons rfl quiet_nil⟩

theorem get_executes {result : Except Bytes Session}
    (executes : Executes exec (RedisStore.get decodeConn sessionID) state log result after) :
    after = state ∧ Quiet log ∧ ∀ session, result = .ok session → Stored state sessionID session := by
  rw [RedisStore.get, Program.issue_bind] at executes
  cases executes with
  | @call _ _ _ _ _ _ reply _ _ executed rest =>
      obtain ⟨rfl, read⟩ := exec_hGetAll executed
      cases reply with
      | error error =>
          cases rest
          exact ⟨rfl, quiet_cons rfl quiet_nil, nofun⟩
      | ok vals =>
          obtain rfl := read vals rfl
          dsimp only at rest
          split at rest
          · cases rest
            exact ⟨rfl, quiet_cons rfl quiet_nil, nofun⟩
          · next found =>
            obtain ⟨connections, middle, early, late, rfl, first, second⟩ := rest.bind_inv
            obtain ⟨rfl, quiet⟩ := getConnections_executes first
            cases connections with
            | error error =>
                cases second
                refine ⟨rfl, quiet_cons rfl (quiet.append quiet_nil), fun session same => ?_⟩
                exact ⟨found, [], (Except.ok.inj same).symm⟩
            | ok connections =>
                cases second
                refine ⟨rfl, quiet_cons rfl (quiet.append quiet_nil), fun session same => ?_⟩
                exact ⟨found, connections, (Except.ok.inj same).symm⟩

end Reads

/-! ### Creating a session -/

/-- Redis after `Create`, by the replies to `HSET` and `SADD`. -/
def State.afterCreate (state : State) (session : NewSession) (set add : Except Bytes Unit) :
    State :=
  onSuccess add (fun state => state.addMember (userSessionsKey session.userID.bytes)
      (hexEncode session.sessionID))
    (onSuccess set (fun state => state.setHash (sessionKey session.sessionID)
      ((state.hashes (sessionKey session.sessionID)).setAll (createFields session))) state)

section AfterCreate

variable (state : State) (session : NewSession) (set add : Except Bytes Unit)

theorem State.afterCreate_hashes :
    (state.afterCreate session set add).hashes =
      (onSuccess set (fun state => state.setHash (sessionKey session.sessionID)
        ((state.hashes (sessionKey session.sessionID)).setAll (createFields session)))
        state).hashes := by
  cases add with
  | error error => rfl
  | ok _ => exact State.addMember_hashes _ _ _

theorem State.afterCreate_self (value : Unit) :
    (state.afterCreate session (.ok value) add).hashes (sessionKey session.sessionID) =
      (state.hashes (sessionKey session.sessionID)).setAll (createFields session) := by
  rw [State.afterCreate_hashes, onSuccess, State.setHash_hashes, if_pos rfl]

theorem State.afterCreate_of_ne {key : Bytes} (different : key ≠ sessionKey session.sessionID) :
    (state.afterCreate session set add).hashes key = state.hashes key := by
  rw [State.afterCreate_hashes]
  cases set with
  | error error => rfl
  | ok _ => rw [onSuccess, State.setHash_hashes, if_neg different]

theorem State.afterCreate_failed (error : Bytes) :
    (state.afterCreate session (.error error) add).hashes = state.hashes :=
  State.afterCreate_hashes state session (.error error) add

theorem State.afterCreate_pg : (state.afterCreate session set add).pg = state.pg := by
  have added : ∀ (state : State) key member, (state.addMember key member).pg = state.pg := by
    intro state key member
    unfold State.addMember
    split <;> rfl
  cases add with
  | error error => cases set <;> rfl
  | ok _ => cases set <;> exact added _ _ _

theorem State.mem_afterCreate (key present : Bytes) :
    present ∈ (state.afterCreate session set add).sets key ↔
      present ∈ state.sets key ∨
        (add = .ok () ∧ key = userSessionsKey session.userID.bytes ∧
          present = hexEncode session.sessionID) := by
  cases add <;> cases set <;> simp [State.afterCreate, onSuccess, State.mem_addMember, State.setHash]

end AfterCreate

/-- The commands of `Create`. -/
def createLog (session : NewSession) (set expire add : Except Bytes Unit) : Log :=
  [⟨.hSetFields (sessionKey session.sessionID) (createFields session), set⟩,
    ⟨.expire (sessionKey session.sessionID), expire⟩,
    ⟨.sAdd (userSessionsKey session.userID.bytes) (hexEncode session.sessionID), add⟩]

theorem create_executes {session : NewSession} {state after : State} {log : Log}
    {result : Except Bytes Unit}
    (executes : Executes exec (RedisStore.create session) state log result after) :
    ∃ set expire add, log = createLog session set expire add ∧
      result = firstError [set, expire, add] ∧ after = state.afterCreate session set add := by
  unfold RedisStore.create at executes
  simp only [Program.issue_bind] at executes
  cases executes with
  | @call _ _ _ _ _ _ set _ _ setDone rest =>
      cases rest with
      | @call _ _ _ _ _ _ expire _ _ expireDone rest =>
          cases rest with
          | @call _ _ _ _ _ _ add _ _ addDone rest =>
              cases rest
              obtain rfl := exec_hSetFields setDone
              obtain rfl := exec_expire expireDone
              obtain rfl := exec_sAdd addDone
              exact ⟨set, expire, add, rfl, rfl, rfl⟩

/-- What `CreateSession` can do. PostgreSQL refuses every new session, because a
new session has no crypto state. -/
inductive CreateEffect (manager : Manager) (userID deviceID : Slice) (state : State) :
    Log → Except Bytes NewSession → State → Prop
  | noRandom (error : Bytes) :
      CreateEffect manager userID deviceID state [⟨.rand, .error error⟩]
        (.error (utf8 "generate session id: " ++ error)) state
  | stored (sessionID : Bytes) (now : Time) (set expire add : Except Bytes Unit) (tail : Log)
      (result : Except Bytes NewSession) (quiet : Quiet tail)
      (success : ∀ session, result = .ok session → manager.pg = false) :
      CreateEffect manager userID deviceID state
        (⟨.rand, .ok sessionID⟩ :: ⟨.timeNow, now⟩ ::
          createLog (manager.newSession userID deviceID sessionID now) set expire add ++ tail)
        result
        (state.afterCreate (manager.newSession userID deviceID sessionID now) set add)

theorem createSession_executes {manager : Manager} {userID deviceID : Slice}
    {state after : State} {log : Log} {result : Except Bytes NewSession}
    (executes : Executes exec (manager.createSession userID deviceID) state log result after) :
    CreateEffect manager userID deviceID state log result after := by
  rw [Manager.createSession, Program.issue_bind] at executes
  cases executes with
  | @call _ _ _ _ _ _ drawn _ _ draw rest =>
      obtain rfl := exec_rand draw
      cases drawn with
      | error error =>
          cases rest
          exact .noRandom error
      | ok sessionID =>
          dsimp only at rest
          rw [Program.issue_bind] at rest
          cases rest with
          | @call _ _ _ _ _ _ now _ _ clock rest =>
              obtain rfl := exec_timeNow clock
              obtain ⟨created, middle, early, late, rfl, first, second⟩ := rest.bind_inv
              obtain ⟨set, expire, add, rfl, rfl, rfl⟩ := create_executes first
              rw [← List.cons_append, ← List.cons_append]
              cases stored : firstError [set, expire, add] with
              | error error =>
                  rw [stored] at second
                  cases second
                  exact .stored sessionID now set expire add [] _ quiet_nil
                    fun _ impossible => by cases impossible
              | ok _ =>
                  rw [stored] at second
                  dsimp only at second
                  split at second
                  · cases second with
                    | @call _ _ _ _ _ _ reply _ _ insert rest =>
                        obtain ⟨rfl, error, rfl⟩ := exec_pgCreate rfl insert
                        cases rest
                        exact .stored sessionID now set expire add
                          [⟨.pgCreate _, .error error⟩] _ (quiet_cons rfl quiet_nil)
                          fun _ impossible => by cases impossible
                  · next noPg =>
                    cases second
                    exact .stored sessionID now set expire add [] _ quiet_nil
                      fun _ _ => Bool.eq_false_iff.mpr noPg

/-! ### Updating the crypto state -/

/-- `HSET` of one field of a session. -/
def State.setField (state : State) (sessionID field value : Bytes) : State :=
  state.setHash (sessionKey sessionID) ((state.hashes (sessionKey sessionID)).set field value)

def cryptoField : Bytes := utf8 "crypto_state"

/-- What `UpdateCryptoState` can do. -/
inductive CryptoEffect (manager : Manager) (sessionID : Bytes) (cryptoState : Slice)
    (state : State) : Log → Except Bytes Unit → State → Prop
  | failed (error : Bytes) :
      CryptoEffect manager sessionID cryptoState state
        [⟨.hSet (sessionKey sessionID) cryptoField (hexEncode cryptoState.bytes), .error error⟩]
        (.error error) state
  | redis (noPg : manager.pg = false) :
      CryptoEffect manager sessionID cryptoState state
        [⟨.hSet (sessionKey sessionID) cryptoField (hexEncode cryptoState.bytes), .ok ()⟩]
        (.ok ()) (state.setField sessionID cryptoField (hexEncode cryptoState.bytes))
  | both (reply : Except Bytes Unit) (rows : List Row)
      (statement : reply = .ok () →
        ∃ now, PGStore.updateCryptoState state.pg sessionID cryptoState now = .ok rows) :
      CryptoEffect manager sessionID cryptoState state
        [⟨.hSet (sessionKey sessionID) cryptoField (hexEncode cryptoState.bytes), .ok ()⟩,
          ⟨.pgUpdateCryptoState sessionID cryptoState, reply⟩]
        reply
        (onSuccess reply (fun state => { state with pg := rows })
          (state.setField sessionID cryptoField (hexEncode cryptoState.bytes)))

theorem updateCryptoState_executes {manager : Manager} {sessionID : Bytes} {cryptoState : Slice}
    {state after : State} {log : Log} {result : Except Bytes Unit}
    (executes : Executes exec (manager.updateCryptoState sessionID cryptoState) state log result
      after) : CryptoEffect manager sessionID cryptoState state log result after := by
  rw [Manager.updateCryptoState, RedisStore.updateCryptoState, Program.issue_bind] at executes
  cases executes with
  | @call _ _ _ _ _ _ reply _ _ setDone rest =>
      obtain rfl := exec_hSet setDone
      cases reply with
      | error error =>
          cases rest
          exact .failed error
      | ok _ =>
          dsimp only at rest
          split at rest
          · obtain ⟨rfl, choice, updateDone⟩ := rest.issue_inv
            obtain ⟨rows, rfl, statement⟩ := exec_pgUpdateCryptoState updateDone
            exact .both result rows statement
          · next noPg =>
            cases rest
            exact .redis (Bool.eq_false_iff.mpr noPg)

/-! ### Connections -/

/-- The connections that `GetConnections` decodes from a hash. -/
def decodedConnections (conns : Hash) : List Connection :=
  conns.filterMap fun (connectionID, raw) =>
    (ConnJSON.unmarshal raw).map fun fields => { toConnJSON := fields, connectionID }

/-- The stored connections of a session that can be decoded. -/
def State.connections (state : State) (sessionID : Bytes) : List Connection :=
  decodedConnections (state.hashes (connKey sessionID))

/-- `Get` of a session with a record, when Redis answers. -/
theorem get_run {state : State} {sessionID : Bytes} (present : HasRecord state sessionID) :
    (RedisStore.get ConnJSON.unmarshal sessionID).run exec [.ok, .ok] state =
      some (.ok (Session.ofHash sessionID (state.hashes (sessionKey sessionID))
        (state.connections sessionID)), state) := by
  unfold HasRecord at present
  simp [RedisStore.get, RedisStore.getConnections, Program.run, exec, present, State.connections,
    decodedConnections]

/-- What `RegisterConnection` can do. -/
inductive RegisterEffect (manager : Manager) (sessionID : Bytes) (conn : NewConnection)
    (state : State) : Log → Nat × Except Bytes Unit → State → Prop
  | unread (error : Bytes) :
      RegisterEffect manager sessionID conn state [⟨.hGetAll (connKey sessionID), .error error⟩]
        (0, .error error) state
  | full (limit : manager.config.maxConnections ≤ (state.connections sessionID).length) :
      RegisterEffect manager sessionID conn state
        [⟨.hGetAll (connKey sessionID), .ok (state.hashes (connKey sessionID))⟩]
        ((state.connections sessionID).length, .error manager.limitError) state
  | failed (free : ¬manager.config.maxConnections ≤ (state.connections sessionID).length)
      (error : Bytes) :
      RegisterEffect manager sessionID conn state
        [⟨.hGetAll (connKey sessionID), .ok (state.hashes (connKey sessionID))⟩,
          ⟨.hSet (connKey sessionID) conn.connectionID conn.toConnJSON.marshal, .error error⟩]
        (0, .error error) state
  | added (free : ¬manager.config.maxConnections ≤ (state.connections sessionID).length) :
      RegisterEffect manager sessionID conn state
        [⟨.hGetAll (connKey sessionID), .ok (state.hashes (connKey sessionID))⟩,
          ⟨.hSet (connKey sessionID) conn.connectionID conn.toConnJSON.marshal, .ok ()⟩]
        ((state.connections sessionID).length + 1, .ok ())
        (state.setHash (connKey sessionID)
          ((state.hashes (connKey sessionID)).set conn.connectionID conn.toConnJSON.marshal))

theorem registerConnection_executes {manager : Manager} {sessionID : Bytes} {conn : NewConnection}
    {state after : State} {log : Log} {result : Nat × Except Bytes Unit}
    (executes : Executes exec (manager.registerConnection sessionID conn) state log result after) :
    RegisterEffect manager sessionID conn state log result after := by
  unfold Manager.registerConnection at executes
  obtain ⟨existing, middle, early, late, rfl, first, second⟩ := executes.bind_inv
  rw [RedisStore.getConnections, Program.issue_bind] at first
  cases first with
  | @call _ _ _ _ _ _ reply _ _ read rest =>
      obtain ⟨rfl, found⟩ := exec_hGetAll read
      cases reply with
      | error error =>
          cases rest
          cases second
          exact .unread error
      | ok vals =>
          obtain rfl := found vals rfl
          cases rest
          dsimp only at second
          split at second
          · next limit =>
            cases second
            exact .full limit
          · next free =>
            rw [RedisStore.addConnection, Program.issue_bind] at second
            cases second with
            | @call _ _ _ _ _ _ reply _ _ setDone rest =>
                obtain rfl := exec_hSet setDone
                cases reply with
                | error error =>
                    cases rest
                    exact .failed free error
                | ok _ =>
                    cases rest
                    exact .added free

/-- What `UnregisterConnection` can do. -/
inductive UnregisterEffect (sessionID connectionID : Bytes) (state : State) :
    Log → Except Bytes Unit → State → Prop
  | failed (error : Bytes) :
      UnregisterEffect sessionID connectionID state
        [⟨.hDel (connKey sessionID) connectionID, .error error⟩] (.error error) state
  | removed :
      UnregisterEffect sessionID connectionID state
        [⟨.hDel (connKey sessionID) connectionID, .ok ()⟩] (.ok ())
        (state.setHash (connKey sessionID)
          ((state.hashes (connKey sessionID)).del connectionID))

theorem unregisterConnection_executes {sessionID connectionID : Bytes} {state after : State}
    {log : Log} {result : Except Bytes Unit}
    (executes : Executes exec (Manager.unregisterConnection sessionID connectionID) state log result
      after) : UnregisterEffect sessionID connectionID state log result after := by
  obtain ⟨rfl, choice, executed⟩ := Executes.issue_inv executes
  obtain rfl := exec_hDel executed
  cases result with
  | error error => exact .failed error
  | ok _ => exact .removed

/-! ### Transitions -/

/-- Redis after `Delete`, by the replies to its three commands. -/
def State.afterDelete (state : State) (sessionID userID : Bytes)
    (record connections member : Except Bytes Unit) : State :=
  onSuccess member (fun state => state.removeMember (userSessionsKey userID) (hexEncode sessionID))
    (onSuccess connections (fun state => state.setHash (connKey sessionID) [])
      (onSuccess record (fun state => state.setHash (sessionKey sessionID) []) state))

section AfterDelete

variable (state : State) (sessionID userID : Bytes) (record connections member : Except Bytes Unit)

theorem State.afterDelete_hashes {key : Bytes} (different : key ≠ connKey sessionID) :
    (state.afterDelete sessionID userID record connections member).hashes key =
      (onSuccess record (fun state => state.setHash (sessionKey sessionID) []) state).hashes key := by
  cases member <;> cases connections
  all_goals simp [State.afterDelete, onSuccess, State.removeMember, State.setMembers,
    State.setHash, different]

/-- The record is gone when its `DEL` worked. -/
theorem State.afterDelete_self (value : Unit) :
    (state.afterDelete sessionID userID (.ok value) connections member).hashes
      (sessionKey sessionID) = [] := by
  rw [State.afterDelete_hashes _ _ _ _ _ _ (connKey_ne_sessionKey _ _).symm, onSuccess,
    State.setHash_hashes, if_pos rfl]

theorem State.afterDelete_failed (error : Bytes) (other : Bytes) :
    (state.afterDelete sessionID userID (.error error) connections member).hashes
      (sessionKey other) = state.hashes (sessionKey other) :=
  State.afterDelete_hashes _ _ _ _ _ _ (connKey_ne_sessionKey _ _).symm

theorem State.afterDelete_of_ne {other : Bytes} (different : other ≠ sessionID) :
    (state.afterDelete sessionID userID record connections member).hashes (sessionKey other) =
      state.hashes (sessionKey other) := by
  rw [State.afterDelete_hashes _ _ _ _ _ _ (connKey_ne_sessionKey _ _).symm]
  cases record with
  | error error => rfl
  | ok _ => rw [onSuccess, State.setHash_hashes, if_neg (sessionKey_injective.ne different)]

theorem State.afterDelete_pg :
    (state.afterDelete sessionID userID record connections member).pg = state.pg := by
  cases member <;> cases connections <;> cases record <;> rfl

theorem State.mem_afterDelete (key present : Bytes) :
    present ∈ (state.afterDelete sessionID userID record connections member).sets key ↔
      present ∈ state.sets key ∧
        ¬(member = .ok () ∧ key = userSessionsKey userID ∧ present = hexEncode sessionID) := by
  cases member <;> cases connections <;> cases record
  all_goals simp [State.afterDelete, onSuccess, State.mem_removeMember, State.setHash]

end AfterDelete

/-- The commands of `Delete` that write. -/
def deleteLog (sessionID userID : Bytes) (record connections member : Except Bytes Unit) : Log :=
  [⟨.del (sessionKey sessionID), record⟩, ⟨.del (connKey sessionID), connections⟩,
    ⟨.sRem (userSessionsKey userID) (hexEncode sessionID), member⟩]

theorem delete_executes {decodeConn : DecodeConn} {sessionID : Bytes} {state after : State}
    {log : Log} {result : Except Bytes Unit}
    (executes : Executes exec (RedisStore.delete decodeConn sessionID) state log result after) :
    (after = state ∧ Quiet log ∧ ∃ error, result = .error error) ∨
      ∃ reads session record connections member, Quiet reads ∧ Stored state sessionID session ∧
        log = reads ++ deleteLog sessionID session.userID record connections member ∧
        result = firstError [record, connections, member] ∧
        after = state.afterDelete sessionID session.userID record connections member := by
  unfold RedisStore.delete at executes
  obtain ⟨found, middle, early, late, rfl, first, second⟩ := executes.bind_inv
  obtain ⟨rfl, quiet, stored⟩ := get_executes first
  cases found with
  | error error =>
      cases second
      exact .inl ⟨rfl, quiet.append quiet_nil, error, rfl⟩
  | ok session =>
      simp only [Program.issue_bind] at second
      cases second with
      | @call _ _ _ _ _ _ record _ _ recordDone rest =>
          cases rest with
          | @call _ _ _ _ _ _ connections _ _ connectionsDone rest =>
              cases rest with
              | @call _ _ _ _ _ _ member _ _ memberDone rest =>
                  cases rest
                  obtain rfl := exec_del recordDone
                  obtain rfl := exec_del connectionsDone
                  obtain rfl := exec_sRem memberDone
                  exact .inr ⟨early, session, record, connections, member, quiet,
                    stored session rfl, rfl, rfl, rfl⟩

/-- The PostgreSQL deletion at the end of a call. -/
inductive DeleteTail (sessionID : Bytes) (rows : List Row) : Bool → Log → List Row → Prop
  | absent : DeleteTail sessionID rows false [] rows
  | failed (error : Bytes) :
      DeleteTail sessionID rows true [⟨.pgDelete sessionID, .error error⟩] rows
  | done :
      DeleteTail sessionID rows true [⟨.pgDelete sessionID, .ok ()⟩]
        (PGStore.delete rows sessionID)

/-- The PostgreSQL update of a status at the end of a call. -/
inductive StatusTail (sessionID : Bytes) (status : Status) (rows : List Row) :
    Bool → Log → List Row → Prop
  | absent : StatusTail sessionID status rows false [] rows
  | failed (error : Bytes) :
      StatusTail sessionID status rows true [⟨.pgUpdateStatus sessionID status, .error error⟩] rows
  | done (checked : status.isNamed = true) (now : Time) :
      StatusTail sessionID status rows true [⟨.pgUpdateStatus sessionID status, .ok ()⟩]
        (statusRows rows sessionID status checked now)

/-- The refresh of `last_active` after a packet. -/
inductive TouchTail (sessionID : Bytes) (hash : Hash) : Bool → Log → Hash → Prop
  | absent : TouchTail sessionID hash false [] hash
  | failed (now : Int) (error : Bytes) (expire : Except Bytes Unit) :
      TouchTail sessionID hash true
        [⟨.now, now⟩,
          ⟨.hSet (sessionKey sessionID) (utf8 "last_active") (decimalInt now), .error error⟩,
          ⟨.expire (sessionKey sessionID), expire⟩] hash
  | done (now : Int) (expire : Except Bytes Unit) :
      TouchTail sessionID hash true
        [⟨.now, now⟩, ⟨.hSet (sessionKey sessionID) (utf8 "last_active") (decimalInt now), .ok ()⟩,
          ⟨.expire (sessionKey sessionID), expire⟩]
        (hash.set (utf8 "last_active") (decimalInt now))

section Tails

variable {sessionID : Bytes} {tail : Log} {entry : Executed Command Reply}

theorem DeleteTail.mem {rows changed : List Row} {pg : Bool}
    (durable : DeleteTail sessionID rows pg tail changed) (member : entry ∈ tail) :
    entry.1 = .pgDelete sessionID := by
  cases durable with
  | absent => exact absurd member List.not_mem_nil
  | _ => rw [List.mem_singleton.mp member]

theorem StatusTail.mem {status : Status} {rows changed : List Row} {pg : Bool}
    (durable : StatusTail sessionID status rows pg tail changed) (member : entry ∈ tail) :
    entry.1 = .pgUpdateStatus sessionID status := by
  cases durable with
  | absent => exact absurd member List.not_mem_nil
  | _ => rw [List.mem_singleton.mp member]

theorem TouchTail.mem {hash changed : Hash} {isPacket : Bool}
    (touched : TouchTail sessionID hash isPacket tail changed) (member : entry ∈ tail) :
    entry.1 = .now ∨ (∃ value, entry.1 = .hSet (sessionKey sessionID) (utf8 "last_active") value) ∨
      entry.1 = .expire (sessionKey sessionID) := by
  cases touched with
  | absent => exact absurd member List.not_mem_nil
  | _ =>
      simp only [List.mem_cons, List.not_mem_nil, or_false] at member
      rcases member with rfl | rfl | rfl
      · exact .inl rfl
      · exact .inr (.inl ⟨_, rfl⟩)
      · exact .inr (.inr rfl)

end Tails

/-- What `TransitionSession` can do. -/
inductive TransitionEffect (pg : Bool) (sessionID : Bytes) (event : Event) (state : State) :
    Log → Except TransitionSessionError (Option Session) → State → Prop
  | refused (log : Log) (quiet : Quiet log) (error : TransitionSessionError) :
      TransitionEffect pg sessionID event state log (.error error) state
  | deleteFailed (reads : Log) (quiet : Quiet reads) (session : Session)
      (stored : Stored state sessionID session) (result : TransitionResult)
      (allowed : transition session.status event = .ok result)
      (isDestroyed : result.destroyed = true)
      (record connections member : Except Bytes Unit) (error : Bytes)
      (failed : firstError [record, connections, member] = .error error) :
      TransitionEffect pg sessionID event state
        (reads ++ deleteLog sessionID session.userID record connections member)
        (.error (.store (utf8 "delete session: " ++ error)))
        (state.afterDelete sessionID session.userID record connections member)
  | destroyed (reads : Log) (quiet : Quiet reads) (session : Session)
      (stored : Stored state sessionID session) (result : TransitionResult)
      (allowed : transition session.status event = .ok result)
      (isDestroyed : result.destroyed = true) (tail : Log) (rows : List Row)
      (durable : DeleteTail sessionID state.pg pg tail rows) :
      TransitionEffect pg sessionID event state
        (reads ++ deleteLog sessionID session.userID (.ok ()) (.ok ()) (.ok ()) ++ tail)
        (.ok none)
        { state.afterDelete sessionID session.userID (.ok ()) (.ok ()) (.ok ()) with pg := rows }
  | moved (reads : Log) (quiet : Quiet reads) (session : Session)
      (stored : Stored state sessionID session) (next : Status)
      (allowed : transition session.status event = .ok { next := next })
      (touch : Log) (hash : Hash)
      (touched : TouchTail sessionID
        ((state.hashes (sessionKey sessionID)).set statusField next.text)
        (decide (event = .packetReceived)) touch hash)
      (tail : Log) (rows : List Row) (durable : StatusTail sessionID next state.pg pg tail rows) :
      TransitionEffect pg sessionID event state
        (reads ++ ⟨.hSet (sessionKey sessionID) statusField next.text, .ok ()⟩ :: touch ++ tail)
        (.ok (some { session with status := next }))
        { state.setHash (sessionKey sessionID) hash with pg := rows }

theorem firstError_ok {replies : List (Except Bytes Unit)} {value : Unit}
    (noError : firstError replies = .ok value) : ∀ reply ∈ replies, reply = .ok () := by
  induction replies with
  | nil => exact fun _ member => absurd member List.not_mem_nil
  | cons first rest inductionHypothesis =>
      cases first with
      | error error => cases noError
      | ok _ =>
          intro reply member
          rcases List.mem_cons.mp member with rfl | member
          · rfl
          · exact inductionHypothesis noError reply member

theorem State.setHash_setHash (state : State) (key : Bytes) (first second : Hash) :
    (state.setHash key first).setHash key second = state.setHash key second := by
  unfold State.setHash
  congr 1
  funext other
  by_cases same : other = key <;> simp [same]

theorem updateLastActive_executes {sessionID : Bytes} {state after : State} {hash : Hash}
    {log : Log} {result : Except Bytes Unit}
    (executes : Executes exec (RedisStore.updateLastActive sessionID)
      (state.setHash (sessionKey sessionID) hash) log result after) :
    ∃ changed, TouchTail sessionID hash true log changed ∧
      after = state.setHash (sessionKey sessionID) changed := by
  unfold RedisStore.updateLastActive at executes
  simp only [Program.issue_bind] at executes
  cases executes with
  | @call _ _ _ _ _ _ now _ _ clock rest =>
      cases rest with
      | @call _ _ _ _ _ _ set _ _ setDone rest =>
          cases rest with
          | @call _ _ _ _ _ _ expire _ _ expireDone rest =>
              cases rest
              obtain rfl := exec_now clock
              obtain rfl := exec_hSet setDone
              obtain rfl := exec_expire expireDone
              cases set with
              | error error => exact ⟨hash, .failed now error expire, rfl⟩
              | ok _ =>
                  refine ⟨_, .done now expire, ?_⟩
                  rw [onSuccess, State.setHash_setHash, State.setHash_hashes, if_pos rfl]
                  rfl

theorem named_of_transition {current : Status} {event : Event} {next : Status}
    (allowed : transition current event = .ok { next := next }) : next.isNamed = true := by
  rcases (transition_ok allowed).2 rfl with same | same | same <;>
    (rw [show next = _ from same]; rfl)

theorem statusTail_executes {pg : Bool} {sessionID : Bytes} {next : Status}
    (checked : next.isNamed = true) {state after : State} {log : Log}
    {returned result : Except TransitionSessionError (Option Session)}
    (executes : Executes exec
      (if pg then do
        let _ ← (Program.issue (Command.pgUpdateStatus sessionID next) : Code (Except Bytes Unit))
        return returned
      else return returned) state log result after) :
    result = returned ∧
      ∃ rows, StatusTail sessionID next state.pg pg log rows ∧ after = { state with pg := rows } := by
  cases pg with
  | false =>
      cases executes
      exact ⟨rfl, _, .absent, rfl⟩
  | true =>
      cases executes with
      | @call _ _ _ _ _ _ reply _ _ updateDone rest =>
          obtain ⟨now, rfl⟩ := exec_pgUpdateStatus checked updateDone
          cases rest
          cases reply with
          | error error => exact ⟨rfl, _, .failed error, rfl⟩
          | ok _ => exact ⟨rfl, _, .done checked now, rfl⟩

theorem deleteTail_executes {pg : Bool} {sessionID : Bytes} {state after : State} {log : Log}
    {returned result : Except TransitionSessionError (Option Session)}
    (executes : Executes exec
      (if pg then do
        let _ ← (Program.issue (Command.pgDelete sessionID) : Code (Except Bytes Unit))
        return returned
      else return returned) state log result after) :
    result = returned ∧
      ∃ rows, DeleteTail sessionID state.pg pg log rows ∧ after = { state with pg := rows } := by
  cases pg with
  | false =>
      cases executes
      exact ⟨rfl, _, .absent, rfl⟩
  | true =>
      cases executes with
      | @call _ _ _ _ _ _ reply _ _ deleteDone rest =>
          obtain rfl := exec_pgDelete deleteDone
          cases rest
          cases reply with
          | error error => exact ⟨rfl, _, .failed error, rfl⟩
          | ok _ => exact ⟨rfl, _, .done, rfl⟩

section Transition

variable {pg : Bool} {sessionID : Bytes} {event : Event} {state after : State} {reads log : Log}
  {result : Except TransitionSessionError (Option Session)} {session : Session}

/-- The part of `TransitionSession` that ends a session. -/
theorem destroy_executes {decodeConn : DecodeConn} {outcome : TransitionResult}
    (quiet : Quiet reads) (stored : Stored state sessionID session)
    (allowed : transition session.status event = .ok outcome)
    (isDestroyed : outcome.destroyed = true)
    (executes : Executes exec
      (do
        match ← RedisStore.delete decodeConn sessionID with
        | .error error => return .error (.store (utf8 "delete session: " ++ error))
        | .ok _ =>
            if pg then
              let _ ← (Program.issue (Command.pgDelete sessionID) : Code (Except Bytes Unit))
            return .ok none) state log result after) :
    TransitionEffect pg sessionID event state (reads ++ log) result after := by
  obtain ⟨deleted, middle, removal, late, rfl, delete, rest⟩ := executes.bind_inv
  rcases delete_executes delete with
    ⟨rfl, quietDelete, error, rfl⟩ |
    ⟨again, session, record, connections, member, quietAgain, storedAgain, rfl, rfl, rfl⟩
  · cases rest
    exact .refused _ (quiet.append (quietDelete.append quiet_nil)) _
  · -- `Delete` reads the record again; in an uninterrupted call it finds the same status.
    rw [stored.status_eq storedAgain] at allowed
    have quietReads := quiet.append quietAgain
    rw [← List.append_assoc, ← List.append_assoc]
    cases failed : firstError [record, connections, member] with
    | error error =>
        rw [failed] at rest
        cases rest
        rw [List.append_nil]
        exact .deleteFailed _ quietReads session storedAgain outcome allowed isDestroyed record
          connections member error failed
    | ok _ =>
        rw [failed] at rest
        have replies := firstError_ok failed
        obtain rfl := replies record (by simp)
        obtain rfl := replies connections (by simp)
        obtain rfl := replies member (by simp)
        obtain ⟨rfl, rows, durable, rfl⟩ := deleteTail_executes rest
        exact .destroyed _ quietReads session storedAgain outcome allowed isDestroyed _ rows
          durable

/-- The part of `TransitionSession` that stores the new status. -/
theorem move_executes {next : Status} (quiet : Quiet reads)
    (stored : Stored state sessionID session)
    (allowed : transition session.status event = .ok { next := next })
    (executes : Executes exec
      (do
        match ← RedisStore.updateStatus sessionID next with
        | .error error => return .error (.store (utf8 "redis update status: " ++ error))
        | .ok _ =>
            if event = .packetReceived then
              let _ ← RedisStore.updateLastActive sessionID
            if pg then
              let _ ← (Program.issue (Command.pgUpdateStatus sessionID next) :
                Code (Except Bytes Unit))
            return .ok (some { session with status := next })) state log result after) :
    TransitionEffect pg sessionID event state (reads ++ log) result after := by
  rw [RedisStore.updateStatus, Program.issue_bind] at executes
  cases executes with
  | @call _ _ _ _ _ _ reply _ _ setDone rest =>
      obtain rfl := exec_hSet setDone
      cases reply with
      | error error =>
          cases rest
          exact .refused _ (quiet.append (quiet_cons rfl quiet_nil)) _
      | ok _ =>
          have checked := named_of_transition allowed
          dsimp only at rest
          split at rest
          · next isPacket =>
            obtain ⟨_, middle, touch, tail, rfl, touchDone, rest⟩ := rest.bind_inv
            obtain ⟨hash, touched, rfl⟩ := updateLastActive_executes touchDone
            obtain ⟨rfl, rows, durable, rfl⟩ := statusTail_executes checked rest
            rw [← List.cons_append, ← List.append_assoc]
            refine .moved _ quiet session stored next allowed touch hash ?_ tail rows durable
            rw [decide_eq_true isPacket]
            exact touched
          · next isOther =>
            obtain ⟨rfl, rows, durable, rfl⟩ := statusTail_executes checked rest
            rw [List.append_cons]
            refine .moved _ quiet session stored next allowed [] _ ?_ _ rows durable
            rw [decide_eq_false isOther]
            exact .absent

theorem transitionSession_executes {decodeConn : DecodeConn}
    (executes : Executes exec (transitionSession decodeConn pg sessionID event) state log result
      after) : TransitionEffect pg sessionID event state log result after := by
  unfold transitionSession at executes
  obtain ⟨found, middle, early, late, rfl, first, second⟩ := executes.bind_inv
  obtain ⟨rfl, quiet, stored⟩ := get_executes first
  cases found with
  | error error =>
      cases second
      exact .refused _ (quiet.append quiet_nil) _
  | ok session =>
      dsimp only at second
      cases allowed : transition session.status event with
      | error error =>
          rw [allowed] at second
          cases second
          exact .refused _ (quiet.append quiet_nil) _
      | ok outcome =>
          rw [allowed] at second
          dsimp only at second
          split at second
          · next isDestroyed =>
            exact destroy_executes quiet (stored session rfl) allowed isDestroyed second
          · next kept =>
            obtain ⟨next, destroyed⟩ := outcome
            obtain rfl : destroyed = false := Bool.eq_false_iff.mpr kept
            exact move_executes quiet (stored session rfl) allowed second

end Transition

/-! ### Calls -/

/-- `GetSession` reads Redis, or PostgreSQL when Redis gives no session. -/
theorem getSession_executes {manager : Manager} {sessionID : Bytes} {state after : State}
    {log : Log} {result : Except Bytes Session}
    (executes : Executes exec (manager.getSession sessionID) state log result after) :
    after = state ∧ Quiet log ∧ ∀ session, result = .ok session →
      Stored state sessionID session ∨
        ∃ row, PGStore.find state.pg sessionID = some row ∧ session = row.toSession := by
  unfold Manager.getSession at executes
  obtain ⟨found, middle, early, late, rfl, first, second⟩ := executes.bind_inv
  obtain ⟨rfl, quiet, stored⟩ := get_executes first
  cases found with
  | ok session =>
      cases second
      refine ⟨rfl, quiet.append quiet_nil, fun _ same => .inl ?_⟩
      exact Except.ok.inj same ▸ stored session rfl
  | error error =>
      dsimp only at second
      split at second
      · rw [PGStore.get, Program.issue_bind] at second
        cases second with
        | @call _ _ _ _ _ _ reply _ _ selectDone rest =>
            obtain ⟨rfl, selected⟩ := exec_pgGet selectDone
            rcases reply with error | _ | row
            · cases rest
              exact ⟨rfl, quiet.append (quiet_cons rfl quiet_nil), nofun⟩
            · cases rest
              exact ⟨rfl, quiet.append (quiet_cons rfl quiet_nil), nofun⟩
            · cases rest
              refine ⟨rfl, quiet.append (quiet_cons rfl quiet_nil), fun session same => .inr ?_⟩
              exact ⟨row, (selected _ rfl).symm, (Except.ok.inj same).symm⟩
      · cases second
        exact ⟨rfl, quiet.append quiet_nil, nofun⟩

theorem getUserSessions_executes {userID : Bytes} {state after : State} {log : Log}
    {result : Except Bytes (List Bytes)}
    (executes : Executes exec (Manager.getUserSessions userID) state log result after) :
    after = state ∧ Quiet log := by
  rw [Manager.getUserSessions, RedisStore.getUserSessions, Program.issue_bind] at executes
  cases executes with
  | @call _ _ _ _ _ _ reply _ _ executed rest =>
      obtain ⟨rfl, -⟩ := exec_sMembers executed
      cases reply with
      | error error =>
          cases rest
          exact ⟨rfl, quiet_cons rfl quiet_nil⟩
      | ok members =>
          cases rest
          exact ⟨rfl, quiet_cons rfl quiet_nil⟩

/-- What a call can do. -/
inductive CallEffect (manager : Manager) (state : State) :
    ManagerCall → Log → Outcome → State → Prop
  | createSession {userID deviceID : Slice} {log : Log} {result : Except Bytes NewSession}
      {after : State} (effect : CreateEffect manager userID deviceID state log result after) :
      CallEffect manager state (.createSession userID deviceID) log (.created result) after
  | getSession (sessionID : Bytes) {log : Log} (quiet : Quiet log) (result : Except Bytes Session) :
      CallEffect manager state (.getSession sessionID) log (.fetched result) state
  | transitionSession {sessionID : Bytes} {event : Event} {log : Log}
      {result : Except TransitionSessionError (Option Session)} {after : State}
      (effect : TransitionEffect manager.pg sessionID event state log result after) :
      CallEffect manager state (.transitionSession sessionID event) log (.transitioned result) after
  | updateCryptoState {sessionID : Bytes} {cryptoState : Slice} {log : Log}
      {result : Except Bytes Unit} {after : State}
      (effect : CryptoEffect manager sessionID cryptoState state log result after) :
      CallEffect manager state (.updateCryptoState sessionID cryptoState) log (.updated result) after
  | registerConnection {sessionID : Bytes} {conn : NewConnection} {log : Log} {count : Nat}
      {result : Except Bytes Unit} {after : State}
      (effect : RegisterEffect manager sessionID conn state log (count, result) after) :
      CallEffect manager state (.registerConnection sessionID conn) log (.registered count result)
        after
  | unregisterConnection {sessionID connectionID : Bytes} {log : Log} {result : Except Bytes Unit}
      {after : State} (effect : UnregisterEffect sessionID connectionID state log result after) :
      CallEffect manager state (.unregisterConnection sessionID connectionID) log (.updated result)
        after
  | getUserSessions (userID : Bytes) {log : Log} (quiet : Quiet log)
      (result : Except Bytes (List Bytes)) :
      CallEffect manager state (.getUserSessions userID) log (.listed result) state

/-- **One call.** -/
theorem code_executes {manager : Manager} {call : ManagerCall} {state after : State} {log : Log}
    {outcome : Outcome} (executes : Executes exec (manager.code call) state log outcome after) :
    CallEffect manager state call log outcome after := by
  have returned : ∀ {Value : Type} {program : Code Value} {wrap : Value → Outcome},
      Executes exec (program >>= fun value => return wrap value) state log outcome after →
      ∃ value, outcome = wrap value ∧ Executes exec program state log value after := by
    intro Value program wrap executes
    obtain ⟨value, middle, early, late, rfl, first, second⟩ := executes.bind_inv
    cases second
    rw [List.append_nil]
    exact ⟨value, rfl, first⟩
  cases call with
  | createSession userID deviceID =>
      obtain ⟨result, rfl, first⟩ := returned executes
      exact .createSession (createSession_executes first)
  | getSession sessionID =>
      obtain ⟨result, rfl, first⟩ := returned executes
      obtain ⟨rfl, quiet, -⟩ := getSession_executes first
      exact .getSession sessionID quiet result
  | transitionSession sessionID event =>
      obtain ⟨result, rfl, first⟩ := returned executes
      exact .transitionSession (transitionSession_executes first)
  | updateCryptoState sessionID cryptoState =>
      obtain ⟨result, rfl, first⟩ := returned executes
      exact .updateCryptoState (updateCryptoState_executes first)
  | registerConnection sessionID conn =>
      obtain ⟨⟨count, result⟩, rfl, first⟩ := returned executes
      exact .registerConnection (registerConnection_executes first)
  | unregisterConnection sessionID connectionID =>
      obtain ⟨result, rfl, first⟩ := returned executes
      exact .unregisterConnection (unregisterConnection_executes first)
  | getUserSessions userID =>
      obtain ⟨result, rfl, first⟩ := returned executes
      obtain ⟨rfl, quiet⟩ := getUserSessions_executes first
      exact .getUserSessions userID quiet result

/-- A call that is one event of a run. -/
theorem Manager.next_call {manager : Manager} {ledger after : Ledger} {call : ManagerCall}
    {choices : List Choice} (stepped : manager.next ledger (.call call choices) = some after) :
    ∃ outcome,
      (manager.code call).run exec choices ledger.state = some (outcome, after.state) ∧
      after.log = ledger.log ++ (manager.code call).log exec choices ledger.state ∧
      after.outcomes = ledger.outcomes ++ [(call, outcome)] := by
  simp only [Manager.next] at stepped
  split at stepped
  · cases stepped
  · next outcome state ran =>
    obtain rfl := Option.some.inj stepped
    exact ⟨outcome, ran, rfl, rfl⟩

/-- One event of calls that are made one after the other. -/
theorem Manager.next_cases {manager : Manager} {ledger after : Ledger} {event : SerialEvent}
    (stepped : manager.next ledger event = some after) :
    (∃ call choices outcome late, event = .call call choices ∧
      (manager.code call).run exec choices ledger.state = some (outcome, after.state) ∧
      CallEffect manager ledger.state call late outcome after.state ∧
      after.log = ledger.log ++ late ∧ after.outcomes = ledger.outcomes ++ [(call, outcome)]) ∨
    ∃ sessionID, event = .lapse sessionID ∧
      after.state = ledger.state.setHash (sessionKey sessionID) [] ∧
      after.log = ledger.log ++ [⟨.lapse (sessionKey sessionID), ()⟩] ∧
      after.outcomes = ledger.outcomes := by
  cases event with
  | call call choices =>
      obtain ⟨outcome, ran, log, outcomes⟩ := Manager.next_call stepped
      exact .inl ⟨call, choices, outcome, _, rfl, ran, code_executes (executes_of_run ran), log,
        outcomes⟩
  | lapse sessionID =>
      obtain rfl := Option.some.inj stepped
      exact .inr ⟨sessionID, rfl, rfl, rfl, rfl⟩

end FProto.Sessions

import FProto.Foundation.Guarantee
import FProto.Sessions.Effects

/-!
Owns concurrent calls of a session manager: any number of calls whose commands
interleave in any order, and keys that lapse at any moment.

The guarantee of a call says what its own earlier commands and their replies
were when it writes to a hash. Results about interleavings use the guarantee
and do not take the programs apart again.
-/

namespace FProto.Sessions

open FProto.Foundation
open RedisStore (statusField createFields)

/-! ### The system -/

/-- A call, or the end of a key's time to live. -/
inductive ManagerTask where
  | call (call : ManagerCall)
  | lapse (key : Bytes)

def Manager.task (manager : Manager) : ManagerTask → Code Outcome
  | .call call => manager.code call
  | .lapse key => do
      let _ ← (Program.issue (Command.lapse key) : Code Unit)
      return .updated (.ok ())

def Manager.system (manager : Manager) :
    System Command Reply Outcome State Choice ManagerTask where
  exec := exec
  code := manager.task
  admits _ _ := true

abbrev ManagerPool := Pool Command Reply Outcome State ManagerTask

/-! ### The guarantee -/

/-- The command sets no field of a hash. -/
def setsNoField : Command → Bool
  | .hSet _ _ _ => false
  | .hSetFields _ _ => false
  | _ => true

/-- What a call did before it sets a field. -/
inductive Allows (manager : Manager) : ManagerTask → Log → Command → Prop
  | free (task : ManagerTask) (past : Log) (command : Command) (free : setsNoField command = true) :
      Allows manager task past command
  | record (userID deviceID : Slice) (past : Log) (session : NewSession)
      (connecting : session.status = .connecting)
      (drawn : ⟨.rand, .ok session.sessionID⟩ ∈ past)
      (first : ∀ entry ∈ past, ∀ key fields, entry.1 ≠ .hSetFields key fields) :
      Allows manager (.call (.createSession userID deviceID)) past
        (.hSetFields (sessionKey session.sessionID) (createFields session))
  | status (sessionID : Bytes) (event : Event) (past : Log) (vals : Hash) (next : Status)
      (read : ⟨.hGetAll (sessionKey sessionID), .ok vals⟩ ∈ past)
      (allowed : transition (Status.ofText (vals.field "status")) event = .ok { next := next }) :
      Allows manager (.call (.transitionSession sessionID event)) past
        (.hSet (sessionKey sessionID) statusField next.text)
  | lastActive (sessionID : Bytes) (event : Event) (past : Log) (value : Bytes) :
      Allows manager (.call (.transitionSession sessionID event)) past
        (.hSet (sessionKey sessionID) (utf8 "last_active") value)
  | crypto (sessionID : Bytes) (cryptoState : Slice) (past : Log) :
      Allows manager (.call (.updateCryptoState sessionID cryptoState)) past
        (.hSet (sessionKey sessionID) cryptoField (hexEncode cryptoState.bytes))
  | connection (sessionID : Bytes) (conn : NewConnection) (vals : Hash)
      (free : ¬manager.config.maxConnections ≤ (decodedConnections vals).length) :
      Allows manager (.call (.registerConnection sessionID conn))
        [⟨.hGetAll (connKey sessionID), .ok vals⟩]
        (.hSet (connKey sessionID) conn.connectionID conn.toConnJSON.marshal)

section Inversion

variable {manager : Manager} {task : ManagerTask} {past : Log}

/-- A status is stored by a transition from the status that the call read. -/
theorem Allows.status_inv {sessionID text : Bytes}
    (allowed : Allows manager task past (.hSet (sessionKey sessionID) statusField text)) :
    ∃ event vals next, task = .call (.transitionSession sessionID event) ∧
      ⟨.hGetAll (sessionKey sessionID), .ok vals⟩ ∈ past ∧
      transition (Status.ofText (vals.field "status")) event = .ok { next := next } ∧
      text = next.text := by
  generalize isCommand : Command.hSet (sessionKey sessionID) statusField text = command at allowed
  cases allowed with
  | free _ _ _ free => subst isCommand; cases free
  | record userID deviceID _ session => cases isCommand
  | status otherID event _ vals next read transitions =>
      injection isCommand with sameKey _ sameText
      obtain rfl := sessionKey_injective sameKey
      exact ⟨event, vals, next, rfl, read, transitions, sameText⟩
  | lastActive otherID event _ value =>
      injection isCommand with _ sameField
      exact absurd sameField (by decide)
  | crypto otherID cryptoState _ =>
      injection isCommand with _ sameField
      exact absurd sameField (by decide)
  | connection otherID conn vals free =>
      injection isCommand with sameKey
      exact absurd sameKey.symm (connKey_ne_sessionKey _ _)

/-- A whole record is stored by the call that drew its identifier, once. -/
theorem Allows.record_inv {key : Bytes} {fields : List (Bytes × Bytes)}
    (allowed : Allows manager task past (.hSetFields key fields)) :
    ∃ session : NewSession, key = sessionKey session.sessionID ∧ fields = createFields session ∧
      session.status = .connecting ∧ ⟨.rand, .ok session.sessionID⟩ ∈ past ∧
      ∀ entry ∈ past, ∀ key fields, entry.1 ≠ .hSetFields key fields := by
  cases allowed with
  | free _ _ _ free => cases free
  | record userID deviceID _ session connecting drawn first =>
      exact ⟨session, rfl, rfl, connecting, drawn, first⟩

/-- A connection is stored by the call that registers it, right after it found a
free place. -/
theorem Allows.connection_inv {sessionID field value : Bytes}
    (allowed : Allows manager task past (.hSet (connKey sessionID) field value)) :
    ∃ (conn : NewConnection) (vals : Hash), task = .call (.registerConnection sessionID conn) ∧
      past = [⟨.hGetAll (connKey sessionID), .ok vals⟩] ∧
      ¬manager.config.maxConnections ≤ (decodedConnections vals).length ∧
      field = conn.connectionID ∧ value = conn.toConnJSON.marshal := by
  generalize isCommand : Command.hSet (connKey sessionID) field value = command at allowed
  cases allowed with
  | free _ _ _ free => subst isCommand; cases free
  | record userID deviceID _ session => cases isCommand
  | status otherID event _ vals next =>
      injection isCommand with sameKey
      exact absurd sameKey (connKey_ne_sessionKey _ _)
  | lastActive otherID event _ value =>
      injection isCommand with sameKey
      exact absurd sameKey (connKey_ne_sessionKey _ _)
  | crypto otherID cryptoState _ =>
      injection isCommand with sameKey
      exact absurd sameKey (connKey_ne_sessionKey _ _)
  | connection otherID conn vals free =>
      injection isCommand with sameKey sameField sameValue
      obtain rfl := connKey_injective sameKey
      exact ⟨conn, vals, rfl, rfl, free, sameField, sameValue⟩

end Inversion

section Programs

variable {manager : Manager} {task : ManagerTask} {past : Log} {Value : Type}
  {post : Value → Log → Prop}

/-- A command that sets no field. -/
theorem obeys_free {command : Command} {next : Reply command → Code Value}
    (following : ∀ reply, (next reply).Obeys (Allows manager task) post
      (past ++ [⟨command, reply⟩]))
    (free : setsNoField command = true := by rfl) :
    (Program.call command next).Obeys (Allows manager task) post past :=
  ⟨.free task past command free, following⟩

theorem getConnections_obeys (sessionID : Bytes) :
    (RedisStore.getConnections ConnJSON.unmarshal sessionID).Obeys (Allows manager task)
      (fun result after => ∃ reply, after = past ++ [⟨.hGetAll (connKey sessionID), reply⟩] ∧
        result = reply.map decodedConnections) past := by
  refine obeys_free fun reply => ?_
  cases reply with
  | error error => exact ⟨_, rfl, rfl⟩
  | ok vals => exact ⟨_, rfl, rfl⟩

/-- A session that `Get` returned was read. -/
theorem get_obeys (sessionID : Bytes) :
    (RedisStore.get ConnJSON.unmarshal sessionID).Obeys (Allows manager task)
      (fun result after => past <+: after ∧ ∀ session, result = .ok session →
        ∃ vals, ⟨.hGetAll (sessionKey sessionID), .ok vals⟩ ∈ after ∧
          session.status = Status.ofText (vals.field "status")) past := by
  refine obeys_free fun reply => ?_
  cases reply with
  | error error => exact ⟨List.prefix_append _ _, fun _ impossible => by cases impossible⟩
  | ok vals =>
      show Program.Obeys _ _ (if vals = [] then _ else _) _
      split
      · exact ⟨List.prefix_append _ _, fun _ impossible => by cases impossible⟩
      · refine (getConnections_obeys sessionID).bind fun result after known => ?_
        obtain ⟨reply, rfl, -⟩ := known
        have grown : past <+: past ++ [⟨.hGetAll (sessionKey sessionID), .ok vals⟩] ++
            [⟨.hGetAll (connKey sessionID), reply⟩] := by
          rw [List.append_assoc]
          exact List.prefix_append _ _
        cases result with
        | error error =>
            refine ⟨grown, fun session isSession => ⟨vals, by simp, ?_⟩⟩
            obtain rfl := Except.ok.inj isSession
            rfl
        | ok connections =>
            refine ⟨grown, fun session isSession => ⟨vals, by simp, ?_⟩⟩
            obtain rfl := Except.ok.inj isSession
            rfl

theorem delete_obeys (sessionID : Bytes) :
    (RedisStore.delete ConnJSON.unmarshal sessionID).Obeys (Allows manager task)
      (fun _ _ => True) past := by
  refine (get_obeys sessionID).bind fun result after _ => ?_
  cases result with
  | error error => trivial
  | ok session =>
      exact obeys_free fun _ => obeys_free fun _ => obeys_free fun _ => trivial

/-- The durable store is told at the end, if there is one. -/
theorem recorded_obeys (pg : Bool) {command : Command} (result : Value)
    (free : setsNoField command = true) :
    (if pg then do
      let _ ← (Program.issue command : Code (Reply command))
      return result
    else return result : Code Value).Obeys (Allows manager task) (fun _ _ => True) past := by
  cases pg with
  | false => trivial
  | true => exact obeys_free (fun _ => trivial) free

theorem transitionSession_obeys (sessionID : Bytes) (event : Event) :
    (transitionSession ConnJSON.unmarshal manager.pg sessionID event).Obeys
      (Allows manager (.call (.transitionSession sessionID event))) (fun _ _ => True) past := by
  refine (get_obeys sessionID).bind fun result read known => ?_
  obtain ⟨-, known⟩ := known
  cases result with
  | error error => trivial
  | ok session =>
      obtain ⟨vals, member, status⟩ := known session rfl
      dsimp only
      split
      · trivial
      · next outcome allowed =>
        rw [status] at allowed
        split
        · refine (delete_obeys sessionID).bind fun result deleted _ => ?_
          cases result with
          | error error => trivial
          | ok _ => exact recorded_obeys manager.pg _ rfl
        · next kept =>
          obtain ⟨next, destroyed⟩ := outcome
          obtain rfl : destroyed = false := Bool.eq_false_iff.mpr kept
          refine ⟨.status sessionID event read vals next member allowed, fun reply => ?_⟩
          cases reply with
          | error error => trivial
          | ok _ =>
              dsimp only
              split
              · refine obeys_free fun now => ?_
                refine ⟨.lastActive sessionID event _ _, fun _ => ?_⟩
                exact obeys_free fun _ => recorded_obeys manager.pg _ rfl
              · exact recorded_obeys manager.pg _ rfl

theorem createSession_obeys (userID deviceID : Slice) :
    (manager.createSession userID deviceID).Obeys
      (Allows manager (.call (.createSession userID deviceID))) (fun _ _ => True) [] := by
  refine obeys_free fun drawn => ?_
  cases drawn with
  | error error => trivial
  | ok sessionID =>
      refine obeys_free fun now => ?_
      have record : Allows manager _ [⟨.rand, .ok sessionID⟩, ⟨.timeNow, now⟩] _ :=
        .record userID deviceID _ (manager.newSession userID deviceID sessionID now)
          rfl (by simp [Manager.newSession]) (by simp)
      have stored : (RedisStore.create (manager.newSession userID deviceID sessionID now)).Obeys
          (Allows manager (.call (.createSession userID deviceID))) (fun _ _ => True)
          [⟨.rand, .ok sessionID⟩, ⟨.timeNow, now⟩] :=
        ⟨record, fun set => obeys_free fun expire => obeys_free fun add => trivial⟩
      refine stored.bind fun result after _ => ?_
      cases result with
      | error error => trivial
      | ok _ =>
          dsimp only
          split
          · refine obeys_free fun reply => ?_
            cases reply <;> trivial
          · trivial

theorem registerConnection_obeys (sessionID : Bytes) (conn : NewConnection) :
    (manager.registerConnection sessionID conn).Obeys
      (Allows manager (.call (.registerConnection sessionID conn))) (fun _ _ => True) [] := by
  refine (getConnections_obeys sessionID).bind fun result after known => ?_
  obtain ⟨reply, rfl, rfl⟩ := known
  cases reply with
  | error error => trivial
  | ok vals =>
      simp only [Except.map]
      split
      · trivial
      · next free =>
        refine ⟨.connection sessionID conn vals free, fun reply => ?_⟩
        cases reply <;> trivial

end Programs

/-- **The guarantee.** Every call keeps it. -/
theorem task_obeys (manager : Manager) (task : ManagerTask) :
    (manager.task task).Obeys (Allows manager task) (fun _ _ => True) [] := by
  have returned : ∀ {Value : Type} {program : Code Value} {wrap : Value → Outcome},
      program.Obeys (Allows manager task) (fun _ _ => True) [] →
      (program >>= fun value => return wrap value).Obeys (Allows manager task)
        (fun _ _ => True) [] :=
    fun obeys => obeys.bind fun _ _ _ => trivial
  cases task with
  | lapse key => exact obeys_free fun _ => trivial
  | call call =>
      cases call with
      | createSession userID deviceID => exact returned (createSession_obeys userID deviceID)
      | getSession sessionID =>
          refine returned ((get_obeys sessionID).bind fun result after _ => ?_)
          cases result with
          | ok session => trivial
          | error error =>
              dsimp only
              split
              · refine obeys_free fun reply => ?_
                rcases reply with error | _ | row <;> trivial
              · trivial
      | transitionSession sessionID event => exact returned (transitionSession_obeys sessionID event)
      | updateCryptoState sessionID cryptoState =>
          refine returned ⟨.crypto sessionID cryptoState _, fun reply => ?_⟩
          cases reply with
          | error error => trivial
          | ok _ =>
              dsimp only
              split
              · exact obeys_free fun _ => trivial
              · trivial
      | registerConnection sessionID conn =>
          exact (registerConnection_obeys sessionID conn).bind fun _ _ _ => trivial
      | unregisterConnection sessionID connectionID => exact returned (obeys_free fun _ => trivial)
      | getUserSessions userID =>
          refine returned (obeys_free fun reply => ?_)
          cases reply <;> trivial

theorem obeying_next {manager : Manager} {pool after : ManagerPool}
    {event : Foundation.Event ManagerTask Choice} (obeying : pool.Obeying (Allows manager))
    (stepped : pool.next manager.system event = some after) : after.Obeying (Allows manager) :=
  obeying.next (task_obeys manager) stepped

end FProto.Sessions

import FProto.Sessions.Effects

/-!
Owns what `TransitionSession` calls that are made one after the other do while Redis is
available and no key lapses: the stored record follows the state machine, and nothing
but the status and `last_active` of the record changes.

PostgreSQL, when the manager has one, may fail at any time.

**Main result.** The status that is stored after a sequence of calls is the machine's,
run over the events of the session from `connecting`: `transitions_refine_machine`.
-/

namespace FProto.Sessions

open FProto.Foundation
open RedisStore (statusField createFields firstError)

/-! ### The machine over a sequence of events -/

/-- The machine over one event. An event that it rejects is skipped; a destroyed session
is `none`. -/
def lifecycle : Option Status → Event → Option Status
  | none, _ => none
  | some status, event =>
      match transition status event with
      | .error _ => some status
      | .ok result => if result.destroyed then none else some result.next

/-- The machine accepts the event and destroys the session. -/
def Destroys (current : Option Status) (event : Event) : Prop :=
  ∃ status result, current = some status ∧ transition status event = .ok result ∧
    result.destroyed = true

theorem lifecycle_eq_none_iff (current : Option Status) (event : Event) :
    lifecycle current event = none ↔ Destroys current event ∨ current = none := by
  cases current with
  | none => simp [lifecycle]
  | some status =>
      cases allowed : transition status event with
      | error error => simp [lifecycle, Destroys, allowed]
      | ok result =>
          cases isDestroyed : result.destroyed with
          | false => simp [lifecycle, Destroys, allowed, isDestroyed]
          | true => simp [lifecycle, Destroys, allowed, isDestroyed]

/-! ### Redis is available -/

/-- The commands to Redis. -/
def Command.isRedis : Command → Bool
  | .hGetAll _ => true
  | .hSet _ _ _ => true
  | .hSetFields _ _ => true
  | .hDel _ _ => true
  | .expire _ => true
  | .del _ => true
  | .sAdd _ _ => true
  | .sRem _ _ => true
  | .sMembers _ => true
  | _ => false

/-- The commands of a deployment whose Redis answers. -/
def redisExec (command : Command) : Choice → State → Option (Reply command × State)
  | .fail error, state => if command.isRedis then none else exec command (.fail error) state
  | choice, state => exec command choice state

section Commands

variable {choice : Choice} {state after : State}

theorem redisExec_hGetAll {key : Bytes} {reply : Except Bytes Hash}
    (executed : redisExec (.hGetAll key) choice state = some (reply, after)) :
    reply = .ok (state.hashes key) ∧ after = state := by
  cases choice <;> cases executed
  exact ⟨rfl, rfl⟩

theorem redisExec_hSet {key field value : Bytes} {reply : Except Bytes Unit}
    (executed : redisExec (.hSet key field value) choice state = some (reply, after)) :
    reply = .ok () ∧ after = state.setHash key ((state.hashes key).set field value) := by
  cases choice <;> cases executed
  exact ⟨rfl, rfl⟩

theorem redisExec_del {key : Bytes} {reply : Except Bytes Unit}
    (executed : redisExec (.del key) choice state = some (reply, after)) :
    reply = .ok () ∧ after = state.setHash key [] := by
  cases choice <;> cases executed
  exact ⟨rfl, rfl⟩

theorem redisExec_sRem {key member : Bytes} {reply : Except Bytes Unit}
    (executed : redisExec (.sRem key member) choice state = some (reply, after)) :
    reply = .ok () ∧ after = state.removeMember key member := by
  cases choice <;> cases executed
  exact ⟨rfl, rfl⟩

end Commands

theorem exec_of_redisExec (command : Command) (choice : Choice) (state : State)
    (outcome : Reply command × State) (executed : redisExec command choice state = some outcome) :
    exec command choice state = some outcome := by
  cases choice with
  | fail error =>
      rw [redisExec] at executed
      split at executed
      · cases executed
      · exact executed
  | _ => exact executed

/-! ### The stored status -/

/-- The status in the record of a session, if there is a record. -/
def State.recordStatus (state : State) (sessionID : Bytes) : Option Status :=
  if state.hashes (sessionKey sessionID) = [] then none
  else some (Status.ofText ((state.hashes (sessionKey sessionID)).field "status"))

section Status

variable {state : State} {sessionID : Bytes}

theorem State.recordStatus_eq_none_iff :
    state.recordStatus sessionID = none ↔ ¬HasRecord state sessionID := by
  unfold State.recordStatus HasRecord
  split
  · next absent => simp [absent]
  · next present => simp [present]

theorem State.hasRecord_of_recordStatus {status : Status}
    (stored : state.recordStatus sessionID = some status) : HasRecord state sessionID := by
  by_contra absent
  rw [State.recordStatus_eq_none_iff.mpr absent] at stored
  cases stored

theorem Stored.recordStatus {session : Session} (stored : Stored state sessionID session) :
    state.recordStatus sessionID = some session.status := by
  obtain ⟨present, connections, rfl⟩ := stored
  exact if_neg present

/-- The record alone decides. -/
theorem State.recordStatus_congr {after : State}
    (same : after.hashes (sessionKey sessionID) = state.hashes (sessionKey sessionID)) :
    after.recordStatus sessionID = state.recordStatus sessionID := by
  rw [State.recordStatus, same, State.recordStatus]

end Status

/-! ### An event that the machine accepts is carried out -/

section Available

variable {sessionID : Bytes} {event : Event} {state after : State} {log : Log}

theorem getConnections_available {result : Except Bytes (List Connection)}
    (executes : Executes redisExec (RedisStore.getConnections ConnJSON.unmarshal sessionID) state
      log result after) : after = state ∧ result = .ok (state.connections sessionID) := by
  rw [RedisStore.getConnections, Program.issue_bind] at executes
  cases executes with
  | call executed rest =>
      obtain ⟨rfl, rfl⟩ := redisExec_hGetAll executed
      cases rest
      exact ⟨rfl, rfl⟩

theorem get_available (present : HasRecord state sessionID) {result : Except Bytes Session}
    (executes : Executes redisExec (RedisStore.get ConnJSON.unmarshal sessionID) state log result
      after) :
    after = state ∧ ∃ session, result = .ok session ∧ Stored state sessionID session := by
  rw [RedisStore.get, Program.issue_bind] at executes
  cases executes with
  | call executed rest =>
      obtain ⟨rfl, rfl⟩ := redisExec_hGetAll executed
      dsimp only at rest
      rw [if_neg present] at rest
      obtain ⟨connections, middle, early, late, -, first, second⟩ := rest.bind_inv
      obtain ⟨rfl, rfl⟩ := getConnections_available first
      cases second
      exact ⟨rfl, _, rfl, present, _, rfl⟩

theorem delete_available (present : HasRecord state sessionID) {result : Except Bytes Unit}
    (executes : Executes redisExec (RedisStore.delete ConnJSON.unmarshal sessionID) state log
      result after) : result = .ok () := by
  unfold RedisStore.delete at executes
  obtain ⟨found, middle, early, late, -, first, second⟩ := executes.bind_inv
  obtain ⟨rfl, session, rfl, -⟩ := get_available present first
  simp only [Program.issue_bind] at second
  cases second with
  | call recordDone rest =>
      cases rest with
      | call connectionsDone rest =>
          cases rest with
          | call memberDone rest =>
              obtain ⟨rfl, -⟩ := redisExec_del recordDone
              obtain ⟨rfl, -⟩ := redisExec_del connectionsDone
              obtain ⟨rfl, -⟩ := redisExec_sRem memberDone
              cases rest
              rfl

/-- With Redis available, what the machine accepts is carried out. -/
theorem transitionSession_available {pg : Bool} {status : Status} {outcome : TransitionResult}
    (stored : state.recordStatus sessionID = some status)
    (allowed : transition status event = .ok outcome)
    {result : Except TransitionSessionError (Option Session)}
    (executes : Executes redisExec (transitionSession ConnJSON.unmarshal pg sessionID event) state
      log result after) : ∃ returned, result = .ok returned := by
  have present := State.hasRecord_of_recordStatus stored
  unfold transitionSession at executes
  obtain ⟨found, middle, early, late, -, first, second⟩ := executes.bind_inv
  obtain ⟨rfl, session, rfl, isStored⟩ := get_available present first
  have sameStatus : session.status = status :=
    Option.some.inj (isStored.recordStatus.symm.trans stored)
  dsimp only at second
  rw [sameStatus, allowed] at second
  dsimp only at second
  split at second
  · obtain ⟨deleted, remaining, _, _, -, isDelete, rest⟩ := second.bind_inv
    obtain rfl := delete_available present isDelete
    obtain ⟨isReturned, -⟩ := deleteTail_executes (rest.mono exec_of_redisExec)
    exact ⟨_, isReturned⟩
  · next kept =>
    obtain ⟨next, destroyed⟩ := outcome
    obtain rfl : destroyed = false := Bool.eq_false_iff.mpr kept
    have checked := named_of_transition allowed
    rw [RedisStore.updateStatus, Program.issue_bind] at second
    cases second with
    | call setDone rest =>
        obtain ⟨rfl, -⟩ := redisExec_hSet setDone
        dsimp only at rest
        split at rest
        · obtain ⟨_, touched, _, _, -, -, rest⟩ := rest.bind_inv
          obtain ⟨isReturned, -⟩ := statusTail_executes checked (rest.mono exec_of_redisExec)
          exact ⟨_, isReturned⟩
        · obtain ⟨isReturned, -⟩ := statusTail_executes checked (rest.mono exec_of_redisExec)
          exact ⟨_, isReturned⟩

end Available

/-! ### One call -/

/-- Other sessions keep their records, connections, index entries and rows. -/
structure Untouched (sessionID : Bytes) (state after : State) : Prop where
  records : ∀ other, other ≠ sessionID →
    after.hashes (sessionKey other) = state.hashes (sessionKey other)
  connections : ∀ other, other ≠ sessionID →
    after.hashes (connKey other) = state.hashes (connKey other)
  index : ∀ key member, member ≠ hexEncode sessionID →
    (member ∈ after.sets key ↔ member ∈ state.sets key)
  rows : ∀ other, other ≠ sessionID →
    PGStore.find after.pg other = PGStore.find state.pg other

/-- What a call does while Redis is available: an event that is rejected changes nothing;
one that destroys the session removes it; any other changes the status of its record,
and `last_active` after a packet. -/
inductive TransitionStep (pg : Bool) (sessionID : Bytes) (event : Event) (state : State) :
    Except TransitionSessionError (Option Session) → State → Prop
  | rejected (error : TransitionSessionError)
      (refused : ∀ status, state.recordStatus sessionID = some status →
        ∃ error, transition status event = .error error) :
      TransitionStep pg sessionID event state (.error error) state
  | destroyed (destroys : Destroys (state.recordStatus sessionID) event) (after : State)
      (record : after.hashes (sessionKey sessionID) = [])
      (others : Untouched sessionID state after) (table : pg = false → after.pg = state.pg) :
      TransitionStep pg sessionID event state (.ok none) after
  | moved (status next : Status) (stored : state.recordStatus sessionID = some status)
      (allowed : transition status event = .ok { next := next }) (session : Session)
      (returned : session.status = next) (after : State)
      (current : after.recordStatus sessionID = some next)
      (fields : ∀ name, name ≠ statusField →
        (event = .packetReceived → name ≠ utf8 "last_active") →
        (after.hashes (sessionKey sessionID)).get name =
          (state.hashes (sessionKey sessionID)).get name)
      (connections : after.hashes (connKey sessionID) = state.hashes (connKey sessionID))
      (index : after.sets = state.sets)
      (others : Untouched sessionID state after) (table : pg = false → after.pg = state.pg) :
      TransitionStep pg sessionID event state (.ok (some session)) after

section Steps

variable {pg : Bool} {sessionID : Bytes} {event : Event} {state after : State} {log : Log}
  {result : Except TransitionSessionError (Option Session)}

/-- The record after a status was stored, and `last_active` perhaps. -/
theorem TouchTail.fields {hash changed : Hash} {isPacket : Bool} {tail : Log}
    (touched : TouchTail sessionID hash isPacket tail changed) :
    (hash ≠ [] → changed ≠ []) ∧
      ∀ name, (isPacket = true → name ≠ utf8 "last_active") → changed.get name = hash.get name := by
  cases touched with
  | absent => exact ⟨id, fun _ _ => rfl⟩
  | failed now error expire => exact ⟨id, fun _ _ => rfl⟩
  | done now expire =>
      refine ⟨fun _ => List.cons_ne_nil _ _, fun name other => ?_⟩
      exact Hash.get_set_of_ne _ (other rfl) _

theorem StatusTail.rows {next : Status} {rows changed : List Row} {tail : Log}
    (durable : StatusTail sessionID next rows pg tail changed) :
    (pg = false → changed = rows) ∧
      ∀ other, other ≠ sessionID → PGStore.find changed other = PGStore.find rows other := by
  cases durable with
  | absent => exact ⟨fun _ => rfl, fun _ _ => rfl⟩
  | failed error => exact ⟨fun _ => rfl, fun _ _ => rfl⟩
  | done checked now =>
      refine ⟨(fun noPg => by cases noPg), fun other different => ?_⟩
      exact find_statusRows_of_ne rows different checked now

theorem DeleteTail.rows {rows changed : List Row} {tail : Log}
    (durable : DeleteTail sessionID rows pg tail changed) :
    (pg = false → changed = rows) ∧
      ∀ other, other ≠ sessionID → PGStore.find changed other = PGStore.find rows other := by
  cases durable with
  | absent => exact ⟨fun _ => rfl, fun _ _ => rfl⟩
  | failed error => exact ⟨fun _ => rfl, fun _ _ => rfl⟩
  | done =>
      refine ⟨(fun noPg => by cases noPg), fun other different => ?_⟩
      exact PGStore.find_delete_of_ne rows different

/-- `Delete` leaves the connections of other sessions alone. -/
theorem connections_afterDelete (state : State) (userID : Bytes) {other : Bytes}
    (different : other ≠ sessionID) :
    (state.afterDelete sessionID userID (.ok ()) (.ok ()) (.ok ())).hashes (connKey other) =
      state.hashes (connKey other) := by
  rw [State.afterDelete_hashes _ _ _ _ _ _ (connKey_injective.ne different), onSuccess,
    State.setHash_hashes, if_neg (connKey_ne_sessionKey _ _)]

/-- A `Delete` touches no other session. -/
theorem untouched_afterDelete (state : State) (userID : Bytes) {rows : List Row}
    (others : ∀ other, other ≠ sessionID → PGStore.find rows other = PGStore.find state.pg other) :
    Untouched sessionID state
      { state.afterDelete sessionID userID (.ok ()) (.ok ()) (.ok ()) with pg := rows } where
  records _ different :=
    State.afterDelete_of_ne state sessionID userID (.ok ()) (.ok ()) (.ok ()) different
  connections _ different := connections_afterDelete state userID different
  index key member different :=
    (State.mem_afterDelete state sessionID userID (.ok ()) (.ok ()) (.ok ()) key member).trans
      (and_iff_left fun removed => different removed.2.2)
  rows := others

/-- A write to the record touches no other session. -/
theorem untouched_setHash (state : State) (hash : Hash) {rows : List Row}
    (others : ∀ other, other ≠ sessionID → PGStore.find rows other = PGStore.find state.pg other) :
    Untouched sessionID state { state.setHash (sessionKey sessionID) hash with pg := rows } where
  records _ different :=
    (State.setHash_hashes _ _ _ _).trans (if_neg (sessionKey_injective.ne different))
  connections _ _ := (State.setHash_hashes _ _ _ _).trans (if_neg (connKey_ne_sessionKey _ _))
  index _ _ _ := Iff.rfl
  rows := others

/-- **The step lemma.** -/
theorem transitionSession_step
    (executes : Executes redisExec (transitionSession ConnJSON.unmarshal pg sessionID event) state
      log result after) : TransitionStep pg sessionID event state result after := by
  have accepted : ∀ status outcome, state.recordStatus sessionID = some status →
      transition status event = .ok outcome → ∃ returned, result = .ok returned :=
    fun _ _ stored allowed => transitionSession_available stored allowed executes
  cases transitionSession_executes (executes.mono exec_of_redisExec) with
  | refused log quiet error =>
      refine .rejected error fun status stored => ?_
      cases allowed : transition status event with
      | error refusal => exact ⟨refusal, rfl⟩
      | ok outcome =>
          obtain ⟨returned, impossible⟩ := accepted status outcome stored allowed
          cases impossible
  | deleteFailed reads quiet session stored outcome allowed =>
      obtain ⟨returned, impossible⟩ := accepted _ _ stored.recordStatus allowed
      cases impossible
  | destroyed reads quiet session stored outcome allowed isDestroyed tail rows durable =>
      obtain ⟨table, otherRows⟩ := durable.rows
      have destroys : Destroys (state.recordStatus sessionID) event :=
        ⟨_, outcome, stored.recordStatus, allowed, isDestroyed⟩
      have gone := State.afterDelete_self state sessionID session.userID (.ok ()) (.ok ()) ()
      exact .destroyed destroys _ gone (untouched_afterDelete state session.userID otherRows) table
  | moved reads quiet session stored next allowed touch hash touched tail rows durable =>
      obtain ⟨table, otherRows⟩ := durable.rows
      obtain ⟨present, kept⟩ := touched.fields
      have record : (state.setHash (sessionKey sessionID) hash).hashes (sessionKey sessionID) =
          hash := (State.setHash_hashes _ _ _ _).trans (if_pos rfl)
      refine .moved session.status next stored.recordStatus allowed _ rfl _ ?_ ?_ ?_ rfl
        (untouched_setHash state hash otherRows) table
      · -- `last_active` is another field, so the status is the one that was stored.
        have isStatus : hash.field "status" = next.text := by
          rw [Hash.field, kept _ fun _ => by decide, ← statusField, Hash.get_set_self,
            Option.getD_some]
        show (state.setHash (sessionKey sessionID) hash).recordStatus sessionID = some next
        rw [State.recordStatus, record, if_neg (present (List.cons_ne_nil _ _)), isStatus,
          Status.ofText_text]
      · intro name notStatus notTouched
        show ((state.setHash (sessionKey sessionID) hash).hashes (sessionKey sessionID)).get name = _
        rw [record, kept name (fun isPacket => notTouched (of_decide_eq_true isPacket)),
          Hash.get_set_of_ne _ notStatus]
      · exact (State.setHash_hashes _ _ _ _).trans (if_neg (connKey_ne_sessionKey _ _))

/-- The status of every session after a call. -/
theorem TransitionStep.recordStatus (step : TransitionStep pg sessionID event state result after)
    (other : Bytes) :
    after.recordStatus other =
      if other = sessionID then lifecycle (state.recordStatus other) event
      else state.recordStatus other := by
  by_cases same : other = sessionID
  · subst same
    rw [if_pos rfl]
    cases step with
    | rejected error refused =>
        cases stored : state.recordStatus other with
        | none => rfl
        | some status =>
            obtain ⟨refusal, isRefused⟩ := refused status stored
            rw [lifecycle, isRefused]
    | destroyed destroys after record others table =>
        rw [(lifecycle_eq_none_iff _ _).mpr (.inl destroys), State.recordStatus, if_pos record]
    | moved status next stored allowed session returned after current =>
        rw [current, stored, lifecycle, allowed]
        rfl
  · rw [if_neg same]
    cases step with
    | rejected error refused => rfl
    | destroyed destroys after record others table =>
        exact State.recordStatus_congr (others.records other same)
    | moved status next stored allowed session returned after current fields connections index
        others =>
        exact State.recordStatus_congr (others.records other same)

end Steps

/-! ### Calls one after the other -/

/-- A call of `TransitionSession`, with what the environment decides about it. -/
structure TransitionCall where
  sessionID : Bytes
  event : Event
  choices : List Choice

def TransitionCall.run (manager : Manager) (state : State) (call : TransitionCall) :
    Option (Except TransitionSessionError (Option Session) × State) :=
  (transitionSession ConnJSON.unmarshal manager.pg call.sessionID call.event).run redisExec
    call.choices state

def Manager.nextTransition (manager : Manager) (state : State) (call : TransitionCall) :
    Option State :=
  (call.run manager state).map Prod.snd

/-- The events of a session, in order. -/
def eventsOf (sessionID : Bytes) (calls : List TransitionCall) : List Event :=
  (calls.filter fun call => call.sessionID = sessionID).map TransitionCall.event

/-- **The run lemma.** -/
theorem recordStatus_run {manager : Manager} {start after : State} {calls : List TransitionCall}
    (ran : run manager.nextTransition start calls = some after) (sessionID : Bytes) :
    after.recordStatus sessionID =
      (eventsOf sessionID calls).foldl lifecycle (start.recordStatus sessionID) := by
  induction calls generalizing start with
  | nil =>
      obtain rfl := Option.some.inj ran
      rfl
  | cons call calls inductionHypothesis =>
      obtain ⟨middle, stepped, rest⟩ := run_cons ran
      obtain ⟨⟨result, _⟩, called, rfl⟩ := Option.map_eq_some_iff.mp stepped
      have step := transitionSession_step (executes_of_run called)
      rw [inductionHypothesis rest, step.recordStatus]
      by_cases same : call.sessionID = sessionID
      · rw [if_pos same.symm, eventsOf, eventsOf, List.filter_cons_of_pos (by simpa using same),
          List.map_cons, List.foldl_cons]
      · rw [if_neg (Ne.symm same), eventsOf, eventsOf,
          List.filter_cons_of_neg (by simpa using same)]

theorem recordStatus_afterCreate (state : State) (session : NewSession) (add : Except Bytes Unit) :
    (state.afterCreate session (.ok ()) add).recordStatus session.sessionID =
      some session.status := by
  have member : (utf8 "status", session.status.text) ∈ createFields session := by
    simp [createFields, statusField]
  rw [State.recordStatus, State.afterCreate_self, RedisStore.field_create _ _ member,
    Status.ofText_text]
  exact if_neg (List.cons_ne_nil _ _)

/-- A session that `CreateSession` returns is stored as `connecting`. -/
theorem createSession_ok {manager : Manager} {userID deviceID : Slice} {state after : State}
    {log : Log} {session : NewSession}
    (executes : Executes exec (manager.createSession userID deviceID) state log (.ok session)
      after) : after.recordStatus session.sessionID = some .connecting := by
  rw [Manager.createSession, Program.issue_bind] at executes
  cases executes with
  | @call _ _ _ _ _ _ drawn _ _ draw rest =>
      cases drawn with
      | error error => cases rest
      | ok sessionID =>
          dsimp only at rest
          rw [Program.issue_bind] at rest
          cases rest with
          | @call _ _ _ _ _ _ now _ _ clock rest =>
              obtain ⟨created, middle, early, late, -, first, second⟩ := rest.bind_inv
              obtain ⟨set, expire, add, -, rfl, rfl⟩ := create_executes first
              cases stored : firstError [set, expire, add] with
              | error error =>
                  rw [stored] at second
                  cases second
              | ok _ =>
                  obtain rfl := firstError_ok stored set (by simp)
                  rw [stored] at second
                  dsimp only at second
                  split at second
                  · cases second with
                    | @call _ _ _ _ _ _ reply _ _ insert rest =>
                        obtain ⟨rfl, error, rfl⟩ := exec_pgCreate rfl insert
                        cases rest
                  · cases second
                    exact recordStatus_afterCreate _ _ _

/-- **Sequential transitions refine the machine and touch nothing else.** Take any session
that `CreateSession` returned, and any sequence of `TransitionSession` calls made one
after the other, on it and on other sessions, while Redis is available. The stored
status is the machine's, run from `connecting` over the events of the session; there is
no record exactly after an event that the machine accepts and that destroys the session;
and every call does what `TransitionStep` says. -/
theorem transitions_refine_machine {creator manager : Manager} {userID deviceID : Slice}
    {choices : List Choice} {before start after : State} {session : NewSession}
    {calls : List TransitionCall}
    (created : (creator.createSession userID deviceID).run exec choices before =
      some (.ok session, start))
    (ran : run manager.nextTransition start calls = some after) :
    after.recordStatus session.sessionID =
        (eventsOf session.sessionID calls).foldl lifecycle (some .connecting) ∧
      (¬HasRecord after session.sessionID ↔
        ∃ past event later, eventsOf session.sessionID calls = past ++ event :: later ∧
          Destroys (past.foldl lifecycle (some .connecting)) event) ∧
      ∀ past call middle result final, past ++ [call] <+: calls →
        run manager.nextTransition start past = some middle →
        call.run manager middle = some (result, final) →
        TransitionStep manager.pg call.sessionID call.event middle result final := by
  have status : after.recordStatus session.sessionID =
      (eventsOf session.sessionID calls).foldl lifecycle (some .connecting) := by
    rw [recordStatus_run ran, createSession_ok (executes_of_run created)]
  refine ⟨status, ?_, ?_⟩
  · -- a session that was destroyed stays so: no event takes that from it
    rw [← State.recordStatus_eq_none_iff, status,
      has_foldl_iff (fun current => current = none) Destroys (fun _ => False)
        (fun current event => by simpa using lifecycle_eq_none_iff current event) (by simp)]
    simp
  · intro past call middle result final _ _ called
    exact transitionSession_step (executes_of_run called)

/-- A session that becomes active, is refused a second handshake, and receives a packet. -/
def sampleTransitions (sessionID : Bytes) : List TransitionCall :=
  [⟨sessionID, .handshakeOK, [.ok, .ok, .ok]⟩, ⟨sessionID, .handshakeFail, [.ok, .ok]⟩,
    ⟨sessionID, .packetReceived, [.ok, .ok, .ok, .time 9, .ok, .ok]⟩]

theorem transitions_refine_machine_sample :
    ∃ session start after,
      ((⟨false, defaultConfig⟩ : Manager).createSession (some [1]) (some [2])).run exec
        [.random (List.replicate 16 7), .clock (Time.ofUnix 5), .ok, .ok, .ok] State.empty =
          some (.ok session, start) ∧
      run (⟨false, defaultConfig⟩ : Manager).nextTransition start
        (sampleTransitions session.sessionID) = some after ∧
      after.recordStatus session.sessionID = some .active := by
  obtain ⟨session, start, created, possible⟩ : ∃ session start,
      ((⟨false, defaultConfig⟩ : Manager).createSession (some [1]) (some [2])).run exec
        [.random (List.replicate 16 7), .clock (Time.ofUnix 5), .ok, .ok, .ok] State.empty =
          some (.ok session, start) ∧
      (run (⟨false, defaultConfig⟩ : Manager).nextTransition start
        (sampleTransitions session.sessionID)).isSome = true := ⟨_, _, rfl, rfl⟩
  obtain ⟨after, ran⟩ := Option.isSome_iff_exists.mp possible
  refine ⟨session, start, after, created, ran, ?_⟩
  rw [(transitions_refine_machine created ran).1]
  simp [sampleTransitions, eventsOf, lifecycle, transition, transitions]

end FProto.Sessions

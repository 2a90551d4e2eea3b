import FProto.Sessions.Effects

/-!
Owns when a session record in Redis goes back to a `CreateSession`.

`HSET` creates a missing key. `TransitionSession` reads the record before it
writes; `UpdateCryptoState` and `RegisterConnection` do not, so on an id without
a record they write one, or a connection hash, and report success. Calls are
made one after the other and session keys lapse between them.
-/

namespace FProto.Sessions

open FProto.Foundation
open RedisStore (statusField createFields)

/-! ### The property -/

/-- The executed command makes or ends the record of a session. -/
def Ends (sessionID : Bytes) : Executed Command Reply → Prop
  | ⟨.hSetFields key _, .ok _⟩ => key = sessionKey sessionID
  | ⟨.del key, .ok _⟩ => key = sessionKey sessionID
  | ⟨.lapse key, _⟩ => key = sessionKey sessionID
  | _ => False

/-- A `Create` stored the session, and it was neither deleted nor expired nor
created again since. -/
def LiveSince (log : Log) (created : NewSession) : Prop :=
  ∃ earlier later, log = earlier ++
      ⟨.hSetFields (sessionKey created.sessionID) (createFields created), .ok ()⟩ :: later ∧
    ∀ entry ∈ later, ¬Ends created.sessionID entry

/-- `Get` succeeds only for live sessions, with the user and device of their
creation. -/
def NoGhost (ledger : Ledger) : Prop :=
  ∀ sessionID choices session after,
    (RedisStore.get ConnJSON.unmarshal sessionID).run exec choices ledger.state =
      some (.ok session, after) →
    ∃ created : NewSession, created.sessionID = sessionID ∧ LiveSince ledger.log created ∧
      session.userID = created.userID.bytes ∧ session.deviceID = created.deviceID.bytes

/-- The session that a call is to change. -/
def ManagerCall.target : ManagerCall → Option Bytes
  | .transitionSession sessionID _ => some sessionID
  | .updateCryptoState sessionID _ => some sessionID
  | .registerConnection sessionID _ => some sessionID
  | .unregisterConnection sessionID _ => some sessionID
  | _ => none

def CreatesNoKey (before after : State) : Prop :=
  (∀ key, before.hashes key = [] → after.hashes key = []) ∧
    ∀ key, before.sets key = [] → after.sets key = []

/-- A call on an id without a record returns an error and creates no key. -/
def RefusesUnknown (manager : Manager) (ledger : Ledger) : SerialEvent → Prop
  | .call call choices => ∀ sessionID outcome after, call.target = some sessionID →
      ¬HasRecord ledger.state sessionID →
      (manager.code call).run exec choices ledger.state = some (outcome, after) →
      outcome.failed = true ∧ CreatesNoKey ledger.state after
  | .lapse _ => True

/-- The condition on a call that writes without reading the record: the id has a
record, or the write is not reached or fails. -/
def OnRecord (manager : Manager) (ledger : Ledger) : SerialEvent → Prop
  | .call (.updateCryptoState sessionID _) choices =>
      HasRecord ledger.state sessionID ∨ choices.head? ≠ some .ok
  | .call (.registerConnection sessionID _) choices =>
      HasRecord ledger.state sessionID ∨
        manager.config.maxConnections ≤ (ledger.state.connections sessionID).length ∨
        choices.head? ≠ some .ok ∨ choices[1]? ≠ some .ok
  | .call (.unregisterConnection sessionID _) choices =>
      HasRecord ledger.state sessionID ∨ choices.head? ≠ some .ok
  | _ => True

/-! ### Calls on an id without a record -/

theorem createsNoKey_refl (state : State) : CreatesNoKey state state :=
  ⟨fun _ absent => absent, fun _ absent => absent⟩

theorem hSet_choice {key field value : Bytes} {choice : Choice} {state after : State}
    {reply : Except Bytes Unit}
    (executed : exec (.hSet key field value) choice state = some (reply, after)) :
    reply = .ok () ↔ choice = .ok := by
  cases choice <;> cases executed <;> simp

theorem hDel_choice {key field : Bytes} {choice : Choice} {state after : State}
    {reply : Except Bytes Unit}
    (executed : exec (.hDel key field) choice state = some (reply, after)) :
    reply = .ok () ↔ choice = .ok := by
  cases choice <;> cases executed <;> simp

theorem hGetAll_choice {key : Bytes} {choice : Choice} {state after : State}
    {reply : Except Bytes Hash}
    (executed : exec (.hGetAll key) choice state = some (reply, after)) :
    (∃ vals, reply = .ok vals) ↔ choice = .ok := by
  cases choice <;> cases executed <;> simp

section Unknown

variable {manager : Manager} {ledger : Ledger} {choices : List Choice} {outcome : Outcome}
  {after : State} {sessionID : Bytes}

/-- The first command worked exactly when its choice says so. -/
theorem head_ok_iff {Result : Type} {program : Code Result} {state : State} {command : Command}
    {reply : Reply command} {rest : Log} {worked : Prop}
    (logged : program.log exec choices state = ⟨command, reply⟩ :: rest)
    (settles : ∀ choice before after, exec command choice before = some (reply, after) →
      (worked ↔ choice = .ok)) :
    worked ↔ choices.head? = some .ok := by
  obtain ⟨choice, middle, head, executed⟩ := Program.head_of_log logged
  rw [head, Option.some.injEq]
  exact settles choice state middle executed

theorem second_ok_iff {Result : Type} {program : Code Result} {state : State}
    {command second : Command} {reply : Reply command} {secondReply : Reply second} {rest : Log}
    {worked : Prop}
    (logged : program.log exec choices state = ⟨command, reply⟩ :: ⟨second, secondReply⟩ :: rest)
    (settles : ∀ choice before after, exec second choice before = some (secondReply, after) →
      (worked ↔ choice = .ok)) :
    worked ↔ choices[1]? = some .ok := by
  obtain ⟨choice, before, middle, isSecond, executed⟩ := Program.second_of_log logged
  rw [isSecond, Option.some.injEq]
  exact settles choice before middle executed

/-- A call that is not refused needs a record. -/
theorem refused_iff_of_done {record refused condition : Prop} (done : ¬record → ¬refused)
    (ok : ¬condition) : (¬record → refused) ↔ record ∨ condition := by
  rw [or_iff_left ok]
  refine ⟨fun refuses => Classical.not_not.mp fun absent => ?_, fun present absent => ?_⟩
  · exact done absent (refuses absent)
  · exact absurd present absent

theorem updateCryptoState_refuses {cryptoState : Slice}
    (ran : (manager.code (.updateCryptoState sessionID cryptoState)).run exec choices ledger.state =
      some (outcome, after)) :
    (¬HasRecord ledger.state sessionID → outcome.failed = true ∧ CreatesNoKey ledger.state after) ↔
      HasRecord ledger.state sessionID ∨ choices.head? ≠ some .ok := by
  have effect := code_executes (executes_of_run ran)
  generalize logged : (manager.code _).log exec choices ledger.state = log at effect
  have created : (ledger.state.setField sessionID cryptoField
      (hexEncode cryptoState.bytes)).hashes (sessionKey sessionID) ≠ [] := by
    simp [State.setField, Hash.set]
  cases effect with
  | updateCryptoState effect =>
      cases effect with
      | failed error =>
          have worked := head_ok_iff logged fun _ _ _ => hSet_choice
          refine iff_of_true (fun _ => ⟨rfl, createsNoKey_refl _⟩) (.inr fun isOk => ?_)
          cases worked.mpr isOk
      | redis noPg =>
          have worked := head_ok_iff logged fun _ _ _ => hSet_choice
          refine refused_iff_of_done (fun absent refused => ?_) (not_not.mpr (worked.mp rfl))
          have stays := refused.2.1 _ (Classical.not_not.mp absent)
          exact created stays
      | both reply rows statement =>
          have worked := head_ok_iff logged fun _ _ _ => hSet_choice
          refine refused_iff_of_done (fun absent refused => ?_) (not_not.mpr (worked.mp rfl))
          have stays := refused.2.1 _ (Classical.not_not.mp absent)
          rw [onSuccess_pg_hashes] at stays
          exact created stays

theorem registerConnection_refuses {conn : NewConnection}
    (ran : (manager.code (.registerConnection sessionID conn)).run exec choices ledger.state =
      some (outcome, after)) :
    (¬HasRecord ledger.state sessionID → outcome.failed = true ∧ CreatesNoKey ledger.state after) ↔
      HasRecord ledger.state sessionID ∨
        manager.config.maxConnections ≤ (ledger.state.connections sessionID).length ∨
        choices.head? ≠ some .ok ∨ choices[1]? ≠ some .ok := by
  have effect := code_executes (executes_of_run ran)
  generalize logged : (manager.code _).log exec choices ledger.state = log at effect
  cases effect with
  | registerConnection effect =>
      cases effect with
      | unread error =>
          have worked := head_ok_iff logged fun _ _ _ => hGetAll_choice
          refine iff_of_true (fun _ => ⟨rfl, createsNoKey_refl _⟩) (.inr (.inr (.inl fun isOk => ?_)))
          obtain ⟨vals, impossible⟩ := worked.mpr isOk
          cases impossible
      | full limit =>
          exact iff_of_true (fun _ => ⟨rfl, createsNoKey_refl _⟩) (.inr (.inl limit))
      | failed free error =>
          have worked := second_ok_iff logged fun _ _ _ => hSet_choice
          refine iff_of_true (fun _ => ⟨rfl, createsNoKey_refl _⟩) (.inr (.inr (.inr fun isOk => ?_)))
          cases worked.mpr isOk
      | added free =>
          have headOk := (head_ok_iff logged fun _ _ _ => hGetAll_choice).mp ⟨_, rfl⟩
          have secondOk := (second_ok_iff logged fun _ _ _ => hSet_choice).mp rfl
          refine refused_iff_of_done (fun _ refused => by cases refused.1) ?_
          rintro (limit | notOk | notOk)
          · exact absurd limit free
          · exact absurd headOk notOk
          · exact absurd secondOk notOk

theorem unregisterConnection_refuses {connectionID : Bytes}
    (ran : (manager.code (.unregisterConnection sessionID connectionID)).run exec choices
      ledger.state = some (outcome, after)) :
    (¬HasRecord ledger.state sessionID → outcome.failed = true ∧ CreatesNoKey ledger.state after) ↔
      HasRecord ledger.state sessionID ∨ choices.head? ≠ some .ok := by
  have effect := code_executes (executes_of_run ran)
  generalize logged : (manager.code _).log exec choices ledger.state = log at effect
  cases effect with
  | unregisterConnection effect =>
      cases effect with
      | failed error =>
          have worked := head_ok_iff logged fun _ _ _ => hDel_choice
          refine iff_of_true (fun _ => ⟨rfl, createsNoKey_refl _⟩) (.inr fun isOk => ?_)
          cases worked.mpr isOk
      | removed =>
          have worked := head_ok_iff logged fun _ _ _ => hDel_choice
          exact refused_iff_of_done (fun _ refused => by cases refused.1)
            (not_not.mpr (worked.mp rfl))

theorem transitionSession_refuses {event : Event}
    (ran : (manager.code (.transitionSession sessionID event)).run exec choices ledger.state =
      some (outcome, after)) (absent : ¬HasRecord ledger.state sessionID) :
    outcome.failed = true ∧ CreatesNoKey ledger.state after := by
  have effect := code_executes (executes_of_run ran)
  generalize (manager.code _).log exec choices ledger.state = log at effect
  cases effect with
  | transitionSession effect =>
      cases effect with
      | refused _ quiet error => exact ⟨rfl, createsNoKey_refl _⟩
      | deleteFailed _ _ _ stored => exact absurd stored.1 absent
      | destroyed _ _ _ stored => exact absurd stored.1 absent
      | moved _ _ _ stored => exact absurd stored.1 absent

/-- A step refuses unknown ids exactly under the condition. -/
theorem refusesUnknown_iff {event : SerialEvent} {next : Ledger}
    (stepped : manager.next ledger event = some next) :
    RefusesUnknown manager ledger event ↔ OnRecord manager ledger event := by
  cases event with
  | lapse sessionID => exact Iff.rfl
  | call call choices =>
      obtain ⟨outcome, ran, -⟩ := Manager.next_call stepped
      have determined : RefusesUnknown manager ledger (.call call choices) ↔
          ∀ sessionID, call.target = some sessionID → ¬HasRecord ledger.state sessionID →
            outcome.failed = true ∧ CreatesNoKey ledger.state next.state := by
        constructor
        · intro refuses sessionID isTarget absent
          exact refuses sessionID outcome next.state isTarget absent ran
        · intro refuses sessionID other otherAfter isTarget absent otherRan
          rw [ran] at otherRan
          cases otherRan
          exact refuses sessionID isTarget absent
      have single : ∀ {sessionID : Bytes} {claim : Bytes → Prop},
          (∀ other, some sessionID = some other → claim other) ↔ claim sessionID := by simp
      rw [determined]
      cases call with
      | transitionSession sessionID event =>
          refine iff_of_true (single.mpr ?_) trivial
          exact transitionSession_refuses ran
      | updateCryptoState sessionID cryptoState =>
          exact single.trans (updateCryptoState_refuses ran)
      | registerConnection sessionID conn =>
          exact single.trans (registerConnection_refuses ran)
      | unregisterConnection sessionID connectionID =>
          exact single.trans (unregisterConnection_refuses ran)
      | _ => exact iff_of_true (fun _ impossible => nomatch impossible) trivial

end Unknown

/-! ### Records go back to a creation -/

/-- A record that is there was created, and still names its owner. -/
def Recorded (hash : Hash) (log : Log) (sessionID : Bytes) : Prop :=
  hash ≠ [] → ∃ created : NewSession, created.sessionID = sessionID ∧ LiveSince log created ∧
    hash.field "user_id" = hexEncode created.userID.bytes ∧
    hash.field "device_id" = hexEncode created.deviceID.bytes

/-- A hash that is there was there before, with the same owner. -/
def SameOwner (before after : Hash) : Prop :=
  after ≠ [] → before ≠ [] ∧ after.field "user_id" = before.field "user_id" ∧
    after.field "device_id" = before.field "device_id"

theorem sameOwner_refl (hash : Hash) : SameOwner hash hash := fun present => ⟨present, rfl, rfl⟩

theorem SameOwner.set {before hash : Hash} {field : Bytes} (same : SameOwner before hash)
    (present : hash ≠ []) (notUser : utf8 "user_id" ≠ field) (notDevice : utf8 "device_id" ≠ field)
    (value : Bytes) : SameOwner before (hash.set field value) := by
  intro _
  obtain ⟨wasPresent, user, device⟩ := same present
  refine ⟨wasPresent, ?_, ?_⟩
  · rw [Hash.field_set_of_ne hash notUser, user]
  · rw [Hash.field_set_of_ne hash notDevice, device]

/-- Commands that end no record keep what is known of a record. -/
theorem Recorded.append {before after : Hash} {log late : Log} {sessionID : Bytes}
    (recorded : Recorded before log sessionID) (same : SameOwner before after)
    (noEnd : ∀ entry ∈ late, ¬Ends sessionID entry) :
    Recorded after (log ++ late) sessionID := by
  intro present
  obtain ⟨wasPresent, user, device⟩ := same present
  obtain ⟨created, rfl, ⟨earlier, later, rfl, live⟩, createdUser, createdDevice⟩ :=
    recorded wasPresent
  refine ⟨created, rfl, ⟨earlier, later ++ late, by simp, ?_⟩, user.trans createdUser,
    device.trans createdDevice⟩
  intro entry member
  rcases List.mem_append.mp member with old | new
  · exact live entry old
  · exact noEnd entry new

theorem Recorded.absent {log : Log} {sessionID : Bytes} : Recorded [] log sessionID :=
  fun present => absurd rfl present

theorem wrote_of_ends {sessionID : Bytes} {entry : Executed Command Reply}
    (ends : Ends sessionID entry) : wrote entry.1 entry.2 = true := by
  obtain ⟨command, reply⟩ := entry
  cases command with
  | hSetFields key fields =>
      cases reply with
      | error error => cases ends
      | ok _ => rfl
  | del key =>
      cases reply with
      | error error => cases ends
      | ok _ => rfl
  | lapse key => rfl
  | _ => cases ends

theorem Quiet.noEnd {log : Log} (quiet : Quiet log) (sessionID : Bytes) :
    ∀ entry ∈ log, ¬Ends sessionID entry := by
  intro entry member ends
  have silent := quiet entry member
  rw [wrote_of_ends ends] at silent
  cases silent

section Steps

variable {manager : Manager} {state after : State} {log late : Log} {sessionID : Bytes}

/-- A `Create` ends a record only by writing it. -/
theorem noEnd_create {drawn : Bytes} {now : Time} {session : NewSession}
    {set expire add : Except Bytes Unit} {tail : Log} (quiet : Quiet tail)
    (unwritten : ∀ done, set = .ok done → sessionKey session.sessionID ≠ sessionKey sessionID) :
    ∀ entry ∈ (⟨.rand, .ok drawn⟩ :: ⟨.timeNow, now⟩ :: createLog session set expire add ++ tail :
      Log), ¬Ends sessionID entry := by
  intro entry member
  simp only [createLog, List.cons_append, List.nil_append, List.mem_cons] at member
  rcases member with rfl | rfl | rfl | rfl | rfl | member
  · exact id
  · exact id
  · cases set with
    | error error => exact id
    | ok done => exact unwritten done rfl
  · exact id
  · exact id
  · exact quiet.noEnd sessionID entry member

/-- The record of a `Create` that worked, of the session it is for. -/
theorem recorded_created {userID deviceID : Slice} {now : Time}
    {expire add : Except Bytes Unit} {tail : Log} (quiet : Quiet tail) :
    Recorded ((state.afterCreate (manager.newSession userID deviceID sessionID now) (.ok ())
        add).hashes (sessionKey sessionID))
      (log ++ (⟨.rand, .ok sessionID⟩ :: ⟨.timeNow, now⟩ ::
        createLog (manager.newSession userID deviceID sessionID now) (.ok ()) expire add ++ tail))
      sessionID := by
  intro _
  refine ⟨manager.newSession userID deviceID sessionID now, rfl,
    ⟨log ++ [⟨.rand, .ok sessionID⟩, ⟨.timeNow, now⟩],
      ⟨.expire (sessionKey sessionID), expire⟩ ::
        ⟨.sAdd (userSessionsKey userID.bytes) (hexEncode sessionID), add⟩ :: tail,
      ?_, fun entry member => ?_⟩, ?_, ?_⟩
  · simp [createLog, Manager.newSession]
  · simp only [List.mem_cons] at member
    rcases member with rfl | rfl | member
    · exact id
    · exact id
    · exact quiet.noEnd sessionID entry member
  · exact (congrArg (Hash.field · "user_id") (State.afterCreate_self ..)).trans
      (RedisStore.field_create _ _ (by simp [createFields]))
  · exact (congrArg (Hash.field · "device_id") (State.afterCreate_self ..)).trans
      (RedisStore.field_create _ _ (by simp [createFields]))

theorem recorded_create {userID deviceID : Slice} {result : Except Bytes NewSession}
    (recorded : Recorded (state.hashes (sessionKey sessionID)) log sessionID)
    (effect : CreateEffect manager userID deviceID state late result after) :
    Recorded (after.hashes (sessionKey sessionID)) (log ++ late) sessionID := by
  cases effect with
  | noRandom error =>
      refine recorded.append (sameOwner_refl _) ?_
      simp [Ends]
  | stored drawn now set expire add tail result quiet =>
      cases set with
      | error error =>
          rw [State.afterCreate_failed]
          refine recorded.append (sameOwner_refl _) (noEnd_create quiet ?_)
          intro done impossible
          cases impossible
      | ok _ =>
          by_cases same : sessionID = drawn
          · subst same
            exact recorded_created quiet
          · have otherKey : sessionKey sessionID ≠ sessionKey drawn := sessionKey_injective.ne same
            rw [State.afterCreate_of_ne _ _ _ _ otherKey]
            exact recorded.append (sameOwner_refl _) (noEnd_create quiet fun _ _ => otherKey.symm)

/-- `Delete` ends the record only when its first `DEL` works. -/
theorem recorded_delete {target userID : Bytes} (record connections member : Except Bytes Unit)
    {reads : Log} (quiet : Quiet reads)
    (recorded : Recorded (state.hashes (sessionKey sessionID)) log sessionID) :
    Recorded ((state.afterDelete target userID record connections member).hashes
        (sessionKey sessionID))
      (log ++ (reads ++ deleteLog target userID record connections member)) sessionID := by
  have kept : (record = .ok () → sessionKey target ≠ sessionKey sessionID) →
      ∀ entry ∈ reads ++ deleteLog target userID record connections member,
        ¬Ends sessionID entry := by
    intro other entry member
    rcases List.mem_append.mp member with isRead | isDelete
    · exact quiet.noEnd sessionID entry isRead
    · simp only [deleteLog, List.mem_cons, List.not_mem_nil, or_false] at isDelete
      rcases isDelete with rfl | rfl | rfl
      · cases record with
        | error error => exact id
        | ok _ => exact other rfl
      · cases connections with
        | error error => exact id
        | ok _ => exact connKey_ne_sessionKey _ _
      · exact id
  cases record with
  | error error =>
      rw [State.afterDelete_failed]
      exact recorded.append (sameOwner_refl _) (kept nofun)
  | ok _ =>
      by_cases same : sessionID = target
      · subst same
        rw [State.afterDelete_self]
        exact .absent
      · rw [State.afterDelete_of_ne _ _ _ _ _ _ same]
        exact recorded.append (sameOwner_refl _)
          (kept fun _ => (sessionKey_injective.ne same).symm)

theorem sameOwner_touch {target : Bytes} {before hash changed : Hash} {isPacket : Bool}
    {touch : Log} (same : SameOwner before hash) (present : hash ≠ [])
    (touched : TouchTail target hash isPacket touch changed) : SameOwner before changed := by
  cases touched with
  | absent => exact same
  | failed => exact same
  | done now expire => exact same.set present (by decide) (by decide) _

theorem TouchTail.noEnd {target : Bytes} {hash changed : Hash} {isPacket : Bool} {touch : Log}
    (touched : TouchTail target hash isPacket touch changed) (sessionID : Bytes) :
    ∀ entry ∈ touch, ¬Ends sessionID entry := by
  rintro ⟨command, reply⟩ member ends
  rcases touched.mem member with rfl | ⟨_, rfl⟩ | rfl <;> exact ends

theorem DeleteTail.noEnd {target : Bytes} {rows changed : List Row} {pg : Bool} {tail : Log}
    (durable : DeleteTail target rows pg tail changed) (sessionID : Bytes) :
    ∀ entry ∈ tail, ¬Ends sessionID entry := by
  rintro ⟨command, reply⟩ member ends
  obtain rfl := durable.mem member
  exact ends

theorem StatusTail.noEnd {target : Bytes} {status : Status} {rows changed : List Row} {pg : Bool}
    {tail : Log} (durable : StatusTail target status rows pg tail changed) (sessionID : Bytes) :
    ∀ entry ∈ tail, ¬Ends sessionID entry := by
  rintro ⟨command, reply⟩ member ends
  obtain rfl := durable.mem member
  exact ends

theorem recorded_transition {pg : Bool} {target : Bytes} {event : Event}
    {result : Except TransitionSessionError (Option Session)}
    (recorded : Recorded (state.hashes (sessionKey sessionID)) log sessionID)
    (effect : TransitionEffect pg target event state late result after) :
    Recorded (after.hashes (sessionKey sessionID)) (log ++ late) sessionID := by
  cases effect with
  | refused _ quiet error => exact recorded.append (sameOwner_refl _) (quiet.noEnd sessionID)
  | deleteFailed reads quiet session _ _ _ _ record connections member =>
      exact recorded_delete record connections member quiet recorded
  | destroyed reads quiet session _ _ _ _ tail rows durable =>
      rw [← List.append_assoc]
      exact (recorded_delete (.ok ()) (.ok ()) (.ok ()) quiet recorded).append
        (sameOwner_refl _) (durable.noEnd sessionID)
  | moved reads quiet session stored next _ touch hash touched tail rows durable =>
      refine recorded.append ?_ fun entry member => ?_
      · rw [State.setHash_hashes]
        split
        · next same =>
          rw [same]
          refine sameOwner_touch ?_ (List.cons_ne_nil _ _) touched
          exact (sameOwner_refl _).set stored.1 (by decide) (by decide) _
        · exact sameOwner_refl _
      · rcases List.mem_append.mp member with early | isTail
        · rcases List.mem_append.mp early with isRead | isSet
          · exact quiet.noEnd sessionID entry isRead
          · rcases List.mem_cons.mp isSet with rfl | isTouch
            · exact id
            · exact touched.noEnd sessionID entry isTouch
        · exact durable.noEnd sessionID entry isTail

theorem recorded_crypto {target : Bytes} {cryptoState : Slice} {result : Except Bytes Unit}
    (recorded : Recorded (state.hashes (sessionKey sessionID)) log sessionID)
    (effect : CryptoEffect manager target cryptoState state late result after)
    (refuses : ¬HasRecord state target → CreatesNoKey state after) :
    Recorded (after.hashes (sessionKey sessionID)) (log ++ late) sessionID := by
  have owner : after.hashes =
      (state.setField target cryptoField (hexEncode cryptoState.bytes)).hashes →
      SameOwner (state.hashes (sessionKey sessionID)) (after.hashes (sessionKey sessionID)) := by
    intro written
    have present : HasRecord state target := by
      intro absent
      have stays := (refuses fun present => present absent).1 _ absent
      rw [written] at stays
      simp [State.setField, Hash.set] at stays
    rw [written, State.setField, State.setHash_hashes]
    split
    · next same =>
      rw [same]
      exact (sameOwner_refl _).set present (by decide) (by decide) _
    · exact sameOwner_refl _
  cases effect with
  | failed error => exact recorded.append (sameOwner_refl _) (by simp [Ends])
  | redis noPg => exact recorded.append (owner rfl) (by simp [Ends])
  | both reply rows => exact recorded.append (owner (onSuccess_pg_hashes _ _ _)) (by simp [Ends])

/-- One call keeps every record, if it refuses ids without one. -/
theorem recorded_call {call : ManagerCall} {outcome : Outcome}
    (recorded : Recorded (state.hashes (sessionKey sessionID)) log sessionID)
    (effect : CallEffect manager state call late outcome after)
    (refuses : ∀ sessionID, call.target = some sessionID → ¬HasRecord state sessionID →
      outcome.failed = true ∧ CreatesNoKey state after) :
    Recorded (after.hashes (sessionKey sessionID)) (log ++ late) sessionID := by
  have otherKey : ∀ target, sessionKey sessionID ≠ connKey target :=
    fun target => (connKey_ne_sessionKey target sessionID).symm
  have unchanged : Quiet late → Recorded (state.hashes (sessionKey sessionID)) (log ++ late)
      sessionID := fun quiet => recorded.append (sameOwner_refl _) (quiet.noEnd sessionID)
  cases effect with
  | createSession effect => exact recorded_create recorded effect
  | getSession _ quiet _ => exact unchanged quiet
  | transitionSession effect => exact recorded_transition recorded effect
  | updateCryptoState effect =>
      exact recorded_crypto recorded effect fun absent => (refuses _ rfl absent).2
  | registerConnection effect =>
      cases effect with
      | unread => exact unchanged (quiet_cons rfl quiet_nil)
      | full => exact unchanged (quiet_cons rfl quiet_nil)
      | failed => exact unchanged (quiet_cons rfl (quiet_cons rfl quiet_nil))
      | added =>
          rw [State.setHash_hashes, if_neg (otherKey _)]
          refine recorded.append (sameOwner_refl _) fun entry member => ?_
          simp only [List.mem_cons, List.not_mem_nil, or_false] at member
          rcases member with rfl | rfl <;> exact id
  | unregisterConnection effect =>
      cases effect with
      | failed => exact unchanged (quiet_cons rfl quiet_nil)
      | removed =>
          rw [State.setHash_hashes, if_neg (otherKey _)]
          refine recorded.append (sameOwner_refl _) fun entry member => ?_
          rw [List.mem_singleton.mp member]
          exact id
  | getUserSessions _ quiet _ => exact unchanged quiet

end Steps

/-! ### Every run -/

theorem noGhost_of_recorded {ledger : Ledger}
    (recorded : ∀ sessionID,
      Recorded (ledger.state.hashes (sessionKey sessionID)) ledger.log sessionID) :
    NoGhost ledger := by
  intro sessionID choices session after ran
  obtain ⟨-, -, found⟩ := get_executes (executes_of_run ran)
  obtain ⟨present, connections, rfl⟩ := found session rfl
  obtain ⟨created, sameID, live, user, device⟩ := recorded sessionID present
  refine ⟨created, sameID, live, ?_, ?_⟩
  · simp only [Session.ofHash, user, hexDecodeString_hexEncode]
  · simp only [Session.ofHash, device, hexDecodeString_hexEncode]

/-- **The step lemma.** An event that meets the condition keeps every record tied
to its creation. -/
theorem recorded_next {manager : Manager} {ledger after : Ledger} {event : SerialEvent}
    (recorded : ∀ sessionID,
      Recorded (ledger.state.hashes (sessionKey sessionID)) ledger.log sessionID)
    (onRecord : OnRecord manager ledger event) (stepped : manager.next ledger event = some after) :
    ∀ sessionID, Recorded (after.state.hashes (sessionKey sessionID)) after.log sessionID := by
  intro sessionID
  have refuses := (refusesUnknown_iff stepped).mpr onRecord
  rcases Manager.next_cases stepped with
    ⟨call, choices, outcome, late, rfl, ran, effect, log, -⟩ | ⟨lapsed, rfl, state, log, -⟩
  · rw [log]
    exact recorded_call (recorded sessionID) effect
      fun target isTarget absent => refuses target outcome after.state isTarget absent ran
  · rw [log, state, State.setHash_hashes]
    split
    · exact .absent
    · next different =>
      refine (recorded sessionID).append (sameOwner_refl _) fun entry member => ?_
      rw [List.mem_singleton.mp member]
      exact fun ends => different ends.symm

/-- **When no session is a ghost.** All along a run of manager calls and expiring
session keys from empty stores, `Get` succeeds only for sessions that were
created and neither deleted nor expired since, with the user and device of
their creation, and every call on an id without a record is refused, if and
only if every `UpdateCryptoState`, `RegisterConnection` and
`UnregisterConnection` is on an id with a record or does not get to write. -/
theorem no_ghost_sessions_iff (manager : Manager) (events : List SerialEvent) :
    (Always manager.next { state := State.empty } events NoGhost ∧
        EachStep manager.next { state := State.empty } events (RefusesUnknown manager)) ↔
      EachStep manager.next { state := State.empty } events (OnRecord manager) := by
  rw [eachStep_congr fun _ _ _ stepped => refusesUnknown_iff stepped]
  constructor
  · exact And.right
  · intro each
    have always : Always manager.next { state := State.empty } events fun ledger =>
        ∀ sessionID, Recorded (ledger.state.hashes (sessionKey sessionID)) ledger.log sessionID :=
      always_of_eachStep (fun _ => .absent)
        (fun _ _ _ recorded onRecord stepped => recorded_next recorded onRecord stepped) each
    exact ⟨fun past middle isPast ran => noGhost_of_recorded (always past middle isPast ran), each⟩

/-- `UpdateCryptoState` and `RegisterConnection` on ids that nobody created both
succeed; `Get` then returns a session of the empty user. -/
theorem ghost_session_stored :
    let manager : Manager := { pg := false, config := defaultConfig }
    let conn : NewConnection :=
      { connectionID := utf8 "c1", transport := utf8 "quic", gatewayID := utf8 "gw",
        remoteAddr := utf8 "addr", connectedAt := .ofUnix 0, lastPacketSeq := 0 }
    ∃ ledger session,
      run manager.next { state := State.empty }
          [.call (.updateCryptoState [7] (some [1])) [.ok],
            .call (.registerConnection [8] conn) [.ok, .ok]] = some ledger ∧
      ledger.outcomes =
        [(.updateCryptoState [7] (some [1]), .updated (.ok ())),
          (.registerConnection [8] conn, .registered 1 (.ok ()))] ∧
      (RedisStore.get ConnJSON.unmarshal [7]).run exec [.ok, .ok] ledger.state =
        some (.ok session, ledger.state) ∧
      session.userID = [] ∧ (∀ created, ¬LiveSince ledger.log created) ∧
      ledger.state.hashes (connKey [8]) ≠ [] := by
  intro manager conn
  refine ⟨_, _, rfl, rfl, rfl, rfl, ?_, List.cons_ne_nil _ _⟩
  rintro created ⟨earlier, later, logged, -⟩
  have commands : [Command.hSet (sessionKey [7]) cryptoField (utf8 "01"), .hGetAll (connKey [8]),
      .hSet (connKey [8]) conn.connectionID conn.toConnJSON.marshal] =
      earlier.map Sigma.fst ++
        .hSetFields (sessionKey created.sessionID) (createFields created) ::
          later.map Sigma.fst :=
    (congrArg (List.map Sigma.fst) logged).trans (by simp)
  have member : Command.hSetFields (sessionKey created.sessionID) (createFields created) ∈
      [Command.hSet (sessionKey [7]) cryptoField (utf8 "01"), .hGetAll (connKey [8]),
        .hSet (connKey [8]) conn.connectionID conn.toConnJSON.marshal] := by
    rw [commands]
    exact List.mem_append_right _ List.mem_cons_self
  simp at member

end FProto.Sessions

import FProto.Sessions.TwoStores

/-!
Owns when the status that `GetSession` returns is the one that was set last,
whether it reads Redis or falls back to PostgreSQL.

`TransitionSession` ignores the errors of its two PostgreSQL writes, so a row
can be out of date, which shows when Redis has no record of the session or does
not answer.
-/

namespace FProto.Sessions

open FProto.Foundation
open RedisStore (statusField createFields)

/-! ### The property -/

/-- A transition of any session, or the end of a session key's time to live. -/
inductive FallbackEvent where
  | transition (sessionID : Bytes) (event : Event) (choices : List Choice)
  | lapse (sessionID : Bytes)

def FallbackEvent.toSerial : FallbackEvent → SerialEvent
  | .transition sessionID event choices => .call (.transitionSession sessionID event) choices
  | .lapse sessionID => .lapse sessionID

def Manager.nextFallback (manager : Manager) (ledger : Ledger) (event : FallbackEvent) :
    Option Ledger :=
  manager.next ledger event.toSerial

/-- The status that a call sets when it returns success; `none` for a session
that it destroyed. -/
def statusAfter (sessionID : Bytes) (last : Option Status) : ManagerCall × Outcome → Option Status
  | (.transitionSession target _, .transitioned (.ok session)) =>
      if target = sessionID then session.map Session.status else last
  | _ => last

/-- The status that the last successful transition set. -/
def lastStatus (sessionID : Bytes) (initial : Option Status)
    (outcomes : List (ManagerCall × Outcome)) : Option Status :=
  outcomes.foldl (statusAfter sessionID) initial

/-- `GetSession` returns the last status, or an error. -/
def ReadsLast (manager : Manager) (sessionID : Bytes) (initial : Option Status) (ledger : Ledger) :
    Prop :=
  ∀ choices session after,
    (manager.getSession sessionID).run exec choices ledger.state = some (.ok session, after) →
    lastStatus sessionID initial ledger.outcomes = some session.status

/-- A PostgreSQL write that failed and left the row with another status. -/
def Loses (sessionID : Bytes) (row : Row) : Executed Command Reply → Prop
  | ⟨.pgDelete target, .error _⟩ => target = sessionID
  | ⟨.pgUpdateStatus target status, .error _⟩ => target = sessionID ∧ row.status ≠ status
  | _ => False

/-- No PostgreSQL write of the event fails that would change the row's status. -/
def LosesNothing (manager : Manager) (sessionID : Bytes) (ledger : Ledger) : FallbackEvent → Prop
  | .transition target event choices =>
      ∀ row, PGStore.find ledger.state.pg sessionID = some row →
        ∀ entry ∈ (manager.code (.transitionSession target event)).log exec choices ledger.state,
          ¬Loses sessionID row entry
  | .lapse _ => True

/-- The record has the last status. -/
def RecordLast (sessionID : Bytes) (state : State) (last : Option Status) : Prop :=
  HasRecord state sessionID →
    last = some (Status.ofText ((state.hashes (sessionKey sessionID)).field "status"))

/-- The row has the last status. -/
def RowLast (sessionID : Bytes) (state : State) (last : Option Status) : Prop :=
  ∀ row, PGStore.find state.pg sessionID = some row → last = some row.status

/-! ### One event -/

section Fallback

variable {sessionID : Bytes} {state after : State} {last : Option Status} {late : Log}

/-- A read of PostgreSQL while Redis is down. -/
theorem getSession_fallback {config : Config} {row : Row}
    (found : PGStore.find state.pg sessionID = some row) :
    (Manager.getSession { pg := true, config } sessionID).run exec [.fail [], .ok] state =
      some (.ok row.toSession, state) := by
  simp [Manager.getSession, RedisStore.get, PGStore.get, Program.run, exec, found]

theorem readsLast_iff {config : Config} {initial : Option Status} {ledger : Ledger}
    (recordLast : RecordLast sessionID ledger.state (lastStatus sessionID initial ledger.outcomes)) :
    ReadsLast { pg := true, config } sessionID initial ledger ↔
      RowLast sessionID ledger.state (lastStatus sessionID initial ledger.outcomes) := by
  constructor
  · intro reads row found
    exact reads _ _ _ (getSession_fallback found)
  · intro rowLast choices session after ran
    obtain ⟨-, -, source⟩ := getSession_executes (executes_of_run ran)
    rcases source session rfl with ⟨present, connections, rfl⟩ | ⟨row, found, rfl⟩
    · exact recordLast present
    · exact rowLast row found

theorem Quiet.losesNothing {log : Log} (quiet : Quiet log) (row : Row) :
    ∀ entry ∈ log, ¬Loses sessionID row entry := by
  rintro ⟨command, reply⟩ member loses
  have notIgnored := (Bool.or_eq_false_iff.mp (quiet _ member)).2
  cases command with
  | pgDelete => cases notIgnored
  | pgUpdateStatus => cases notIgnored
  | _ => cases loses

theorem TouchTail.losesNothing {target : Bytes} {hash changed : Hash} {isPacket : Bool} {touch : Log}
    (touched : TouchTail target hash isPacket touch changed) (row : Row) :
    ∀ entry ∈ touch, ¬Loses sessionID row entry := by
  rintro ⟨command, reply⟩ member loses
  rcases touched.mem member with rfl | ⟨_, rfl⟩ | rfl <;> exact loses

theorem deleteLog_losesNothing (target userID : Bytes) (record connections member : Except Bytes Unit)
    (row : Row) :
    ∀ entry ∈ deleteLog target userID record connections member, ¬Loses sessionID row entry := by
  intro entry isDelete
  simp only [deleteLog, List.mem_cons, List.not_mem_nil, or_false] at isDelete
  rcases isDelete with rfl | rfl | rfl <;> exact id

theorem losesNothing_append {early tail : Log} {row : Row}
    (nothing : ∀ entry ∈ early, ¬Loses sessionID row entry) :
    (∀ entry ∈ early ++ tail, ¬Loses sessionID row entry) ↔
      ∀ entry ∈ tail, ¬Loses sessionID row entry := by
  rw [List.forall_mem_append, and_iff_right nothing]

theorem DeleteTail.other {target : Bytes} {rows changed : List Row} {tail : Log}
    (durable : DeleteTail target rows true tail changed) (different : sessionID ≠ target) :
    PGStore.find changed sessionID = PGStore.find rows sessionID ∧
      ∀ row, ∀ entry ∈ tail, ¬Loses sessionID row entry := by
  cases durable with
  | failed error =>
      refine ⟨rfl, fun row entry member => ?_⟩
      rw [List.mem_singleton.mp member]
      exact different.symm
  | done =>
      refine ⟨PGStore.find_delete_of_ne _ different, fun row entry member => ?_⟩
      rw [List.mem_singleton.mp member]
      exact id

/-- The row is gone exactly when its deletion was not lost. -/
theorem DeleteTail.self {rows changed : List Row} {tail : Log}
    (durable : DeleteTail sessionID rows true tail changed) :
    PGStore.find changed sessionID = none ↔
      ∀ row, PGStore.find rows sessionID = some row → ∀ entry ∈ tail, ¬Loses sessionID row entry := by
  cases durable with
  | failed error =>
      simp only [List.mem_singleton, forall_eq]
      rw [Option.eq_none_iff_forall_not_mem]
      exact forall_congr' fun row => imp_congr_right fun _ => ⟨fun impossible => impossible.elim,
        fun kept => kept rfl⟩
  | done =>
      refine iff_of_true (PGStore.find_delete_self _ _) fun row _ entry member => ?_
      rw [List.mem_singleton.mp member]
      exact id

theorem StatusTail.other {target : Bytes} {status : Status} {rows changed : List Row} {tail : Log}
    (durable : StatusTail target status rows true tail changed) (different : sessionID ≠ target) :
    PGStore.find changed sessionID = PGStore.find rows sessionID ∧
      ∀ row, ∀ entry ∈ tail, ¬Loses sessionID row entry := by
  cases durable with
  | failed error =>
      refine ⟨rfl, fun row entry member => ?_⟩
      rw [List.mem_singleton.mp member]
      exact fun loses => different loses.1.symm
  | done checked now =>
      refine ⟨find_statusRows_of_ne _ different checked now, fun row entry member => ?_⟩
      rw [List.mem_singleton.mp member]
      exact id

/-- The row has the status exactly when its update was not lost. -/
theorem StatusTail.self {status : Status} {rows changed : List Row} {tail : Log}
    (durable : StatusTail sessionID status rows true tail changed) :
    (∀ row, PGStore.find changed sessionID = some row → row.status = status) ↔
      ∀ row, PGStore.find rows sessionID = some row → ∀ entry ∈ tail, ¬Loses sessionID row entry := by
  cases durable with
  | failed error =>
      simp only [List.mem_singleton, forall_eq]
      refine forall_congr' fun row => imp_congr_right fun _ => ?_
      exact ⟨fun same loses => loses.2 same, fun kept => Classical.not_not.mp fun other =>
        kept ⟨rfl, other⟩⟩
  | done checked now =>
      refine iff_of_true (fun row found => ?_) fun row _ entry member => ?_
      · rw [find_statusRows_self] at found
        obtain ⟨before, -, rfl⟩ := Option.map_eq_some_iff.mp found
        rfl
      · rw [List.mem_singleton.mp member]
        exact id

/-- Everything `TransitionSession` does to Redis when it ends a session. -/
theorem destroy_losesNothing {reads : Log} (quiet : Quiet reads) (target userID : Bytes)
    (record connections member : Except Bytes Unit) (row : Row) :
    ∀ entry ∈ reads ++ deleteLog target userID record connections member,
      ¬Loses sessionID row entry :=
  (losesNothing_append (quiet.losesNothing row)).mpr (deleteLog_losesNothing _ _ _ _ _ row)

/-- Everything `TransitionSession` does to Redis when it stores a status. -/
theorem move_losesNothing {reads touch : Log} (quiet : Quiet reads) {target : Bytes}
    {hash changed : Hash} {isPacket : Bool}
    (touched : TouchTail target hash isPacket touch changed) (status : Status) (row : Row) :
    ∀ entry ∈ reads ++ ⟨.hSet (sessionKey target) statusField status.text, .ok ()⟩ :: touch,
      ¬Loses sessionID row entry := by
  refine (losesNothing_append (quiet.losesNothing row)).mpr fun entry member => ?_
  rcases List.mem_cons.mp member with rfl | isTouch
  · exact id
  · exact touched.losesNothing row entry isTouch

theorem RecordLast.congr (recordLast : RecordLast sessionID state last)
    (kept : after.hashes (sessionKey sessionID) = state.hashes (sessionKey sessionID)) :
    RecordLast sessionID after last := by
  intro present
  rw [HasRecord, kept] at present
  rw [kept]
  exact recordLast present

theorem RowLast.congr (rowLast : RowLast sessionID state last)
    (kept : PGStore.find after.pg sessionID = PGStore.find state.pg sessionID) :
    RowLast sessionID after last :=
  fun row found => rowLast row (kept ▸ found)

theorem recordLast_delete (target userID : Bytes) (record connections member : Except Bytes Unit)
    (recordLast : RecordLast sessionID state last) :
    RecordLast sessionID (state.afterDelete target userID record connections member) last := by
  intro present
  refine recordLast.congr ?_ present
  cases record with
  | error error => exact State.afterDelete_failed _ _ _ _ _ _ _
  | ok _ =>
      refine State.afterDelete_of_ne _ _ _ _ _ _ fun same => ?_
      rw [HasRecord, same, State.afterDelete_self] at present
      exact present rfl

theorem field_status_touch {target : Bytes} {hash changed : Hash} {isPacket : Bool} {touch : Log}
    (touched : TouchTail target hash isPacket touch changed) :
    changed.field "status" = hash.field "status" := by
  cases touched with
  | absent => rfl
  | failed => rfl
  | done now expire => exact Hash.field_set_of_ne hash (by decide) _

/-- **The step lemma.** After a transition the record has the last status again;
the row does exactly when nothing was lost. -/
theorem last_transition {target : Bytes} {event : Event}
    {result : Except TransitionSessionError (Option Session)}
    (effect : TransitionEffect true target event state late result after)
    (recordLast : RecordLast sessionID state last) (rowLast : RowLast sessionID state last) :
    let next := statusAfter sessionID last (.transitionSession target event, .transitioned result)
    RecordLast sessionID after next ∧
      (RowLast sessionID after next ↔
        ∀ row, PGStore.find state.pg sessionID = some row →
          ∀ entry ∈ late, ¬Loses sessionID row entry) := by
  intro next
  cases effect with
  | refused _ quiet error =>
      exact ⟨recordLast, iff_of_true rowLast fun row _ => quiet.losesNothing row⟩
  | deleteFailed reads quiet session _ _ _ _ record connections member =>
      refine ⟨recordLast_delete _ _ _ _ _ recordLast, iff_of_true ?_ fun row _ => ?_⟩
      · rw [RowLast, State.afterDelete_pg]
        exact rowLast
      · exact destroy_losesNothing quiet _ _ _ _ _ row
  | destroyed reads quiet session stored _ _ _ tail rows durable =>
      simp only [losesNothing_append (destroy_losesNothing quiet _ _ _ _ _ _)]
      by_cases same : sessionID = target
      · subst same
        have isNone : next = none := if_pos rfl
        rw [isNone, ← durable.self]
        refine ⟨fun present => absurd
          (State.afterDelete_self state sessionID session.userID (.ok ()) (.ok ()) ()) present, ?_⟩
        rw [Option.eq_none_iff_forall_not_mem]
        exact forall_congr' fun row => imp_congr_right fun _ => ⟨nofun, False.elim⟩
      · have isLast : next = last := if_neg fun sameTarget => same sameTarget.symm
        obtain ⟨rowsKept, nothing⟩ := durable.other same
        rw [isLast]
        refine ⟨recordLast_delete target session.userID (.ok ()) (.ok ()) (.ok ()) recordLast,
          iff_of_true (rowLast.congr rowsKept) fun row _ => nothing row⟩
  | moved reads quiet session stored status allowed touch hash touched tail rows durable =>
      simp only [losesNothing_append (move_losesNothing quiet touched status _)]
      by_cases same : sessionID = target
      · subst same
        have isStatus : next = some status := if_pos rfl
        rw [isStatus, ← durable.self]
        refine ⟨fun _ => ?_, forall_congr' fun row => imp_congr_right fun _ => ?_⟩
        · rw [State.setHash_hashes, if_pos rfl, field_status_touch touched]
          exact congrArg some ((congrArg Status.ofText (Hash.field_set_self _ "status" _)).trans
            (Status.ofText_text status)).symm
        · rw [Option.some.injEq, eq_comm]
      · have isLast : next = last := if_neg fun sameTarget => same sameTarget.symm
        obtain ⟨rowsKept, nothing⟩ := durable.other same
        rw [isLast]
        refine ⟨recordLast.congr ?_, iff_of_true (rowLast.congr rowsKept) fun row _ => nothing row⟩
        exact (State.setHash_hashes _ _ _ _).trans (if_neg (sessionKey_injective.ne same))

/-- One event keeps the record at the last status, and the reads too exactly when
nothing is lost. -/
theorem readsLast_next {config : Config} {initial : Option Status} {ledger final : Ledger}
    {event : FallbackEvent}
    (recordLast : RecordLast sessionID ledger.state (lastStatus sessionID initial ledger.outcomes))
    (reads : ReadsLast { pg := true, config } sessionID initial ledger)
    (stepped : Manager.nextFallback { pg := true, config } ledger event = some final) :
    RecordLast sessionID final.state (lastStatus sessionID initial final.outcomes) ∧
      (ReadsLast { pg := true, config } sessionID initial final ↔
        LosesNothing { pg := true, config } sessionID ledger event) := by
  have rowLast := (readsLast_iff recordLast).mp reads
  cases event with
  | transition target event choices =>
      obtain ⟨outcome, ran, -, outcomes⟩ := Manager.next_call stepped
      have effect := code_executes (executes_of_run ran)
      have last : lastStatus sessionID initial final.outcomes =
          statusAfter sessionID (lastStatus sessionID initial ledger.outcomes)
            (.transitionSession target event, outcome) := by
        rw [outcomes, lastStatus, List.foldl_append]
        rfl
      simp only [LosesNothing]
      generalize Program.log _ _ choices ledger.state = late at effect ⊢
      have step : RecordLast sessionID final.state (lastStatus sessionID initial final.outcomes) ∧
          (RowLast sessionID final.state (lastStatus sessionID initial final.outcomes) ↔
            ∀ row, PGStore.find ledger.state.pg sessionID = some row →
              ∀ entry ∈ late, ¬Loses sessionID row entry) := by
        rw [last]
        generalize final.state = after at effect ⊢
        cases effect with
        | transitionSession effect => exact last_transition effect recordLast rowLast
      exact ⟨step.1, (readsLast_iff step.1).trans step.2⟩
  | lapse target =>
      obtain rfl := Option.some.inj stepped
      have kept : RecordLast sessionID (ledger.state.setHash (sessionKey target) [])
          (lastStatus sessionID initial ledger.outcomes) := by
        intro present
        rw [HasRecord, State.setHash_hashes] at present
        rw [State.setHash_hashes]
        split at present
        · exact absurd rfl present
        · next different =>
          rw [if_neg different]
          exact recordLast present
      exact ⟨kept, iff_of_true ((readsLast_iff kept).mpr rowLast) trivial⟩

end Fallback

/-! ### Every run -/

/-- **When reads that fall back are up to date.** From a state in which Redis and
PostgreSQL hold the same record of a session, after every sequence of
transitions and expiries `GetSession` returns an error or the status that the
last successful transition set, if and only if no PostgreSQL write of a
transition fails that would delete the row or change its status. -/
theorem fallback_reads_last_iff (config : Config) {sessionID : Bytes} {start : State} {row : Row}
    (found : PGStore.find start.pg sessionID = some row)
    (same : Agrees (start.hashes (sessionKey sessionID)) (some row))
    (events : List FallbackEvent) :
    Always (Manager.nextFallback { pg := true, config }) { state := start } events
        (ReadsLast { pg := true, config } sessionID (some row.status)) ↔
      EachStep (Manager.nextFallback { pg := true, config }) { state := start } events
        (LosesNothing { pg := true, config } sessionID) := by
  have recordLast : RecordLast sessionID start (some row.status) :=
    fun _ => congrArg some same.2.2.2.1.symm
  have rowLast : RowLast sessionID start (some row.status) := by
    intro other isOther
    rw [found] at isOther
    obtain rfl := Option.some.inj isOther
    rfl
  refine always_iff_eachStep (fun ledger => RecordLast sessionID ledger.state
    (lastStatus sessionID (some row.status) ledger.outcomes)) ?_ ?_ ?_ events
  · exact recordLast
  · exact (readsLast_iff recordLast).mpr rowLast
  · exact fun _ _ _ recordLast reads stepped => readsLast_next recordLast reads stepped

/-- The handshake fails while PostgreSQL is down. -/
def failedHandshake : FallbackEvent :=
  .transition [7] .handshakeFail [.ok, .ok, .ok, .ok, .ok, .ok, .ok, .fail (utf8 "down")]

theorem fallback_reads_last_iff_connecting :
    PGStore.find connectingState.pg [7] = some connectingRow ∧
      (Always (Manager.nextFallback { pg := true, config := defaultConfig })
          { state := connectingState } [failedHandshake]
          (ReadsLast { pg := true, config := defaultConfig } [7] (some .connecting)) ↔
        EachStep (Manager.nextFallback { pg := true, config := defaultConfig })
          { state := connectingState } [failedHandshake]
          (LosesNothing { pg := true, config := defaultConfig } [7])) := by
  have found : PGStore.find connectingState.pg [7] = some connectingRow := rfl
  exact ⟨found, fallback_reads_last_iff defaultConfig found connecting_agrees [failedHandshake]⟩

/-- The failed handshake destroys the session and reports success; PostgreSQL is
down, its row stays, and `GetSession` returns the session again. -/
theorem destroyed_session_read_back :
    let manager : Manager := { pg := true, config := defaultConfig }
    ∃ ledger after,
      run manager.nextFallback { state := connectingState } [failedHandshake] = some ledger ∧
        ledger.outcomes = [(.transitionSession [7] .handshakeFail, .transitioned (.ok none))] ∧
        (manager.getSession [7]).run exec [.ok, .ok] ledger.state =
          some (.ok connectingRow.toSession, after) := by
  refine ⟨_, _, rfl, rfl, rfl⟩

end FProto.Sessions

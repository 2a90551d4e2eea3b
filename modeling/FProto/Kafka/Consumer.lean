import FProto.Foundation.Program
import FProto.Kafka.Topics
import Mathlib.Data.List.TakeWhile

/-!
Owns the three `ConsumeClaim` loops: the generic one of
`server/internal/kafka/consumer.go` and the copies in `sync/service.go` and
`commands/service.go`. They differ only in what they log and trace.

The loops run against one partition. A session starts at the marked position
and may end at any moment; the next session then resumes at the position that
is marked by that time. The handler is part of the environment: it returns any
result for any record.

Trace context from the record headers is not modelled.
-/

namespace FProto.Kafka.Consumer

open FProto.Foundation

/-! ### Commands -/

/-- What a loop writes to the log and to its tracing span. -/
inductive Observation where
  | log (line : Bytes)
  | startSpan (topic : Bytes) (partition offset : Nat)
  | recordError (error : String)
  | setErrorStatus (description : String)
  | endSpan
deriving DecidableEq

inductive Command where
  | handle (record : ConsumerMessage)
  | markMessage (record : ConsumerMessage)
  | observe (observation : Observation)

abbrev Reply : Command → Type
  | .handle _ => Except String Unit
  | .markMessage _ => Unit
  | .observe _ => Unit

abbrev Code (Result : Type) := Program Command Reply Result

/-- The marked position of the partition, and what the handler did: the offsets
it ever returned `nil` for, and those it failed on in the current session. -/
structure State where
  marked : Nat
  handled : List Nat
  failed : List Nat
  observed : List Observation

/-- The result of the handler, or the end of another command. -/
inductive Choice where
  | returned (result : Except String Unit)
  | completed

def exec : (command : Command) → Choice → State → Option (Reply command × State)
  | .handle record, .returned (.ok _), state =>
      some (.ok (), { state with handled := record.offset :: state.handled })
  | .handle record, .returned (.error error), state =>
      some (.error error, { state with failed := record.offset :: state.failed })
  | .markMessage record, .completed, state =>
      some ((), { state with marked := max state.marked (record.offset + 1) })
  | .observe observation, .completed, state =>
      some ((), { state with observed := state.observed ++ [observation] })
  | _, _, _ => none

/-! ### The loops -/

def observeAll : List Observation → Code Unit
  | [] => return ()
  | observation :: observations => do
      let _ ← (Program.issue (Command.observe observation) : Code Unit)
      observeAll observations

/-- What a loop observes around the handler. -/
structure Hooks where
  received : ConsumerMessage → List Observation
  failed : ConsumerMessage → String → List Observation
  succeeded : List Observation

/-- The loop over `claim.Messages()`: a failed record is left unmarked and the
loop goes on with the next one. -/
def consumeLoop (hooks : Hooks) : List ConsumerMessage → Code Unit
  | [] => return ()
  | record :: records => do
      observeAll (hooks.received record)
      match ← (Program.issue (Command.handle record) : Code (Except String Unit)) with
      | .error error =>
          observeAll (hooks.failed record error)
          consumeLoop hooks records
      | .ok _ =>
          observeAll hooks.succeeded
          let _ ← (Program.issue (Command.markMessage record) : Code Unit)
          consumeLoop hooks records

/-- `consumerGroupHandler.ConsumeClaim` of the generic session. -/
def consumerGroupHandlerConsumeClaim : List ConsumerMessage → Code Unit :=
  consumeLoop
    { received := fun record => [.startSpan record.topic record.partition record.offset]
      failed := fun record error =>
        [.recordError error, .setErrorStatus error,
          .log (utf8 "message handler error (topic=" ++ record.topic ++ utf8 ", partition=" ++
            utf8 (toString record.partition) ++ utf8 ", offset=" ++
            utf8 (toString record.offset) ++ utf8 "): " ++ utf8 error),
          .endSpan]
      succeeded := [.endSpan] }

/-- `syncGroupHandler.ConsumeClaim`. -/
def syncGroupHandlerConsumeClaim : List ConsumerMessage → Code Unit :=
  consumeLoop
    { received := fun _ => []
      failed := fun _ error => [.log (utf8 "sync handler error: " ++ utf8 error)]
      succeeded := [] }

/-- `commandGroupHandler.ConsumeClaim`. -/
def commandGroupHandlerConsumeClaim : List ConsumerMessage → Code Unit :=
  consumeLoop
    { received := fun _ => []
      failed := fun _ error => [.log (utf8 "command handler error: " ++ utf8 error)]
      succeeded := [] }

inductive Loop where
  | consumerGroupHandler
  | syncGroupHandler
  | commandGroupHandler

def Loop.consumeClaim : Loop → List ConsumerMessage → Code Unit
  | .consumerGroupHandler => consumerGroupHandlerConsumeClaim
  | .syncGroupHandler => syncGroupHandlerConsumeClaim
  | .commandGroupHandler => commandGroupHandlerConsumeClaim

theorem Loop.consumeClaim_eq (loop : Loop) : ∃ hooks, loop.consumeClaim = consumeLoop hooks := by
  cases loop with
  | consumerGroupHandler => exact ⟨_, rfl⟩
  | syncGroupHandler => exact ⟨_, rfl⟩
  | commandGroupHandler => exact ⟨_, rfl⟩

/-! ### Sessions on one partition -/

/-- The log of a partition. Offsets increase; compaction may leave gaps. -/
structure PartitionLog where
  records : List ConsumerMessage
  increasing : records.Pairwise fun earlier later => earlier.offset < later.offset

/-- What a session that resumes at a position is given. -/
def PartitionLog.from (log : PartitionLog) (position : Nat) : List ConsumerMessage :=
  log.records.dropWhile fun record => record.offset < position

/-- The partition and the rest of the current session. -/
structure Session where
  state : State
  program : Code Unit

inductive Event where
  | step (choice : Choice)
  | restart

def start (loop : Loop) (log : PartitionLog) : Session where
  state := { marked := 0, handled := [], failed := [], observed := [] }
  program := loop.consumeClaim (log.from 0)

def next (loop : Loop) (log : PartitionLog) (session : Session) : Event → Option Session
  | .step choice =>
      match session.program with
      | .done _ => none
      | .call command following =>
          match exec command choice session.state with
          | none => none
          | some (reply, state) => some ⟨state, following reply⟩
  | .restart =>
      some
        { state := { session.state with failed := [] }
          program := loop.consumeClaim (log.from session.state.marked) }

/-- Every record below the marked position was handled with a `nil` result. -/
def State.Safe (log : PartitionLog) (state : State) : Prop :=
  ∀ record ∈ log.records, record.offset < state.marked → record.offset ∈ state.handled

/-- When the loop is about to mark a record, every record of the session that
failed has been handled with a `nil` result at some other time. -/
def Session.FailedHandled (session : Session) : Prop :=
  ∀ record following, session.program = .call (.markMessage record) following →
    ∀ offset ∈ session.state.failed, offset ∈ session.state.handled

/-- The condition on an event. A restart marks nothing. -/
def Event.LeavesNoFailure (session : Session) : Event → Prop
  | .step _ => session.FailedHandled
  | .restart => True

/-! ### What the loop knows -/

/-- The session has dealt with the earlier records: each was handled or failed,
and only they failed. -/
structure Accounted (earlier : List ConsumerMessage) (state : State) : Prop where
  covered : ∀ record ∈ earlier, record.offset ∈ state.handled ∨ record.offset ∈ state.failed
  failed : ∀ offset ∈ state.failed, ∃ record ∈ earlier, record.offset = offset

/-- The session has dealt with one more record. -/
theorem Accounted.concat {earlier : List ConsumerMessage} {record : ConsumerMessage}
    {state after : State} (accounted : Accounted earlier state)
    (handled : state.handled ⊆ after.handled) (failed : state.failed ⊆ after.failed)
    (dealtWith : record.offset ∈ after.handled ∨ record.offset ∈ after.failed)
    (onlyNew : ∀ offset ∈ after.failed, offset = record.offset ∨ offset ∈ state.failed) :
    Accounted (earlier ++ [record]) after := by
  constructor
  · intro other member
    rcases List.mem_append.mp member with old | new
    · exact (accounted.covered other old).imp (fun isHandled => handled isHandled)
        fun isFailed => failed isFailed
    · rw [List.mem_singleton.mp new]
      exact dealtWith
  · intro offset isFailed
    rcases onlyNew offset isFailed with rfl | old
    · exact ⟨record, List.mem_append_right _ (List.mem_singleton_self _), rfl⟩
    · obtain ⟨other, member, same⟩ := accounted.failed offset old
      exact ⟨other, List.mem_append_left _ member, same⟩

/-- A record is marked right after it was handled, when all earlier ones are
accounted for. -/
def Command.Ready (log : PartitionLog) (state : State) : Command → Prop
  | .markMessage record => ∃ earlier later, log.records = earlier ++ record :: later ∧
      record.offset ∈ state.handled ∧ Accounted earlier state
  | _ => True

/-- Every mark a program still makes is ready when its turn comes. -/
def Tracks (log : PartitionLog) : Code Unit → State → Prop
  | .done _, _ => True
  | .call command following, state => command.Ready log state ∧
      ∀ choice reply after, exec command choice state = some (reply, after) →
        Tracks log (following reply) after

theorem tracks_observeAll {log : PartitionLog} {rest : Code Unit} (observations : List Observation)
    {state : State} (following : ∀ observed, Tracks log rest { state with observed }) :
    Tracks log (observeAll observations >>= fun _ => rest) state := by
  induction observations generalizing state with
  | nil => exact following state.observed
  | cons observation observations inductionHypothesis =>
      refine ⟨trivial, fun choice reply after executed => ?_⟩
      cases choice with
      | completed =>
          cases executed
          exact inductionHypothesis following
      | returned result => cases executed

theorem consumeLoop_tracks {log : PartitionLog} (hooks : Hooks)
    {earlier records : List ConsumerMessage} {state : State}
    (split : log.records = earlier ++ records) (accounted : Accounted earlier state) :
    Tracks log (consumeLoop hooks records) state := by
  induction records generalizing earlier state with
  | nil => trivial
  | cons record records inductionHypothesis =>
      have nextSplit : log.records = (earlier ++ [record]) ++ records := by
        rw [split, List.append_assoc]
        rfl
      unfold consumeLoop
      refine tracks_observeAll _ fun observed => ⟨trivial, fun choice reply after executed => ?_⟩
      cases choice with
      | completed => cases executed
      | returned result =>
          cases result with
          | error error =>
              cases executed
              refine tracks_observeAll _ fun observed => inductionHypothesis nextSplit ?_
              exact accounted.concat (List.Subset.refl _) (List.subset_cons_self _ _)
                (.inr List.mem_cons_self) fun _ => List.mem_cons.mp
          | ok _ =>
              cases executed
              have covered : ∀ other ∈ earlier, other.offset ∈ record.offset :: state.handled ∨
                  other.offset ∈ state.failed := fun other member =>
                (accounted.covered other member).imp_left (List.mem_cons_of_mem _)
              refine tracks_observeAll _ fun observed => ⟨?_, fun choice reply after marked => ?_⟩
              · exact ⟨earlier, records, split, List.mem_cons_self, covered, accounted.failed⟩
              · cases choice with
                | returned result => cases marked
                | completed =>
                    cases marked
                    refine inductionHypothesis nextSplit ?_
                    exact accounted.concat (List.subset_cons_self _ _) (List.Subset.refl _)
                      (.inl List.mem_cons_self) fun _ => .inr

/-- A session that resumes at a safe position. -/
theorem session_tracks {log : PartitionLog} (loop : Loop) {state : State} (safe : state.Safe log)
    (fresh : state.failed = []) :
    Tracks log (loop.consumeClaim (log.from state.marked)) state := by
  obtain ⟨hooks, isLoop⟩ := loop.consumeClaim_eq
  rw [isLoop]
  have split : log.records =
      (log.records.takeWhile fun record => record.offset < state.marked) ++
        log.from state.marked :=
    List.takeWhile_append_dropWhile.symm
  refine consumeLoop_tracks hooks split ⟨fun record member => .inl ?_, fun offset failed => ?_⟩
  · have below := List.mem_takeWhile_imp member
    exact safe record (List.takeWhile_subset _ member) (of_decide_eq_true below)
  · rw [fresh] at failed
    cases failed

/-! ### Marking -/

/-- Marking a ready record is safe exactly when no failure is left behind. -/
theorem safe_mark_iff {log : PartitionLog} {state : State} {record : ConsumerMessage}
    (safe : state.Safe log) (ready : (Command.markMessage record).Ready log state) :
    State.Safe log { state with marked := max state.marked (record.offset + 1) } ↔
      ∀ offset ∈ state.failed, offset ∈ state.handled := by
  obtain ⟨earlier, later, split, handled, accounted⟩ := ready
  have increasing := log.increasing
  rw [split, List.pairwise_append] at increasing
  obtain ⟨-, laterIncreasing, below⟩ := increasing
  constructor
  · intro marked offset failed
    obtain ⟨other, member, rfl⟩ := accounted.failed offset failed
    have isRecord : other ∈ log.records := by
      rw [split]
      exact List.mem_append_left _ member
    have smaller := below other member record List.mem_cons_self
    refine marked other isRecord ?_
    simp only
    omega
  · intro noneLeft other member position
    simp only at position
    by_cases old : other.offset < state.marked
    · exact safe other member old
    · rw [split] at member
      rcases List.mem_append.mp member with isEarlier | isLater
      · rcases accounted.covered other isEarlier with found | failed
        · exact found
        · exact noneLeft _ failed
      · rcases List.mem_cons.mp isLater with rfl | beyond
        · exact handled
        · -- Records after the marked one lie above the new position.
          have larger := List.rel_of_pairwise_cons laterIncreasing beyond
          omega

/-- Commands that mark nothing are safe. -/
theorem exec_safe {log : PartitionLog} {command : Command} {choice : Choice} {state after : State}
    {reply : Reply command} (safe : state.Safe log)
    (executed : exec command choice state = some (reply, after))
    (noMark : ∀ record, command ≠ .markMessage record) : after.Safe log := by
  cases command with
  | handle record =>
      cases choice with
      | returned result =>
          cases result with
          | ok _ =>
              cases executed
              exact fun other member below => List.mem_cons_of_mem _ (safe other member below)
          | error error =>
              cases executed
              exact safe
      | completed => cases executed
  | markMessage record => exact absurd rfl (noMark record)
  | observe observation =>
      cases choice with
      | completed =>
          cases executed
          exact safe
      | returned result => cases executed

/-- **The step lemma.** From a safe position every event keeps track of the
session, and is safe exactly when it leaves no failed record behind. -/
theorem next_safe_iff {loop : Loop} {log : PartitionLog} {session after : Session} {event : Event}
    (tracks : Tracks log session.program session.state) (safe : session.state.Safe log)
    (stepped : next loop log session event = some after) :
    Tracks log after.program after.state ∧
      (after.state.Safe log ↔ event.LeavesNoFailure session) := by
  cases event with
  | restart =>
      obtain rfl := Option.some.inj stepped
      have stillSafe : State.Safe log { session.state with failed := [] } := safe
      exact ⟨session_tracks loop stillSafe rfl, iff_of_true stillSafe trivial⟩
  | step choice =>
      obtain ⟨state, program⟩ := session
      cases program with
      | done result => cases stepped
      | call command following =>
          obtain ⟨ready, continues⟩ := tracks
          simp only [next] at stepped
          split at stepped
          · cases stepped
          · next reply left executed =>
            obtain rfl := Option.some.inj stepped
            refine ⟨continues choice reply left executed, ?_⟩
            cases command with
            | markMessage record =>
                cases choice with
                | returned result => cases executed
                | completed =>
                    cases executed
                    rw [safe_mark_iff safe ready]
                    constructor
                    · intro noneLeft other rest _
                      exact noneLeft
                    · intro handled
                      exact handled record following rfl
            | _ =>
                refine iff_of_true (exec_safe safe executed fun _ => Command.noConfusion) ?_
                intro record rest impossible
                cases impossible

/-! ### Every run -/

/-- **When no failed record is skipped.** For each of the three loops, all along
every run on a partition, with any handler results and any restarts, every
record below the marked position was handled with a `nil` result, if and only
if no record is marked while the session has left behind a failed record that
was never handled with a `nil` result. -/
theorem no_failed_record_skipped_iff (loop : Loop) (log : PartitionLog) (events : List Event) :
    Always (next loop log) (start loop log) events (fun session => session.state.Safe log) ↔
      EachStep (next loop log) (start loop log) events
        (fun session event => event.LeavesNoFailure session) := by
  have safe : (start loop log).state.Safe log :=
    fun record _ below => absurd below (Nat.not_lt_zero _)
  exact always_iff_eachStep (fun session : Session => Tracks log session.program session.state)
    (session_tracks loop safe rfl) safe
    (fun session event after tracks safe stepped => next_safe_iff tracks safe stepped) events

/-- Two records of a partition. -/
def sampleLog : PartitionLog where
  records := [{ topic := utf8 "commands", offset := 0, value := some [1] },
    { topic := utf8 "commands", offset := 1, value := some [2] }]
  increasing := by decide

/-- The handler fails on the first record and works on the second. -/
def Loop.sampleEvents : Loop → List Event
  | .consumerGroupHandler =>
      [.step .completed, .step (.returned (.error "timeout")), .step .completed, .step .completed,
        .step .completed, .step .completed, .step .completed, .step (.returned (.ok ())),
        .step .completed, .step .completed]
  | _ =>
      [.step (.returned (.error "timeout")), .step .completed, .step (.returned (.ok ())),
        .step .completed]

/-- The second record is marked, and the first one is never delivered again
although its handler failed. -/
def Loop.SkipsFirst (loop : Loop) : Prop :=
  ∃ session, run (next loop sampleLog) (start loop sampleLog) loop.sampleEvents = some session ∧
    session.state.failed = [0] ∧ session.state.handled = [1] ∧
    ¬session.state.Safe sampleLog ∧ sampleLog.from session.state.marked = []

theorem failed_record_skipped :
    Loop.consumerGroupHandler.SkipsFirst ∧ Loop.syncGroupHandler.SkipsFirst ∧
      Loop.commandGroupHandler.SkipsFirst := by
  have notSafe {state : State} (marked : state.marked = 2) (handled : state.handled = [1]) :
      ¬state.Safe sampleLog := by
    intro safe
    have first := safe _ List.mem_cons_self (by rw [marked]; decide)
    rw [handled] at first
    exact absurd first (by decide)
  exact ⟨⟨_, rfl, rfl, rfl, notSafe rfl rfl, rfl⟩, ⟨_, rfl, rfl, rfl, notSafe rfl rfl, rfl⟩,
    ⟨_, rfl, rfl, rfl, notSafe rfl rfl, rfl⟩⟩

end FProto.Kafka.Consumer

import Mathlib.Data.List.Induction

/-!
Owns runs of a partial step function over a list of events, and the rules that
carry a fact from one step to every run: an invariant that every step keeps, a
law that a step keeps exactly when a condition on the step holds, and the
simulation of an abstract system.
-/

namespace FProto.Foundation

variable {State Event : Type}

/-- Take the events one after the other; `none` when one of them is not
possible. -/
def run (next : State → Event → Option State) : State → List Event → Option State
  | state, [] => some state
  | state, event :: events =>
      match next state event with
      | none => none
      | some state => run next state events

variable {next : State → Event → Option State}

@[simp] theorem run_nil (state : State) : run next state [] = some state := rfl

theorem run_cons {state after : State} {event : Event} {events : List Event}
    (ran : run next state (event :: events) = some after) :
    ∃ middle, next state event = some middle ∧ run next middle events = some after := by
  simp only [run] at ran
  split at ran
  · cases ran
  · next middle stepped => exact ⟨middle, stepped, ran⟩

theorem run_cons_of_next {state middle : State} {event : Event}
    (stepped : next state event = some middle) (events : List Event) :
    run next state (event :: events) = run next middle events := by
  rw [run, stepped]

theorem run_append (state : State) (first second : List Event) :
    run next state (first ++ second) =
      (run next state first).bind fun middle => run next middle second := by
  induction first generalizing state with
  | nil => rfl
  | cons event first inductionHypothesis =>
      simp only [List.cons_append, run]
      cases next state event with
      | none => rfl
      | some middle => exact inductionHypothesis middle

/-- Two runs, one after the other. -/
theorem run_trans {state middle after : State} {first second : List Event}
    (early : run next state first = some middle) (late : run next middle second = some after) :
    run next state (first ++ second) = some after := by
  rw [run_append, early]
  exact late

/-- The last event of a run. -/
theorem run_concat {state after : State} {events : List Event} {event : Event} :
    run next state (events ++ [event]) = some after ↔
      ∃ middle, run next state events = some middle ∧ next middle event = some after := by
  have last : ∀ middle, run next middle [event] = next middle event := by
    intro middle
    rw [run]
    cases next middle event <;> rfl
  rw [run_append, Option.bind_eq_some_iff]
  simp only [last]

/-- **Invariants.** What every step keeps holds at the end of every run. -/
theorem run_invariant {Invariant : State → Prop}
    (kept : ∀ state event after, Invariant state → next state event = some after →
      Invariant after)
    {state after : State} {events : List Event} (holds : Invariant state)
    (ran : run next state events = some after) : Invariant after := by
  induction events generalizing state with
  | nil =>
      obtain rfl := Option.some.inj ran
      exact holds
  | cons event events inductionHypothesis =>
      obtain ⟨middle, stepped, rest⟩ := run_cons ran
      exact inductionHypothesis (kept state event middle holds stepped) rest

/-- What every event of a run keeps holds at its end. -/
theorem run_invariant_of_mem {Invariant : State → Prop} {events : List Event}
    (kept : ∀ event ∈ events, ∀ state after, Invariant state → next state event = some after →
      Invariant after)
    {state after : State} (holds : Invariant state) (ran : run next state events = some after) :
    Invariant after := by
  induction events generalizing state with
  | nil =>
      obtain rfl := Option.some.inj ran
      exact holds
  | cons event events inductionHypothesis =>
      obtain ⟨middle, stepped, rest⟩ := run_cons ran
      refine inductionHypothesis ?_ (kept event List.mem_cons_self state middle holds stepped) rest
      exact fun other member => kept other (List.mem_cons_of_mem _ member)

/-- **Progress.** When every event is possible and uses up some of a measure that is
left, a run that is long enough uses it up. -/
theorem run_drains (measure : State → Nat)
    (step : ∀ state event, ∃ after, next state event = some after ∧
      measure after ≤ measure state - 1)
    {events : List Event} {state : State} (enough : measure state ≤ events.length) :
    ∃ after, run next state events = some after ∧ measure after = 0 := by
  induction events generalizing state with
  | nil => exact ⟨state, rfl, Nat.le_zero.mp enough⟩
  | cons event events inductionHypothesis =>
      obtain ⟨middle, stepped, less⟩ := step state event
      rw [List.length_cons] at enough
      rw [run_cons_of_next stepped]
      apply inductionHypothesis
      omega

/-- A predicate holds after every prefix of the events. -/
def Always (next : State → Event → Option State) (state : State) (events : List Event)
    (Law : State → Prop) : Prop :=
  ∀ past middle, past <+: events → run next state past = some middle → Law middle

/-- A condition holds before every event that is taken. -/
def EachStep (next : State → Event → Option State) (state : State) (events : List Event)
    (Condition : State → Event → Prop) : Prop :=
  ∀ past event middle after, past ++ [event] <+: events → run next state past = some middle →
    next middle event = some after → Condition middle event

theorem always_nil {state : State} {Law : State → Prop} :
    Always next state [] Law ↔ Law state := by
  constructor
  · intro always
    exact always [] state List.prefix_rfl rfl
  · intro holds past middle isPast ran
    obtain rfl := List.prefix_nil.mp isPast
    obtain rfl := Option.some.inj ran
    exact holds

theorem always_concat {state : State} {events : List Event} {event : Event}
    {Law : State → Prop} :
    Always next state (events ++ [event]) Law ↔
      Always next state events Law ∧
        ∀ after, run next state (events ++ [event]) = some after → Law after := by
  constructor
  · intro always
    refine ⟨fun past middle isPast => ?_, fun after => always _ after List.prefix_rfl⟩
    exact always past middle (isPast.trans (List.prefix_append _ _))
  · rintro ⟨early, last⟩ past middle isPast ran
    rcases List.prefix_concat_iff.mp isPast with rfl | isEarly
    · exact last middle ran
    · exact early past middle isEarly ran

theorem eachStep_nil {state : State} {Condition : State → Event → Prop} :
    EachStep next state [] Condition := by
  intro past event middle after isPast
  have long := isPast.length_le
  simp at long

theorem eachStep_concat {state : State} {events : List Event} {event : Event}
    {Condition : State → Event → Prop} :
    EachStep next state (events ++ [event]) Condition ↔
      EachStep next state events Condition ∧
        ∀ middle after, run next state events = some middle →
          next middle event = some after → Condition middle event := by
  constructor
  · intro each
    refine ⟨fun past other middle after isPast => ?_, fun middle after => ?_⟩
    · exact each past other middle after (isPast.trans (List.prefix_append _ _))
    · exact each events event middle after List.prefix_rfl
  · rintro ⟨early, last⟩ past other middle after isPast ran stepped
    rcases List.prefix_concat_iff.mp isPast with same | isEarly
    · obtain ⟨rfl, rfl⟩ := List.append_inj' same rfl |>.imp_right List.singleton_inj.mp
      exact last middle after ran stepped
    · exact early past other middle after isEarly ran stepped

/-- The first step of a run. -/
theorem eachStep_cons {state middle : State} {event : Event} {events : List Event}
    {Condition : State → Event → Prop} (stepped : next state event = some middle)
    (first : Condition state event) (each : EachStep next middle events Condition) :
    EachStep next state (event :: events) Condition := by
  intro past other before after isPast ran taken
  cases past with
  | nil =>
      obtain rfl := Option.some.inj ran
      obtain rfl : other = event := (List.cons_prefix_cons.mp isPast).1
      exact first
  | cons head past =>
      obtain ⟨rfl, isTail⟩ := List.cons_prefix_cons.mp isPast
      rw [run_cons_of_next stepped] at ran
      exact each past other before after isTail ran taken

/-- The steps after a part of the events. -/
theorem EachStep.rest {state middle : State} {past events : List Event}
    {Condition : State → Event → Prop} (each : EachStep next state (past ++ events) Condition)
    (ran : run next state past = some middle) : EachStep next middle events Condition := by
  intro early event before after isEarly reached stepped
  refine each (past ++ early) event before after ?_ ?_ stepped
  · rw [List.append_assoc]
    exact (List.prefix_append_right_inj past).mpr isEarly
  · exact run_trans ran reached

/-- The last state of a run is reached from every state before it. -/
theorem eachStep_reaches {state last : State} {events : List Event}
    (ran : run next state events = some last) :
    EachStep next state events fun middle _ => ∃ rest, run next middle rest = some last := by
  intro past event middle after isPast reached _
  obtain ⟨rest, rfl⟩ := (List.prefix_append past [event]).trans isPast
  rw [run_append, reached] at ran
  exact ⟨rest, ran⟩

/-- Conditions that agree on the steps that are possible. -/
theorem eachStep_congr {Left Right : State → Event → Prop} {state : State}
    (same : ∀ state event after, next state event = some after →
      (Left state event ↔ Right state event))
    (events : List Event) : EachStep next state events Left ↔ EachStep next state events Right := by
  constructor
  · intro each past event middle after isPast ran stepped
    exact (same middle event after stepped).mp (each past event middle after isPast ran stepped)
  · intro each past event middle after isPast ran stepped
    exact (same middle event after stepped).mpr (each past event middle after isPast ran stepped)

/-- A run that checks a condition before every event is a run, and the condition holds
before every event. -/
theorem eachStep_of_checked_run {check : State → Event → Bool} {state after : State}
    {events : List Event}
    (ran : run (fun state event => if check state event then next state event else none) state
      events = some after) :
    run next state events = some after ∧
      EachStep next state events fun state event => check state event = true := by
  induction events generalizing state with
  | nil => exact ⟨ran, eachStep_nil⟩
  | cons event events inductionHypothesis =>
      obtain ⟨middle, stepped, rest⟩ := run_cons ran
      split at stepped
      · next checked =>
        obtain ⟨ranRest, each⟩ := inductionHypothesis rest
        exact ⟨(run_cons_of_next stepped events).trans ranRest,
          eachStep_cons stepped checked each⟩
      · cases stepped

/-- **Laws with a sufficient condition.** What every step that meets the condition
keeps holds all along a run whose steps all meet it. -/
theorem always_of_eachStep {Invariant : State → Prop} {Condition : State → Event → Prop}
    {state : State} (invariant : Invariant state)
    (kept : ∀ state event after, Invariant state → Condition state event →
      next state event = some after → Invariant after)
    {events : List Event} (each : EachStep next state events Condition) :
    Always next state events Invariant := by
  induction events using List.reverseRecOn with
  | nil => exact always_nil.mpr invariant
  | append_singleton events event inductionHypothesis =>
      obtain ⟨early, last⟩ := eachStep_concat.mp each
      have always := inductionHypothesis early
      refine always_concat.mpr ⟨always, fun after ran => ?_⟩
      obtain ⟨middle, middleRan, stepped⟩ := run_concat.mp ran
      exact kept middle event after (always events middle List.prefix_rfl middleRan)
        (last middle after middleRan stepped) stepped

/-- **Laws with an exact condition.** Suppose that, from a state that meets the
invariant and the law, a step keeps the invariant, and keeps the law exactly
when the condition holds. Then the law holds all along a run if and only if
the condition holds at each of its steps. -/
theorem always_iff_eachStep (Invariant : State → Prop) {Law : State → Prop}
    {Condition : State → Event → Prop} {state : State} (invariant : Invariant state)
    (law : Law state)
    (step : ∀ state event after, Invariant state → Law state → next state event = some after →
      Invariant after ∧ (Law after ↔ Condition state event))
    (events : List Event) :
    Always next state events Law ↔ EachStep next state events Condition := by
  have both : (Always next state events Law ↔ EachStep next state events Condition) ∧
      (Always next state events Law → ∀ after, run next state events = some after →
        Invariant after ∧ Law after) := by
    induction events using List.reverseRecOn with
    | nil =>
        refine ⟨⟨fun _ => eachStep_nil, fun _ => always_nil.mpr law⟩, fun _ after ran => ?_⟩
        obtain rfl := Option.some.inj ran
        exact ⟨invariant, law⟩
    | append_singleton events event inductionHypothesis =>
        obtain ⟨equivalent, reached⟩ := inductionHypothesis
        rw [always_concat, eachStep_concat]
        refine ⟨⟨?_, ?_⟩, ?_⟩
        · rintro ⟨early, last⟩
          refine ⟨equivalent.mp early, fun middle after ran stepped => ?_⟩
          obtain ⟨middleInvariant, middleLaw⟩ := reached early middle ran
          exact (step middle event after middleInvariant middleLaw stepped).2.mp
            (last after (run_concat.mpr ⟨middle, ran, stepped⟩))
        · rintro ⟨early, last⟩
          have always := equivalent.mpr early
          refine ⟨always, fun after ran => ?_⟩
          obtain ⟨middle, middleRan, stepped⟩ := run_concat.mp ran
          obtain ⟨middleInvariant, middleLaw⟩ := reached always middle middleRan
          exact (step middle event after middleInvariant middleLaw stepped).2.mpr
            (last middle after middleRan stepped)
        · rintro ⟨early, last⟩ after ran
          obtain ⟨middle, middleRan, stepped⟩ := run_concat.mp ran
          obtain ⟨middleInvariant, middleLaw⟩ := reached early middle middleRan
          exact ⟨(step middle event after middleInvariant middleLaw stepped).1, last after ran⟩
  exact both.1

/-! ### Histories -/

/-- **Held since.** When an event makes a state have something by giving it, or by
not taking it from a state that has it, then the state at the end of a history has
it exactly when some event gave it and no later one took it. -/
theorem has_foldl_iff {next : State → Event → State} (Has : State → Prop)
    (Gives : State → Event → Prop) (Takes : Event → Prop)
    (step : ∀ state event, Has (next state event) ↔ Gives state event ∨ Has state ∧ ¬Takes event)
    {state : State} (without : ¬Has state) (events : List Event) :
    Has (events.foldl next state) ↔
      ∃ before event later, events = before ++ event :: later ∧
        Gives (before.foldl next state) event ∧ ∀ other ∈ later, ¬Takes other := by
  induction events using List.reverseRecOn with
  | nil =>
      refine iff_of_false without ?_
      intro ⟨before, event, later, isNil, _⟩
      simp at isNil
  | append_singleton events last inductionHypothesis =>
      rw [List.foldl_append, List.foldl_cons, List.foldl_nil, step, inductionHypothesis]
      constructor
      · intro has
        cases has with
        | inl gives => exact ⟨events, last, [], rfl, gives, fun other none => by cases none⟩
        | inr kept =>
            obtain ⟨⟨before, event, later, rfl, gives, notTaken⟩, stays⟩ := kept
            refine ⟨before, event, later ++ [last], by simp, gives, ?_⟩
            intro other member
            rcases List.mem_append.mp member with early | isLast
            · exact notTaken other early
            · rwa [List.mem_singleton.mp isLast]
      · intro ⟨before, event, later, isEvents, gives, notTaken⟩
        rcases List.eq_nil_or_concat later with rfl | ⟨early, other, rfl⟩
        · obtain ⟨rfl, isLast⟩ := List.append_inj' isEvents rfl
          obtain rfl := List.singleton_inj.mp isLast
          exact .inl gives
        · rw [List.concat_eq_append] at isEvents notTaken
          rw [← List.cons_append, ← List.append_assoc] at isEvents
          obtain ⟨rfl, isLast⟩ := List.append_inj' isEvents rfl
          obtain rfl := List.singleton_inj.mp isLast
          refine .inr ⟨⟨before, event, early, rfl, gives, ?_⟩, notTaken last (by simp)⟩
          exact fun other member => notTaken other (List.mem_append_left _ member)

/-! ### Simulation -/

section Simulation

variable {Abstract : Type} (apply : Abstract → Event → Abstract) (Admits : Abstract → Event → Prop)

/-- Every event is admitted by the abstract state before it. -/
def Admitted : Abstract → List Event → Prop
  | _, [] => True
  | abstract, event :: events => Admits abstract event ∧ Admitted (apply abstract event) events

variable {apply Admits}

/-- **Simulation.** When every admitted event is possible and is matched by the
abstract one, every admitted run is possible and ends in a state that
represents the abstract one. -/
theorem run_simulates {Represents : State → Abstract → Prop}
    (step : ∀ state abstract event, Represents state abstract → Admits abstract event →
      ∃ after, next state event = some after ∧ Represents after (apply abstract event))
    {events : List Event} {state : State} {abstract : Abstract}
    (represents : Represents state abstract) (admitted : Admitted apply Admits abstract events) :
    ∃ after, run next state events = some after ∧ Represents after (events.foldl apply abstract) := by
  induction events generalizing state abstract with
  | nil => exact ⟨state, rfl, represents⟩
  | cons event events inductionHypothesis =>
      obtain ⟨middle, stepped, kept⟩ := step state abstract event represents admitted.1
      rw [run_cons_of_next stepped]
      exact inductionHypothesis kept admitted.2

end Simulation

end FProto.Foundation

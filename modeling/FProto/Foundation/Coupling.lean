import FProto.Foundation.Guarantee

/-!
Owns two systems that run side by side and share what one of them produces, and
what a finished thread is known to have done.

An event of a coupled system belongs to one side. Its guard may read both
states, and this is how one side depends on the other. Every coupled run is a
run of each side on its own events, so whatever was proved about one side alone
holds in the coupled system.
-/

namespace FProto.Foundation

/-! ### Coupled systems -/

section Coupling

variable {Left Right LeftEvent RightEvent : Type}

/-- One event of two systems side by side; `none` when its guard refuses it or it
is not possible on its side. -/
def coupled (left : Left → LeftEvent → Option Left) (right : Right → RightEvent → Option Right)
    (guard : Left → Right → LeftEvent ⊕ RightEvent → Bool) (both : Left × Right) :
    LeftEvent ⊕ RightEvent → Option (Left × Right)
  | .inl event =>
      if guard both.1 both.2 (.inl event) then
        (left both.1 event).map fun state => (state, both.2)
      else none
  | .inr event =>
      if guard both.1 both.2 (.inr event) then
        (right both.2 event).map fun state => (both.1, state)
      else none

variable {left : Left → LeftEvent → Option Left} {right : Right → RightEvent → Option Right}
  {guard : Left → Right → LeftEvent ⊕ RightEvent → Bool} {both after : Left × Right}

/-- An event moves one side and leaves the other alone. -/
theorem coupled_cases {event : LeftEvent ⊕ RightEvent}
    (stepped : coupled left right guard both event = some after) :
    (∃ own state, event = .inl own ∧ guard both.1 both.2 (.inl own) = true ∧
      left both.1 own = some state ∧ after = (state, both.2)) ∨
    (∃ own state, event = .inr own ∧ guard both.1 both.2 (.inr own) = true ∧
      right both.2 own = some state ∧ after = (both.1, state)) := by
  cases event with
  | inl own =>
      simp only [coupled] at stepped
      split at stepped
      · next admitted =>
        obtain ⟨state, moved, rfl⟩ := Option.map_eq_some_iff.mp stepped
        exact .inl ⟨own, state, rfl, admitted, moved, rfl⟩
      · cases stepped
  | inr own =>
      simp only [coupled] at stepped
      split at stepped
      · next admitted =>
        obtain ⟨state, moved, rfl⟩ := Option.map_eq_some_iff.mp stepped
        exact .inr ⟨own, state, rfl, admitted, moved, rfl⟩
      · cases stepped

/-- **A coupled run is a run of its left side.** -/
theorem run_coupled_left {events : List (LeftEvent ⊕ RightEvent)}
    (ran : run (coupled left right guard) both events = some after) :
    run left both.1 (events.filterMap Sum.getLeft?) = some after.1 := by
  induction events generalizing both with
  | nil =>
      obtain rfl := Option.some.inj ran
      rfl
  | cons event events inductionHypothesis =>
      obtain ⟨middle, stepped, rest⟩ := run_cons ran
      rcases coupled_cases stepped with
        ⟨own, state, rfl, -, moved, rfl⟩ | ⟨own, state, rfl, -, -, rfl⟩
      · simp only [List.filterMap_cons, Sum.getLeft?_inl]
        rw [run_cons_of_next moved]
        exact inductionHypothesis rest
      · simp only [List.filterMap_cons, Sum.getLeft?_inr]
        exact @inductionHypothesis (both.1, state) rest

/-- **A coupled run is a run of its right side.** -/
theorem run_coupled_right {events : List (LeftEvent ⊕ RightEvent)}
    (ran : run (coupled left right guard) both events = some after) :
    run right both.2 (events.filterMap Sum.getRight?) = some after.2 := by
  induction events generalizing both with
  | nil =>
      obtain rfl := Option.some.inj ran
      rfl
  | cons event events inductionHypothesis =>
      obtain ⟨middle, stepped, rest⟩ := run_cons ran
      rcases coupled_cases stepped with
        ⟨own, state, rfl, -, -, rfl⟩ | ⟨own, state, rfl, -, moved, rfl⟩
      · simp only [List.filterMap_cons, Sum.getRight?_inl]
        exact @inductionHypothesis (state, both.2) rest
      · simp only [List.filterMap_cons, Sum.getRight?_inr]
        rw [run_cons_of_next moved]
        exact inductionHypothesis rest

end Coupling

/-! ### Invariants of pools -/

section Pools

variable {Command : Type} {Reply : Command → Type} {Result State Choice Call : Type}
  {system : System Command Reply Result State Choice Call}
  {pool after : Pool Command Reply Result State Call}

namespace Pool

/-- An invariant of the world that every command keeps, whoever issues it. -/
theorem world_invariant {Invariant : World Command Reply State → Prop}
    (kept : ∀ world thread command choice reply state, Invariant world →
      system.exec command choice world.state = some (reply, state) →
      Invariant (world.record thread command reply state))
    {events : List (Event Call Choice)} (holds : Invariant pool.world)
    (ran : pool.run system events = some after) : Invariant after.world := by
  have step : ∀ (before : Pool Command Reply Result State Call) event next,
      Invariant before.world → before.next system event = some next → Invariant next.world := by
    intro before event next holds stepped
    rcases next_cases stepped with
      ⟨_, -, -, rfl⟩ | ⟨_, _, _, _, _, _, _, -, -, executed, rfl⟩ | ⟨_, _, _, _, -, -, rfl⟩
    · exact holds
    · exact kept _ _ _ _ _ _ holds executed
    · exact holds
  exact run_invariant step holds ran

/-- A call that runs after an event ran before, or has just been admitted. -/
theorem call_of_mem_next {event : Event Call Choice}
    {thread : Thread Command Reply Result Call} (stepped : pool.next system event = some after)
    (member : thread ∈ after.threads) :
    (∃ old ∈ pool.threads, old.call = thread.call) ∨
      event = .spawn thread.call ∧ system.admits thread.call pool.world.state = true := by
  rcases next_cases stepped with
    ⟨call, rfl, isAdmitted, rfl⟩ | ⟨_, _, _, _, _, _, _, -, found, -, rfl⟩ |
    ⟨_, _, _, _, -, found, rfl⟩
  · rcases List.mem_append.mp member with old | new
    · exact .inl ⟨thread, old, rfl⟩
    · obtain rfl := List.mem_singleton.mp new
      exact .inr ⟨rfl, isAdmitted⟩
  · rcases List.mem_or_eq_of_mem_set member with old | rfl
    · exact .inl ⟨thread, old, rfl⟩
    · exact .inl ⟨_, List.mem_of_getElem? found, rfl⟩
  · rcases List.mem_or_eq_of_mem_set member with old | rfl
    · exact .inl ⟨thread, old, rfl⟩
    · exact .inl ⟨_, List.mem_of_getElem? found, rfl⟩

/-- Every call that runs was admitted, and what admitted it still holds. -/
theorem calls_invariant {Holds : Call → State → Prop}
    (admitted : ∀ call state, system.admits call state = true → Holds call state)
    (stable : ∀ call command choice state reply later, Holds call state →
      system.exec command choice state = some (reply, later) → Holds call later)
    {events : List (Event Call Choice)}
    (holds : ∀ thread ∈ pool.threads, Holds thread.call pool.world.state)
    (ran : pool.run system events = some after) :
    ∀ thread ∈ after.threads, Holds thread.call after.world.state := by
  have step : ∀ (before : Pool Command Reply Result State Call) event next,
      (∀ thread ∈ before.threads, Holds thread.call before.world.state) →
      before.next system event = some next →
      ∀ thread ∈ next.threads, Holds thread.call next.world.state := by
    intro before event next holds stepped thread member
    have kept : ∀ call, Holds call before.world.state → Holds call next.world.state := by
      intro call held
      rcases next_cases stepped with
        ⟨_, -, -, rfl⟩ | ⟨_, _, _, _, _, _, _, -, -, executed, rfl⟩ | ⟨_, _, _, _, -, -, rfl⟩
      · exact held
      · exact stable _ _ _ _ _ _ held executed
      · exact held
    rcases call_of_mem_next stepped member with ⟨old, isOld, same⟩ | ⟨-, isAdmitted⟩
    · exact same ▸ kept _ (holds old isOld)
    · exact kept _ (admitted _ _ isAdmitted)
  exact run_invariant step holds ran

/-- What is true of the code of every call, and stays true of what is left of it after
each reply, is true of every program that runs. -/
theorem programs_invariant {Holds : Call → Program Command Reply Result → Prop}
    (code : ∀ call, Holds call (system.code call))
    (rest : ∀ call command following, Holds call (.call command following) →
      ∀ reply, Holds call (following reply))
    {event : Event Call Choice} (holds : ∀ thread ∈ pool.threads, Holds thread.call thread.program)
    (stepped : pool.next system event = some after) :
    ∀ thread ∈ after.threads, Holds thread.call thread.program := by
  intro thread member
  rcases next_cases stepped with
    ⟨call, -, -, rfl⟩ | ⟨_, _, call, command, following, reply, _, -, located, -, rfl⟩ |
    ⟨_, call, program, running, -, located, rfl⟩
  · rcases List.mem_append.mp member with old | new
    · exact holds thread old
    · obtain rfl := List.mem_singleton.mp new
      exact code call
  · rcases List.mem_or_eq_of_mem_set member with old | rfl
    · exact holds thread old
    · exact rest _ _ _ (holds _ (List.mem_of_getElem? located)) reply
  · rcases List.mem_or_eq_of_mem_set member with old | rfl
    · exact holds thread old
    · exact holds ⟨call, program, running⟩ (List.mem_of_getElem? located)

/-- A run from the empty pool keeps every guarantee. -/
theorem run_obeying {Allows : Call → List (Executed Command Reply) → Command → Prop}
    (codeObeys : ∀ call, (system.code call).Obeys (Allows call) (fun _ _ => True) [])
    {state : State} {events : List (Event Call Choice)}
    (ran : (start state).run system events = some after) : after.Obeying Allows :=
  run_invariant (fun _ _ _ obeying stepped => Obeying.next codeObeys obeying stepped)
    (start_obeying state) ran

/-- The call that issued an entry of the trace, and what it had executed before. -/
theorem Obeying.issuer {Allows : Call → List (Executed Command Reply) → Command → Prop}
    (obeying : pool.Obeying Allows) {entry : Entry Command Reply}
    (member : entry ∈ pool.world.trace) :
    ∃ thread past, pool.threads[entry.thread]? = some thread ∧ past <+: pool.world.trace ∧
      Allows thread.call (ownPast past entry.thread) entry.command := by
  obtain ⟨past, rest, split⟩ := List.append_of_mem member
  obtain ⟨thread, found, allowed⟩ := obeying.entries past entry ⟨rest, by rw [split]; simp⟩
  exact ⟨thread, past, found, ⟨entry :: rest, split.symm⟩, allowed⟩

end Pool

/-! ### What finished threads did -/

/-- The result of a thread that has finished. -/
def Thread.result? (thread : Thread Command Reply Result Call) : Option Result :=
  match thread.program with
  | .done result => some result
  | .call _ _ => none

theorem Thread.result?_eq_some {thread : Thread Command Reply Result Call} {result : Result}
    (finished : thread.result? = some result) : thread.program = .done result := by
  unfold Thread.result? at finished
  split at finished
  · next isDone => rw [isDone, Option.some.inj finished]
  · cases finished

namespace Pool

/-- The calls of one kind have all returned. -/
def Settled (Kind : Call → Prop) (pool : Pool Command Reply Result State Call) : Prop :=
  ∀ thread ∈ pool.threads, Kind thread.call → thread.result? ≠ none

section Settled

variable {Kind : Call → Prop}

/-- They issue nothing any more. -/
theorem Settled.not_kind (settled : pool.Settled Kind) {index : Nat} {call : Call}
    {command : Command} {following : Reply command → Program Command Reply Result} {running : Bool}
    (found : pool.threads[index]? = some ⟨call, .call command following, running⟩) : ¬Kind call :=
  fun kind => settled _ (List.mem_of_getElem? found) kind rfl

/-- They stay so unless another one begins. -/
theorem Settled.next (settled : pool.Settled Kind) {event : Event Call Choice}
    (quiet : ∀ call, event = .spawn call → ¬Kind call)
    (stepped : pool.next system event = some after) : after.Settled Kind := by
  intro thread member kind
  rcases next_cases stepped with
    ⟨call, rfl, -, rfl⟩ | ⟨_, _, call, _, _, _, _, rfl, located, -, rfl⟩ |
    ⟨_, call, program, running, rfl, located, rfl⟩
  · rcases List.mem_append.mp member with old | new
    · exact settled thread old kind
    · obtain rfl := List.mem_singleton.mp new
      exact absurd kind (quiet call rfl)
  · rcases List.mem_or_eq_of_mem_set member with old | rfl
    · exact settled thread old kind
    · exact absurd kind (settled.not_kind located)
  · rcases List.mem_or_eq_of_mem_set member with old | rfl
    · exact settled thread old kind
    · exact settled ⟨call, program, running⟩ (List.mem_of_getElem? located) kind

end Settled

/-- Every thread will meet the promise of its call with the commands that it
executed. -/
structure Promised (Meets : Call → Result → List (Executed Command Reply) → Prop)
    (pool : Pool Command Reply Result State Call) : Prop where
  spawned : ∀ entry ∈ pool.world.trace, entry.thread < pool.threads.length
  programs : ∀ (index : Nat) (thread : Thread Command Reply Result Call),
    pool.threads[index]? = some thread →
    thread.program.Obeys (fun _ _ => True) (Meets thread.call) (ownPast pool.world.trace index)

variable {Meets : Call → Result → List (Executed Command Reply) → Prop}

theorem start_promised (state : State) :
    (start state : Pool Command Reply Result State Call).Promised Meets where
  spawned _ member := absurd member List.not_mem_nil
  programs index thread found := by simp [start] at found

/-- One event keeps every promise. -/
theorem Promised.next
    (codeMeets : ∀ call, (system.code call).Obeys (fun _ _ => True) (Meets call) [])
    (promised : pool.Promised Meets) {event : Event Call Choice}
    (stepped : pool.next system event = some after) : after.Promised Meets := by
  rcases next_cases stepped with
    ⟨call, rfl, -, rfl⟩ |
    ⟨active, choice, call, command, following, reply, state, rfl, located, -, rfl⟩ |
    ⟨stopped, call, program, running, rfl, located, rfl⟩
  · refine ⟨fun entry member => ?_, fun index thread found => ?_⟩
    · rw [List.length_append]
      exact Nat.lt_add_right _ (promised.spawned entry member)
    · rcases getElem?_concat_cases found with old | ⟨rfl, rfl⟩
      · exact promised.programs index thread old
      · rw [ownPast_eq_nil promised.spawned]
        exact codeMeets call
  · refine ⟨fun entry member => ?_, fun index thread found => ?_⟩
    · rw [List.length_set]
      rcases List.mem_append.mp member with old | new
      · exact promised.spawned entry old
      · obtain rfl := List.mem_singleton.mp new
        exact (List.getElem?_eq_some_iff.mp located).1
    · rcases getElem?_set_cases found with ⟨rfl, rfl⟩ | ⟨different, old⟩
      · rw [World.record_trace, ownPast_concat_self]
        exact (promised.programs active _ located).2 reply
      · rw [World.record_trace, ownPast_concat_of_ne _ different]
        exact promised.programs index thread old
  · refine ⟨fun entry member => ?_, fun index thread found => ?_⟩
    · rw [List.length_set]
      exact promised.spawned entry member
    · rcases getElem?_set_cases found with ⟨rfl, rfl⟩ | ⟨-, old⟩
      · exact promised.programs stopped ⟨call, program, running⟩ located
      · exact promised.programs index thread old

/-- **Finished threads.** In every state of every schedule a finished thread has
met the promise of its call. -/
theorem finished_meets
    (codeMeets : ∀ call, (system.code call).Obeys (fun _ _ => True) (Meets call) [])
    {state : State} {events : List (Event Call Choice)}
    (ran : (start state).run system events = some after) {index : Nat}
    {thread : Thread Command Reply Result Call} (found : after.threads[index]? = some thread)
    {result : Result} (finished : thread.program = .done result) :
    Meets thread.call result (ownPast after.world.trace index) := by
  have promised : after.Promised Meets :=
    run_invariant (fun _ _ _ promised stepped => Promised.next codeMeets promised stepped)
      (start_promised state) ran
  have meets := promised.programs index thread found
  rw [finished] at meets
  exact meets

end Pool

end Pools

end FProto.Foundation

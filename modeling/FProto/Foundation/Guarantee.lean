import FProto.Foundation.Execution

/-!
Owns guarantees of a thread that only concern its own commands: which command a
program may issue after which of its own commands and replies, and the rule
that every thread of every reachable pool keeps the guarantee of its call.

Nothing is assumed about the other threads, so a program is checked alone,
against every reply.
-/

namespace FProto.Foundation

variable {Command : Type} {Reply : Command → Type} {Result Value Next State Choice Call : Type}

/-! ### Programs -/

/-- Every command is allowed after those the program executed before it, whatever
the replies were, and the result meets `post`. -/
def Program.Obeys (Allows : List (Executed Command Reply) → Command → Prop)
    (post : Value → List (Executed Command Reply) → Prop) :
    Program Command Reply Value → List (Executed Command Reply) → Prop
  | .done result, past => post result past
  | .call command next, past =>
      Allows past command ∧ ∀ reply, (next reply).Obeys Allows post (past ++ [⟨command, reply⟩])

/-- Sequential composition. -/
theorem Program.Obeys.bind {Allows : List (Executed Command Reply) → Command → Prop}
    {middle : Value → List (Executed Command Reply) → Prop}
    {post : Next → List (Executed Command Reply) → Prop} {program : Program Command Reply Value}
    {rest : Value → Program Command Reply Next} {past : List (Executed Command Reply)}
    (first : program.Obeys Allows middle past)
    (following : ∀ result past, middle result past → (rest result).Obeys Allows post past) :
    (program >>= rest).Obeys Allows post past := by
  induction program generalizing past with
  | done result => exact following result past first
  | call command next inductionHypothesis =>
      exact ⟨first.1, fun reply => inductionHypothesis reply (first.2 reply)⟩

/-! ### Traces -/

/-- An entry of a longer trace is the last one, or was there before. -/
theorem concat_eq_append_cons {Value : Type} {trace earlier later : List Value} {last first : Value}
    (same : trace ++ [last] = earlier ++ first :: later) :
    (later = [] ∧ trace = earlier ∧ last = first) ∨
      ∃ before, later = before ++ [last] ∧ trace = earlier ++ first :: before := by
  rcases List.eq_nil_or_concat later with rfl | ⟨before, other, rfl⟩
  · obtain ⟨sameTrace, sameEntry⟩ := List.append_inj' same rfl
    exact .inl ⟨rfl, sameTrace, List.singleton_inj.mp sameEntry⟩
  · rw [List.concat_eq_append, ← List.cons_append, ← List.append_assoc] at same
    obtain ⟨sameTrace, sameEntry⟩ := List.append_inj' same rfl
    obtain rfl := List.singleton_inj.mp sameEntry
    exact .inr ⟨before, List.concat_eq_append, sameTrace⟩

/-- The commands of one thread in a trace. -/
def ownPast (trace : List (Entry Command Reply)) (thread : Nat) : List (Executed Command Reply) :=
  (trace.filter fun entry => entry.thread == thread).map fun entry => ⟨entry.command, entry.reply⟩

theorem ownPast_concat_self (trace : List (Entry Command Reply)) (thread : Nat) (command : Command)
    (reply : Reply command) :
    ownPast (trace ++ [⟨thread, command, reply⟩]) thread =
      ownPast trace thread ++ [⟨command, reply⟩] := by
  simp [ownPast, List.filter_append]

theorem ownPast_concat_of_ne (trace : List (Entry Command Reply)) {thread other : Nat}
    (different : thread ≠ other) (command : Command) (reply : Reply command) :
    ownPast (trace ++ [⟨thread, command, reply⟩]) other = ownPast trace other := by
  simp [ownPast, List.filter_append, different]

theorem mem_ownPast {trace : List (Entry Command Reply)} {thread : Nat} {command : Command}
    {reply : Reply command} :
    ⟨command, reply⟩ ∈ ownPast trace thread ↔ ⟨thread, command, reply⟩ ∈ trace := by
  simp only [ownPast, List.mem_map, List.mem_filter, beq_iff_eq]
  constructor
  · rintro ⟨⟨owner, issued, answer⟩, ⟨member, rfl⟩, same⟩
    cases same
    exact member
  · intro member
    exact ⟨_, ⟨member, rfl⟩, rfl⟩

theorem ownPast_eq_nil {trace : List (Entry Command Reply)} {thread : Nat}
    (foreign : ∀ entry ∈ trace, entry.thread < thread) : ownPast trace thread = [] := by
  simp only [ownPast, List.map_eq_nil_iff, List.filter_eq_nil_iff, beq_iff_eq]
  exact fun entry member => Nat.ne_of_lt (foreign entry member)

/-! ### Pools -/

/-- Every thread keeps the guarantee of its call from now on, and kept it with
every command in the trace. -/
structure Pool.Obeying (Allows : Call → List (Executed Command Reply) → Command → Prop)
    (pool : Pool Command Reply Result State Call) : Prop where
  programs : ∀ (index : Nat) (thread : Thread Command Reply Result Call),
    pool.threads[index]? = some thread →
    thread.program.Obeys (Allows thread.call) (fun _ _ => True) (ownPast pool.world.trace index)
  entries : ∀ past entry, past ++ [entry] <+: pool.world.trace →
    ∃ thread : Thread Command Reply Result Call, pool.threads[entry.thread]? = some thread ∧
      Allows thread.call (ownPast past entry.thread) entry.command

namespace Pool

variable {Allows : Call → List (Executed Command Reply) → Command → Prop}
  {system : System Command Reply Result State Choice Call}
  {pool after : Pool Command Reply Result State Call}

theorem Obeying.spawned (obeying : pool.Obeying Allows) :
    ∀ entry ∈ pool.world.trace, entry.thread < pool.threads.length := by
  intro entry member
  obtain ⟨past, rest, split⟩ := List.append_of_mem member
  obtain ⟨thread, found, -⟩ := obeying.entries past entry ⟨rest, by rw [split]; simp⟩
  exact (List.getElem?_eq_some_iff.mp found).1

/-- The next command of a running thread is allowed. -/
theorem Obeying.allows (obeying : pool.Obeying Allows) {index : Nat} {call : Call}
    {command : Command} {following : Reply command → Program Command Reply Result} {running : Bool}
    (found : pool.threads[index]? = some ⟨call, .call command following, running⟩) :
    Allows call (ownPast pool.world.trace index) command :=
  (obeying.programs index _ found).1

theorem start_obeying (state : State) :
    (start state : Pool Command Reply Result State Call).Obeying Allows where
  programs index thread found := by simp [start] at found
  entries past entry isPast := absurd isPast.length_le (by simp [start])

/-- A trace only grows. -/
theorem trace_of_next {event : Event Call Choice} (stepped : pool.next system event = some after) :
    pool.world.trace <+: after.world.trace := by
  rcases next_cases stepped with
    ⟨_, -, -, rfl⟩ | ⟨_, _, _, _, _, _, _, -, -, -, rfl⟩ | ⟨_, _, _, _, -, -, rfl⟩
  · exact List.prefix_rfl
  · exact List.prefix_append _ _
  · exact List.prefix_rfl

theorem trace_of_run {events : List (Event Call Choice)} (ran : pool.run system events = some after) :
    pool.world.trace <+: after.world.trace := by
  have kept : ∀ (state : Pool Command Reply Result State Call) (event : Event Call Choice) next,
      pool.world.trace <+: state.world.trace → state.next system event = some next →
      pool.world.trace <+: next.world.trace :=
    fun _ _ _ longer stepped => longer.trans (trace_of_next stepped)
  exact run_invariant kept List.prefix_rfl ran

theorem trace_of_prefix {past events : List (Event Call Choice)}
    {early : Pool Command Reply Result State Call} (isPast : past <+: events)
    (reached : pool.run system past = some early) (ran : pool.run system events = some after) :
    early.world.trace <+: after.world.trace := by
  obtain ⟨rest, rfl⟩ := isPast
  rw [Pool.run, run_append] at ran
  rw [Pool.run] at reached
  rw [reached, Option.bind_some] at ran
  exact trace_of_run ran

/-- Every prefix of a trace was the trace after some of the events. -/
theorem exists_past_of_trace {events : List (Event Call Choice)} {early : List (Entry Command Reply)}
    (ran : pool.run system events = some after) (grown : pool.world.trace <+: early)
    (isPast : early <+: after.world.trace) :
    ∃ past middle, past <+: events ∧ pool.run system past = some middle ∧
      middle.world.trace = early := by
  induction events using List.reverseRecOn generalizing after with
  | nil =>
      obtain rfl := Option.some.inj ran
      exact ⟨[], pool, List.prefix_rfl, rfl, grown.eq_of_length_le isPast.length_le⟩
  | append_singleton events event inductionHypothesis =>
      obtain ⟨middle, middleRan, stepped⟩ := run_concat.mp ran
      have earlier : early <+: middle.world.trace → ∃ past middle, past <+: events ++ [event] ∧
          pool.run system past = some middle ∧ middle.world.trace = early := by
        intro isEarly
        obtain ⟨past, reached, isPast, reaches, same⟩ := inductionHypothesis middleRan isEarly
        exact ⟨past, reached, isPast.trans (List.prefix_append _ _), reaches, same⟩
      rcases next_cases stepped with
        ⟨_, -, -, rfl⟩ | ⟨_, _, _, _, _, _, _, -, -, -, rfl⟩ | ⟨_, _, _, _, -, -, rfl⟩
      · exact earlier isPast
      · rcases List.prefix_concat_iff.mp isPast with rfl | isEarly
        · exact ⟨_, _, List.prefix_rfl, ran, rfl⟩
        · exact earlier isEarly
      · exact earlier isPast

/-- A thread keeps its call. -/
theorem call_of_next {index : Nat} {thread : Thread Command Reply Result Call}
    {event : Event Call Choice} (found : pool.threads[index]? = some thread)
    (stepped : pool.next system event = some after) :
    ∃ later, after.threads[index]? = some later ∧ later.call = thread.call := by
  have below : index < pool.threads.length := (List.getElem?_eq_some_iff.mp found).1
  have replaced : ∀ (other : Nat) (changed : Thread Command Reply Result Call),
      (∀ old, pool.threads[other]? = some old → changed.call = old.call) →
      ∃ later, (pool.threads.set other changed)[index]? = some later ∧
        later.call = thread.call := by
    intro other changed sameCall
    by_cases same : other = index
    · subst same
      exact ⟨changed, List.getElem?_set_self below, sameCall thread found⟩
    · exact ⟨thread, by rw [List.getElem?_set_ne same, found], rfl⟩
  rcases next_cases stepped with
    ⟨call, rfl, -, rfl⟩ |
    ⟨active, choice, call, command, following, reply, state, rfl, located, -, rfl⟩ |
    ⟨stopped, call, program, running, rfl, located, rfl⟩
  · exact ⟨thread, by rw [List.getElem?_append_left below, found], rfl⟩
  · refine replaced active _ fun old isOld => ?_
    rw [located] at isOld
    cases isOld
    rfl
  · refine replaced stopped _ fun old isOld => ?_
    rw [located] at isOld
    cases isOld
    rfl

/-- One event keeps every guarantee. -/
theorem Obeying.next
    (codeObeys : ∀ call, (system.code call).Obeys (Allows call) (fun _ _ => True) [])
    (obeying : pool.Obeying Allows) {event : Event Call Choice}
    (stepped : pool.next system event = some after) : after.Obeying Allows := by
  have earlier : ∀ past entry, past ++ [entry] <+: pool.world.trace →
      ∃ thread, after.threads[entry.thread]? = some thread ∧
        Allows thread.call (ownPast past entry.thread) entry.command := by
    intro past entry isPast
    obtain ⟨thread, found, allowed⟩ := obeying.entries past entry isPast
    obtain ⟨later, located, sameCall⟩ := call_of_next found stepped
    exact ⟨later, located, sameCall ▸ allowed⟩
  rcases next_cases stepped with
    ⟨call, rfl, -, rfl⟩ |
    ⟨active, choice, call, command, following, reply, state, rfl, located, -, rfl⟩ |
    ⟨stopped, call, program, running, rfl, located, rfl⟩
  · refine ⟨fun index thread found => ?_, earlier⟩
    rcases getElem?_concat_cases found with old | ⟨rfl, rfl⟩
    · exact obeying.programs index thread old
    · rw [ownPast_eq_nil obeying.spawned]
      exact codeObeys call
  · have activeBelow : active < pool.threads.length := (List.getElem?_eq_some_iff.mp located).1
    obtain ⟨allowed, rest⟩ := obeying.programs active _ located
    refine ⟨fun index thread found => ?_, fun past entry isPast => ?_⟩
    · rcases getElem?_set_cases found with ⟨rfl, rfl⟩ | ⟨different, old⟩
      · rw [World.record_trace, ownPast_concat_self]
        exact rest reply
      · rw [World.record_trace, ownPast_concat_of_ne _ different]
        exact obeying.programs index thread old
    · rcases List.prefix_concat_iff.mp isPast with isLast | isEarly
      · obtain ⟨rfl, isEntry⟩ := List.append_inj' isLast rfl
        obtain rfl := List.singleton_inj.mp isEntry
        exact ⟨_, List.getElem?_set_self activeBelow, allowed⟩
      · exact earlier past entry isEarly
  · refine ⟨fun index thread found => ?_, earlier⟩
    rcases getElem?_set_cases found with ⟨rfl, rfl⟩ | ⟨-, old⟩
    · exact obeying.programs stopped ⟨call, program, running⟩ located
    · exact obeying.programs index thread old

end Pool

end FProto.Foundation

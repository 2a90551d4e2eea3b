import FProto.Foundation.Run
import Mathlib.Data.List.Basic

/-!
Owns programs that issue atomic commands, their uninterrupted runs, and pools
of threads whose commands interleave in any order.

A `Program` is a tree of commands and replies, so the code of one call is
written once and both semantics are read off it: `Program.run` executes it
alone, `Pool.run` lets every thread of a pool advance one command at a time,
stop between two commands, and be joined by new threads. The trace of a pool
records every command with its reply, in order.

The proof rule is `Pool.run_sound`: an invariant of the shared world, kept by
every command of every program under the facts its own thread has gathered,
holds in every state of every schedule.
-/

namespace FProto.Foundation

/-- A program that issues atomic commands and continues with their replies. -/
inductive Program (Command : Type) (Reply : Command → Type) (Result : Type) where
  | done (result : Result)
  | call (command : Command) (next : Reply command → Program Command Reply Result)

namespace Program

variable {Command : Type} {Reply : Command → Type} {Result Next : Type}

/-- Continue a program with the program its result selects. -/
def bind : Program Command Reply Result → (Result → Program Command Reply Next) →
    Program Command Reply Next
  | .done result, rest => rest result
  | .call command next, rest => .call command fun reply => (next reply).bind rest

instance : Monad (Program Command Reply) where
  pure := .done
  bind := bind

@[simp] theorem pure_eq_done (result : Result) :
    (pure result : Program Command Reply Result) = .done result := rfl

@[simp] theorem done_bind (result : Result) (rest : Result → Program Command Reply Next) :
    (Program.done result : Program Command Reply Result) >>= rest = rest result := rfl

@[simp] theorem call_bind (command : Command)
    (next : Reply command → Program Command Reply Result)
    (rest : Result → Program Command Reply Next) :
    Program.call command next >>= rest = .call command fun reply => next reply >>= rest := rfl

/-- The program that issues one command and returns its reply. -/
def issue (command : Command) : Program Command Reply (Reply command) :=
  .call command .done

@[simp] theorem issue_bind (command : Command)
    (rest : Reply command → Program Command Reply Next) :
    issue command >>= rest = .call command rest := rfl

/-- Run a program alone. Every command takes one choice from the list, which
settles whatever the environment decides about it. -/
def run {State Choice : Type}
    (exec : (command : Command) → Choice → State → Option (Reply command × State)) :
    Program Command Reply Result → List Choice → State → Option (Result × State)
  | .done result, _, state => some (result, state)
  | .call _ _, [], _ => none
  | .call command next, choice :: choices, state =>
      match exec command choice state with
      | none => none
      | some (reply, state) => (next reply).run exec choices state

section Run

variable {State Choice : Type}
  {exec : (command : Command) → Choice → State → Option (Reply command × State)}

@[simp] theorem run_done (result : Result) (choices : List Choice) (state : State) :
    (Program.done result : Program Command Reply Result).run exec choices state =
      some (result, state) := by
  unfold run
  rfl

/-- One executed command of an uninterrupted run. -/
theorem run_call {command : Command} {choice : Choice} {state after : State}
    {reply : Reply command} (executed : exec command choice state = some (reply, after))
    (next : Reply command → Program Command Reply Result) (choices : List Choice) :
    (Program.call command next).run exec (choice :: choices) state =
      (next reply).run exec choices after := by
  rw [run, executed]

end Run

end Program

/-! ### Pools of threads -/

/-- Calls with their code, and the effect of every command under every choice.
`admits` says in which states a call may begin. -/
structure System (Command : Type) (Reply : Command → Type)
    (Result State Choice Call : Type) where
  exec : (command : Command) → Choice → State → Option (Reply command × State)
  code : Call → Program Command Reply Result
  admits : Call → State → Bool

/-- One executed command. -/
structure Entry (Command : Type) (Reply : Command → Type) where
  thread : Nat
  command : Command
  reply : Reply command

/-- The shared state and everything that was executed on it, oldest first. -/
structure World (Command : Type) (Reply : Command → Type) (State : Type) where
  state : State
  trace : List (Entry Command Reply)

namespace World

variable {Command : Type} {Reply : Command → Type} {State : Type}

/-- The commands one thread executed. -/
def history (world : World Command Reply State) (thread : Nat) : List (Entry Command Reply) :=
  world.trace.filter fun entry => entry.thread == thread

/-- Append one executed command. -/
def record (world : World Command Reply State) (thread : Nat) (command : Command)
    (reply : Reply command) (state : State) : World Command Reply State where
  state := state
  trace := world.trace ++ [⟨thread, command, reply⟩]

@[simp] theorem record_state (world : World Command Reply State) (thread : Nat)
    (command : Command) (reply : Reply command) (state : State) :
    (world.record thread command reply state).state = state := rfl

@[simp] theorem record_trace (world : World Command Reply State) (thread : Nat)
    (command : Command) (reply : Reply command) (state : State) :
    (world.record thread command reply state).trace =
      world.trace ++ [⟨thread, command, reply⟩] := rfl

theorem history_record_self (world : World Command Reply State) (thread : Nat)
    (command : Command) (reply : Reply command) (state : State) :
    (world.record thread command reply state).history thread =
      world.history thread ++ [⟨thread, command, reply⟩] := by
  simp [history, List.filter_append]

theorem history_record_of_ne (world : World Command Reply State) {thread other : Nat}
    (different : other ≠ thread) (command : Command) (reply : Reply command) (state : State) :
    (world.record thread command reply state).history other = world.history other := by
  simp [history, List.filter_append, different.symm]

private theorem countP_filter_lt_succ (trace : List (Entry Command Reply)) (bound : Nat)
    (counted : Entry Command Reply → Bool) :
    (trace.filter fun entry => entry.thread < bound + 1).countP counted =
      (trace.filter fun entry => entry.thread < bound).countP counted +
        (trace.filter fun entry => entry.thread == bound).countP counted := by
  induction trace with
  | nil => rfl
  | cons entry trace inductionHypothesis =>
      simp only [List.filter_cons]
      rcases Nat.lt_trichotomy entry.thread bound with below | same | above
      · rw [if_pos (by simp; omega), if_pos (by simpa using below), if_neg (by simp; omega),
          List.countP_cons, List.countP_cons]
        omega
      · rw [if_pos (by simp; omega), if_neg (by simp; omega), if_pos (by simpa using same),
          List.countP_cons, List.countP_cons]
        omega
      · rw [if_neg (by simp; omega), if_neg (by simp; omega), if_neg (by simp; omega)]
        exact inductionHypothesis

private theorem exists_thread_bound (trace : List (Entry Command Reply)) :
    ∃ bound, ∀ entry ∈ trace, entry.thread < bound := by
  induction trace with
  | nil => exact ⟨0, fun _ member => absurd member List.not_mem_nil⟩
  | cons entry trace inductionHypothesis =>
      obtain ⟨bound, below⟩ := inductionHypothesis
      refine ⟨max bound (entry.thread + 1), fun other member => ?_⟩
      rcases List.mem_cons.mp member with rfl | member
      · omega
      · have := below other member
        omega

/-- What every thread does at least as often as something else is done at least
as often altogether. -/
theorem countP_trace_le_of_history (world : World Command Reply State)
    (few many : Entry Command Reply → Bool)
    (each : ∀ thread, (world.history thread).countP few ≤ (world.history thread).countP many) :
    world.trace.countP few ≤ world.trace.countP many := by
  have bounded : ∀ bound,
      (world.trace.filter fun entry => entry.thread < bound).countP few ≤
        (world.trace.filter fun entry => entry.thread < bound).countP many := by
    intro bound
    induction bound with
    | zero => simp
    | succ bound inductionHypothesis =>
        rw [countP_filter_lt_succ, countP_filter_lt_succ]
        have last := each bound
        unfold history at last
        omega
  obtain ⟨bound, below⟩ := exists_thread_bound world.trace
  have whole : (world.trace.filter fun entry => entry.thread < bound) = world.trace :=
    List.filter_eq_self.mpr fun entry member => decide_eq_true (below entry member)
  have total := bounded bound
  rw [whole] at total
  exact total

end World

/-- A call in progress, or finished when its program is `done`. A thread that
is not running was stopped and never advances again. -/
structure Thread (Command : Type) (Reply : Command → Type) (Result Call : Type) where
  call : Call
  program : Program Command Reply Result
  running : Bool

/-- All threads and the world they share. -/
structure Pool (Command : Type) (Reply : Command → Type) (Result State Call : Type) where
  world : World Command Reply State
  threads : List (Thread Command Reply Result Call)

/-- What a schedule can do next. -/
inductive Event (Call Choice : Type) where
  | spawn (call : Call)
  | step (thread : Nat) (choice : Choice)
  | stop (thread : Nat)

section Schedules

variable {Command : Type} {Reply : Command → Type} {Result State Choice Call : Type}

namespace Pool

/-- A pool without threads. -/
def start (state : State) : Pool Command Reply Result State Call where
  world := ⟨state, []⟩
  threads := []

/-- One event of a schedule; `none` when the event is not possible. -/
def next (system : System Command Reply Result State Choice Call)
    (pool : Pool Command Reply Result State Call) :
    Event Call Choice → Option (Pool Command Reply Result State Call)
  | .spawn call =>
      if system.admits call pool.world.state then
        some { pool with threads := pool.threads ++ [⟨call, system.code call, true⟩] }
      else none
  | .step thread choice =>
      match pool.threads[thread]? with
      | some ⟨call, .call command next, true⟩ =>
          match system.exec command choice pool.world.state with
          | none => none
          | some (reply, state) =>
              some
                { world := pool.world.record thread command reply state
                  threads := pool.threads.set thread ⟨call, next reply, true⟩ }
      | _ => none
  | .stop thread =>
      match pool.threads[thread]? with
      | some ⟨call, program, _⟩ =>
          some { pool with threads := pool.threads.set thread ⟨call, program, false⟩ }
      | none => none

/-- A whole schedule. -/
def run (system : System Command Reply Result State Choice Call)
    (pool : Pool Command Reply Result State Call) (events : List (Event Call Choice)) :
    Option (Pool Command Reply Result State Call) :=
  FProto.Foundation.run (fun pool event => pool.next system event) pool events

/-- What one event can do: add a thread, execute one command of a running
thread, or stop a thread. -/
theorem next_cases {system : System Command Reply Result State Choice Call}
    {pool after : Pool Command Reply Result State Call} {event : Event Call Choice}
    (stepped : pool.next system event = some after) :
    (∃ call, event = .spawn call ∧ system.admits call pool.world.state = true ∧
      after = { pool with threads := pool.threads ++ [⟨call, system.code call, true⟩] }) ∨
    (∃ thread choice call command following reply state,
      event = .step thread choice ∧
      pool.threads[thread]? = some ⟨call, .call command following, true⟩ ∧
      system.exec command choice pool.world.state = some (reply, state) ∧
      after =
        { world := pool.world.record thread command reply state
          threads := pool.threads.set thread ⟨call, following reply, true⟩ }) ∨
    (∃ thread call program running,
      event = .stop thread ∧
      pool.threads[thread]? = some ⟨call, program, running⟩ ∧
      after = { pool with threads := pool.threads.set thread ⟨call, program, false⟩ }) := by
  cases event with
  | spawn call =>
      left
      simp only [next] at stepped
      split at stepped
      · next admitted =>
        exact ⟨call, rfl, admitted, (Option.some.inj stepped).symm⟩
      · cases stepped
  | step thread choice =>
      right; left
      simp only [next] at stepped
      split at stepped
      · next call command following found =>
        split at stepped
        · cases stepped
        · next reply state executed =>
          exact ⟨thread, choice, call, command, following, reply, state, rfl, found,
            executed, (Option.some.inj stepped).symm⟩
      · cases stepped
  | stop thread =>
      right; right
      simp only [next] at stepped
      split at stepped
      · next call program running found =>
        exact ⟨thread, call, program, running, rfl, found, (Option.some.inj stepped).symm⟩
      · cases stepped

end Pool

/-! ### The invariant rule -/

/-- What every thread relies on: an invariant of the world, and a preorder that
bounds how the world may change between two commands of one thread. -/
structure Discipline (Command : Type) (Reply : Command → Type) (State : Type) where
  Invariant : World Command Reply State → Prop
  Evolves : World Command Reply State → World Command Reply State → Prop
  evolves_refl : ∀ world, Evolves world world
  evolves_trans : ∀ {first second third},
    Evolves first second → Evolves second third → Evolves first third

namespace Discipline

variable (discipline : Discipline Command Reply State)

/-- What `thread` knows about a later world in which only other threads acted. -/
structure Later (thread : Nat) (before after : World Command Reply State) : Prop where
  trace : before.trace <+: after.trace
  history : after.history thread = before.history thread
  evolves : discipline.Evolves before after

theorem Later.refl (thread : Nat) (world : World Command Reply State) :
    discipline.Later thread world world :=
  ⟨List.prefix_rfl, rfl, discipline.evolves_refl world⟩

variable {discipline} in
theorem Later.trans {thread : Nat} {first second third : World Command Reply State}
    (early : discipline.Later thread first second)
    (late : discipline.Later thread second third) :
    discipline.Later thread first third :=
  ⟨early.trace.trans late.trace, late.history.trans early.history,
    discipline.evolves_trans early.evolves late.evolves⟩

/-- A program is sound from a world when each of its commands keeps the
invariant and the preorder, whatever the other threads did before it, and its
result meets `post`. -/
def Sound {Value : Type}
    (exec : (command : Command) → Choice → State → Option (Reply command × State)) (thread : Nat)
    (post : Value → World Command Reply State → Prop) :
    Program Command Reply Value → World Command Reply State → Prop
  | .done result, world =>
      ∀ after, discipline.Later thread world after → discipline.Invariant after →
        post result after
  | .call command next, world =>
      ∀ after, discipline.Later thread world after → discipline.Invariant after →
        ∀ choice reply state, exec command choice after.state = some (reply, state) →
          discipline.Invariant (after.record thread command reply state) ∧
          discipline.Evolves after (after.record thread command reply state) ∧
          Sound exec thread post (next reply) (after.record thread command reply state)

section Rules

variable {discipline} {Value Next : Type}
  {exec : (command : Command) → Choice → State → Option (Reply command × State)} {thread : Nat}
  {post : Value → World Command Reply State → Prop}

/-- Soundness survives what the other threads do. -/
theorem Sound.later {program : Program Command Reply Value}
    {before after : World Command Reply State}
    (sound : discipline.Sound exec thread post program before)
    (later : discipline.Later thread before after) :
    discipline.Sound exec thread post program after := by
  cases program with
  | done result =>
      intro final finalLater invariant
      exact sound final (later.trans finalLater) invariant
  | call command next =>
      intro final finalLater invariant
      exact sound final (later.trans finalLater) invariant

/-- It is enough to be sound from every later world that meets the invariant. -/
theorem Sound.of_later {program : Program Command Reply Value}
    {world : World Command Reply State}
    (sound : ∀ after, discipline.Later thread world after → discipline.Invariant after →
      discipline.Sound exec thread post program after) :
    discipline.Sound exec thread post program world := by
  cases program with
  | done result =>
      intro after later invariant
      exact sound after later invariant after (Later.refl _ _ _) invariant
  | call command next =>
      intro after later invariant
      exact sound after later invariant after (Later.refl _ _ _) invariant

/-- Sequential composition: what the first part establishes, and what is stable
since before it, is what the second part starts from. -/
theorem Sound.bind {post : Next → World Command Reply State → Prop}
    {middle : Value → World Command Reply State → Prop}
    {program : Program Command Reply Value} {rest : Value → Program Command Reply Next}
    {world : World Command Reply State}
    (first : discipline.Sound exec thread middle program world)
    (following : ∀ result after, discipline.Invariant after → discipline.Evolves world after →
      middle result after → discipline.Sound exec thread post (rest result) after) :
    discipline.Sound exec thread post (program >>= rest) world := by
  induction program generalizing world with
  | done result =>
      refine Sound.of_later fun after later invariant => ?_
      exact following result after invariant later.evolves (first after later invariant)
  | call command next inductionHypothesis =>
      intro after later invariant choice reply state executed
      obtain ⟨kept, evolves, nextSound⟩ :=
        first after later invariant choice reply state executed
      refine ⟨kept, evolves, inductionHypothesis reply nextSound ?_⟩
      intro result final finalInvariant finalEvolves
      exact following result final finalInvariant
        (discipline.evolves_trans (discipline.evolves_trans later.evolves evolves) finalEvolves)

end Rules

end Discipline

/-- Every thread of the pool is sound, and only spawned threads have acted. -/
structure Pool.Disciplined (discipline : Discipline Command Reply State)
    (system : System Command Reply Result State Choice Call)
    (post : Call → Result → World Command Reply State → Prop)
    (pool : Pool Command Reply Result State Call) : Prop where
  invariant : discipline.Invariant pool.world
  spawned : ∀ entry ∈ pool.world.trace, entry.thread < pool.threads.length
  sound : ∀ index thread, pool.threads[index]? = some thread →
    discipline.Sound system.exec index (post thread.call) thread.program pool.world

namespace Pool

variable {discipline : Discipline Command Reply State}
  {system : System Command Reply Result State Choice Call}
  {post : Call → Result → World Command Reply State → Prop}
  {pool after : Pool Command Reply Result State Call}

theorem history_fresh (spawned : ∀ entry ∈ pool.world.trace, entry.thread < pool.threads.length) :
    pool.world.history pool.threads.length = [] := by
  simp only [World.history, List.filter_eq_nil_iff, beq_iff_eq]
  intro entry member
  exact Nat.ne_of_lt (spawned entry member)

/-- The threads of a pool that has got one more. -/
theorem getElem?_concat_cases {Entry : Type} {entries : List Entry} {added found : Entry}
    {index : Nat} (located : (entries ++ [added])[index]? = some found) :
    entries[index]? = some found ∨ index = entries.length ∧ found = added := by
  rcases Nat.lt_trichotomy index entries.length with below | rfl | above
  · rw [List.getElem?_append_left below] at located
    exact .inl located
  · rw [List.getElem?_concat_length] at located
    exact .inr ⟨rfl, (Option.some.inj located).symm⟩
  · rw [List.getElem?_eq_none (by simp; omega)] at located
    cases located

/-- The threads of a pool in which one has moved. -/
theorem getElem?_set_cases {Entry : Type} {entries : List Entry} {changed found : Entry}
    {place index : Nat} (located : (entries.set place changed)[index]? = some found) :
    place = index ∧ found = changed ∨ place ≠ index ∧ entries[index]? = some found := by
  by_cases same : place = index
  · have below := (List.getElem?_eq_some_iff.mp located).1
    rw [List.length_set] at below
    rw [same, List.getElem?_set_self below] at located
    exact .inl ⟨same, (Option.some.inj located).symm⟩
  · rw [List.getElem?_set_ne same] at located
    exact .inr ⟨same, located⟩

/-- One event keeps a pool disciplined. -/
theorem Disciplined.next
    (spawnSound : ∀ call index world, discipline.Invariant world →
      system.admits call world.state = true → world.history index = [] →
      discipline.Sound system.exec index (post call) (system.code call) world)
    (disciplined : pool.Disciplined discipline system post) {event : Event Call Choice}
    (stepped : pool.next system event = some after) :
    after.Disciplined discipline system post := by
  rcases next_cases stepped with
    ⟨call, rfl, admitted, rfl⟩ |
    ⟨active, choice, call, command, following, reply, state, rfl, found, executed, rfl⟩ |
    ⟨stopped, call, program, running, rfl, found, rfl⟩
  · -- A new thread starts with an empty history.
    refine ⟨disciplined.invariant, fun entry member => ?_, fun index thread located => ?_⟩
    · have := disciplined.spawned entry member
      simp only [List.length_append, List.length_singleton]
      omega
    · rcases getElem?_concat_cases located with old | ⟨rfl, rfl⟩
      · exact disciplined.sound index thread old
      · exact spawnSound call _ _ disciplined.invariant admitted
          (history_fresh disciplined.spawned)
  · -- The active thread advances by its own soundness, the others see a later world.
    have activeBelow : active < pool.threads.length :=
      (List.getElem?_eq_some_iff.mp found).1
    obtain ⟨invariant, evolves, activeSound⟩ :=
      disciplined.sound active _ found pool.world (Discipline.Later.refl _ _ _)
        disciplined.invariant choice reply state executed
    refine ⟨invariant, fun entry member => ?_, fun index thread located => ?_⟩
    · simp only [World.record_trace, List.mem_append, List.mem_singleton] at member
      rw [List.length_set]
      rcases member with member | rfl
      · exact disciplined.spawned entry member
      · exact activeBelow
    · rcases getElem?_set_cases located with ⟨rfl, rfl⟩ | ⟨different, old⟩
      · exact activeSound
      · exact (disciplined.sound index thread old).later
          ⟨List.prefix_append _ _,
            World.history_record_of_ne _ (Ne.symm different) _ _ _, evolves⟩
  · refine ⟨disciplined.invariant, fun entry member => ?_, fun index thread located => ?_⟩
    · rw [List.length_set]
      exact disciplined.spawned entry member
    · rcases getElem?_set_cases located with ⟨rfl, rfl⟩ | ⟨-, old⟩
      · exact disciplined.sound stopped ⟨call, program, running⟩ found
      · exact disciplined.sound index thread old

/-- **The invariant rule.** When every call starts sound, every schedule from a
disciplined pool ends in a disciplined pool. -/
theorem run_sound
    (spawnSound : ∀ call index world, discipline.Invariant world →
      system.admits call world.state = true → world.history index = [] →
      discipline.Sound system.exec index (post call) (system.code call) world)
    (events : List (Event Call Choice))
    (disciplined : pool.Disciplined discipline system post)
    (ran : pool.run system events = some after) :
    after.Disciplined discipline system post :=
  run_invariant (fun _ _ _ disciplined stepped => Disciplined.next spawnSound disciplined stepped)
    disciplined ran

theorem start_disciplined {state : State} (invariant : discipline.Invariant ⟨state, []⟩) :
    (start state : Pool Command Reply Result State Call).Disciplined discipline system post where
  invariant := invariant
  spawned := fun _ member => absurd member List.not_mem_nil
  sound := fun index _ located => by simp [start] at located

/-- A finished thread's result meets its postcondition. -/
theorem Disciplined.result (disciplined : pool.Disciplined discipline system post)
    {thread : Thread Command Reply Result Call} (member : thread ∈ pool.threads) {result : Result}
    (finished : thread.program = .done result) :
    post thread.call result pool.world := by
  obtain ⟨index, located⟩ := List.mem_iff_getElem?.mp member
  have sound := disciplined.sound index thread located
  rw [finished] at sound
  exact sound pool.world (Discipline.Later.refl _ _ _) disciplined.invariant

end Pool

end Schedules

end FProto.Foundation

import FProto.Foundation.Coupling
import Mathlib.Data.Option.Basic

/-!
Owns the simulation of a pool of threads by a pool whose programs issue every
command in another language: what a program means is kept when each command is
encoded, executed on a representation of the state, and its reply decoded.

The rule is `Simulation.outcomes_eq`: when single commands agree, every schedule
is possible on both sides or on neither, and all calls return the same results.
-/

namespace FProto.Foundation

variable {Command Code : Type} {Reply : Command → Type} {Answer : Code → Type}
  {Result State Stored Choice Call : Type}

/-- Issue every command in another language and decode the answers. -/
def Program.translate (wire : Command → Code)
    (read : (command : Command) → Answer (wire command) → Reply command) :
    Program Command Reply Result → Program Code Answer Result
  | .done result => .done result
  | .call command next =>
      .call (wire command) fun answer => (next (read command answer)).translate wire read

/-- The calls of a pool and the results of those that have finished. -/
def Pool.outcomes (pool : Pool Command Reply Result State Call) : List (Call × Option Result) :=
  pool.threads.map fun thread => (thread.call, thread.result?)

/-- One system carries out the commands of another one on a representation of its
state. -/
structure Simulation (concrete : System Code Answer Result Stored Choice Call)
    (abstract : System Command Reply Result State Choice Call) where
  wire : Command → Code
  read : (command : Command) → Answer (wire command) → Reply command
  Related : Stored → State → Prop
  code : ∀ call, concrete.code call = (abstract.code call).translate wire read
  admits : ∀ {stored state}, Related stored state →
    ∀ call, concrete.admits call stored = abstract.admits call state
  exec : ∀ {stored state}, Related stored state → ∀ command choice,
    Option.Rel (fun left right => read command left.1 = right.1 ∧ Related left.2 right.2)
      (concrete.exec (wire command) choice stored) (abstract.exec command choice state)

namespace Simulation

variable {concrete : System Code Answer Result Stored Choice Call}
  {abstract : System Command Reply Result State Choice Call}
  (simulation : Simulation concrete abstract)

/-- The thread that does the same in the other language. -/
def thread (abstractThread : Thread Command Reply Result Call) :
    Thread Code Answer Result Call where
  call := abstractThread.call
  program := abstractThread.program.translate simulation.wire simulation.read
  running := abstractThread.running

/-- The states are related and every thread does the same. -/
structure Tracks (left : Pool Code Answer Result Stored Call)
    (right : Pool Command Reply Result State Call) : Prop where
  state : simulation.Related left.world.state right.world.state
  threads : left.threads = right.threads.map simulation.thread

variable {simulation} {left : Pool Code Answer Result Stored Call}
  {right : Pool Command Reply Result State Call}

theorem result?_thread (abstractThread : Thread Command Reply Result Call) :
    (simulation.thread abstractThread).result? = abstractThread.result? := by
  obtain ⟨call, program, running⟩ := abstractThread
  cases program <;> rfl

theorem Tracks.outcomes_eq (tracks : simulation.Tracks left right) :
    left.outcomes = right.outcomes := by
  rw [Pool.outcomes, tracks.threads, List.map_map, Pool.outcomes]
  refine List.map_congr_left fun abstractThread _ => ?_
  exact congrArg (Prod.mk abstractThread.call) (result?_thread abstractThread)

theorem Tracks.spawn (tracks : simulation.Tracks left right) (call : Call) :
    Option.Rel simulation.Tracks (left.next concrete (.spawn call))
      (right.next abstract (.spawn call)) := by
  simp only [Pool.next, simulation.admits tracks.state call]
  split
  · refine .some ⟨tracks.state, ?_⟩
    rw [tracks.threads, List.map_append, simulation.code]
    rfl
  · exact .none

theorem Tracks.stop (tracks : simulation.Tracks left right) (index : Nat) :
    Option.Rel simulation.Tracks (left.next concrete (.stop index))
      (right.next abstract (.stop index)) := by
  simp only [Pool.next, tracks.threads, List.getElem?_map]
  cases right.threads[index]? with
  | none => exact .none
  | some abstractThread =>
      obtain ⟨call, program, running⟩ := abstractThread
      refine .some ⟨tracks.state, ?_⟩
      rw [List.map_set]
      rfl

theorem Tracks.step (tracks : simulation.Tracks left right) (index : Nat) (choice : Choice) :
    Option.Rel simulation.Tracks (left.next concrete (.step index choice))
      (right.next abstract (.step index choice)) := by
  simp only [Pool.next, tracks.threads, List.getElem?_map]
  cases right.threads[index]? with
  | none => exact .none
  | some abstractThread =>
      obtain ⟨call, program, running⟩ := abstractThread
      cases program with
      | done result => exact .none
      | call command following =>
          cases running with
          | false => exact .none
          | true =>
              have executed := simulation.exec tracks.state command choice
              simp only [Option.map_some, thread, Program.translate]
              revert executed
              generalize concrete.exec (simulation.wire command) choice left.world.state = ours
              generalize abstract.exec command choice right.world.state = theirs
              rintro (@⟨⟨answer, stored⟩, ⟨reply, state⟩, decoded, related⟩ | -)
              · refine .some ⟨related, ?_⟩
                rw [List.map_set]
                dsimp only at decoded
                rw [← decoded]
                rfl
              · exact .none

/-- One event is possible on both sides or on neither, and keeps them in step. -/
theorem Tracks.next (tracks : simulation.Tracks left right) (event : Event Call Choice) :
    Option.Rel simulation.Tracks (left.next concrete event) (right.next abstract event) := by
  cases event with
  | spawn call => exact tracks.spawn call
  | step index choice => exact tracks.step index choice
  | stop index => exact tracks.stop index

theorem Tracks.run (tracks : simulation.Tracks left right) (events : List (Event Call Choice)) :
    Option.Rel simulation.Tracks (left.run concrete events) (right.run abstract events) := by
  induction events generalizing left right with
  | nil => exact .some tracks
  | cons event events inductionHypothesis =>
      have stepped := tracks.next event
      simp only [Pool.run, FProto.Foundation.run]
      revert stepped
      generalize left.next concrete event = ours
      generalize right.next abstract event = theirs
      rintro (@⟨first, second, related⟩ | -)
      · exact inductionHypothesis related
      · exact .none

/-- What one system can do the other one can do as well. -/
theorem Tracks.exists_run (tracks : simulation.Tracks left right)
    {events : List (Event Call Choice)} {after : Pool Code Answer Result Stored Call}
    (ran : left.run concrete events = some after) :
    ∃ other, right.run abstract events = some other ∧ simulation.Tracks after other := by
  have both := tracks.run events
  rw [ran] at both
  revert both
  generalize right.run abstract events = theirs
  rintro (@⟨first, second, related⟩ | -)
  exact ⟨second, rfl, related⟩

theorem tracks_start {stored : Stored} {state : State}
    (related : simulation.Related stored state) :
    simulation.Tracks (Pool.start stored) (Pool.start state) :=
  ⟨related, rfl⟩

/-- **Every schedule** is possible in both systems or in neither, and gives the same
results. -/
theorem outcomes_eq (simulation : Simulation concrete abstract) {stored : Stored} {state : State}
    (related : simulation.Related stored state) (events : List (Event Call Choice)) :
    ((Pool.start stored).run concrete events).map Pool.outcomes =
      ((Pool.start state).run abstract events).map Pool.outcomes := by
  have ran := (tracks_start related).run events
  revert ran
  generalize (Pool.start stored).run concrete events = ours
  generalize (Pool.start state).run abstract events = theirs
  rintro (@⟨first, second, tracks⟩ | -)
  · exact congrArg some tracks.outcomes_eq
  · rfl

end Simulation

end FProto.Foundation

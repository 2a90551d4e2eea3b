import FProto.Foundation.Program

/-!
Owns uninterrupted executions of a program as a relation: from a state, with
the commands and replies in order, to a result and a state.

`Program.run` takes what the environment decides from a list, which is what a
run of calls one after the other needs; `Executes` forgets the list, so an
execution is taken apart by cases on the program and at every `bind`.
-/

namespace FProto.Foundation

variable {Command : Type} {Reply : Command → Type} {Result Value State Choice : Type}

/-- An executed command. -/
abbrev Executed (Command : Type) (Reply : Command → Type) := Σ command : Command, Reply command

/-- The program, run alone from the first state, executes the commands, returns
the result and leaves the second state. -/
inductive Executes
    (exec : (command : Command) → Choice → State → Option (Reply command × State)) :
    Program Command Reply Result → State → List (Executed Command Reply) → Result → State → Prop
  | done (result : Result) (state : State) : Executes exec (.done result) state [] result state
  | call {command : Command} {next : Reply command → Program Command Reply Result}
      {choice : Choice} {state middle after : State} {reply : Reply command}
      {log : List (Executed Command Reply)} {result : Result}
      (executed : exec command choice state = some (reply, middle))
      (rest : Executes exec (next reply) middle log result after) :
      Executes exec (.call command next) state (⟨command, reply⟩ :: log) result after

/-- The commands that `Program.run` executes. -/
def Program.log
    (exec : (command : Command) → Choice → State → Option (Reply command × State)) :
    Program Command Reply Result → List Choice → State → List (Executed Command Reply)
  | .done _, _, _ => []
  | .call _ _, [], _ => []
  | .call command next, choice :: choices, state =>
      match exec command choice state with
      | none => []
      | some (reply, middle) => ⟨command, reply⟩ :: (next reply).log exec choices middle

variable {exec : (command : Command) → Choice → State → Option (Reply command × State)}

/-- A run is an execution. -/
theorem executes_of_run {program : Program Command Reply Result} {choices : List Choice}
    {state after : State} {result : Result}
    (ran : program.run exec choices state = some (result, after)) :
    Executes exec program state (program.log exec choices state) result after := by
  induction program generalizing choices state with
  | done returned =>
      rw [Program.run_done, Option.some.injEq, Prod.mk.injEq] at ran
      obtain ⟨rfl, rfl⟩ := ran
      exact .done _ _
  | call command next inductionHypothesis =>
      cases choices with
      | nil => cases ran
      | cons choice choices =>
          unfold Program.run at ran
          unfold Program.log
          cases executed : exec command choice state with
          | none => rw [executed] at ran; cases ran
          | some outcome =>
              rw [executed] at ran
              exact .call executed (inductionHypothesis outcome.1 ran)

/-- The first choice settled the first command. -/
theorem Program.log_eq_cons {program : Program Command Reply Result} {choices : List Choice}
    {state : State} {command : Command} {reply : Reply command}
    {rest : List (Executed Command Reply)}
    (logged : program.log exec choices state = ⟨command, reply⟩ :: rest) :
    ∃ choice later next middle, choices = choice :: later ∧ program = .call command next ∧
      exec command choice state = some (reply, middle) ∧
      (next reply).log exec later middle = rest := by
  cases program with
  | done result => cases logged
  | call issued next =>
      cases choices with
      | nil => cases logged
      | cons choice later =>
          unfold Program.log at logged
          cases executed : exec issued choice state with
          | none => rw [executed] at logged; cases logged
          | some outcome =>
              rw [executed] at logged
              cases logged
              exact ⟨choice, later, next, outcome.2, rfl, rfl, executed, rfl⟩

theorem Program.head_of_log {program : Program Command Reply Result} {choices : List Choice}
    {state : State} {command : Command} {reply : Reply command}
    {rest : List (Executed Command Reply)}
    (logged : program.log exec choices state = ⟨command, reply⟩ :: rest) :
    ∃ choice middle, choices.head? = some choice ∧
      exec command choice state = some (reply, middle) := by
  obtain ⟨choice, later, next, middle, rfl, -, executed, -⟩ := Program.log_eq_cons logged
  exact ⟨choice, middle, rfl, executed⟩

/-- The second choice settled the second command. -/
theorem Program.second_of_log {program : Program Command Reply Result} {choices : List Choice}
    {state : State} {command second : Command} {reply : Reply command}
    {secondReply : Reply second} {rest : List (Executed Command Reply)}
    (logged : program.log exec choices state = ⟨command, reply⟩ :: ⟨second, secondReply⟩ :: rest) :
    ∃ choice before middle, choices[1]? = some choice ∧
      exec second choice before = some (secondReply, middle) := by
  obtain ⟨first, later, next, before, rfl, -, -, following⟩ := Program.log_eq_cons logged
  obtain ⟨choice, last, _, middle, rfl, -, executed, -⟩ := Program.log_eq_cons following
  exact ⟨choice, before, middle, rfl, executed⟩

/-- Every executed command was settled by one of the choices. -/
theorem Program.mem_log {program : Program Command Reply Result} {choices : List Choice}
    {state : State} {entry : Executed Command Reply}
    (member : entry ∈ program.log exec choices state) :
    ∃ choice ∈ choices, ∃ before after, exec entry.1 choice before = some (entry.2, after) := by
  induction program generalizing choices state with
  | done result => exact absurd member List.not_mem_nil
  | call command next inductionHypothesis =>
      cases choices with
      | nil => exact absurd member List.not_mem_nil
      | cons choice choices =>
          unfold Program.log at member
          cases executed : exec command choice state with
          | none =>
              rw [executed] at member
              exact absurd member List.not_mem_nil
          | some outcome =>
              rw [executed] at member
              rcases List.mem_cons.mp member with rfl | later
              · exact ⟨choice, List.mem_cons_self, state, outcome.2, executed⟩
              · obtain ⟨settled, isLater, witness⟩ := inductionHypothesis outcome.1 later
                exact ⟨settled, List.mem_cons_of_mem _ isLater, witness⟩

/-- An execution is one under every semantics that allows the same commands. -/
theorem Executes.mono
    {wider : (command : Command) → Choice → State → Option (Reply command × State)}
    (allows : ∀ command choice state outcome, exec command choice state = some outcome →
      wider command choice state = some outcome)
    {program : Program Command Reply Result} {state after : State}
    {log : List (Executed Command Reply)} {result : Result}
    (executes : Executes exec program state log result after) :
    Executes wider program state log result after := by
  induction executes with
  | done result state => exact .done result state
  | call executed _ inductionHypothesis =>
      exact .call (allows _ _ _ _ executed) inductionHypothesis

/-- When every command can be settled well, every program can be executed well. -/
theorem exists_executes {Good : Executed Command Reply → Prop}
    (settles : ∀ command state, ∃ choice reply after,
      exec command choice state = some (reply, after) ∧ Good ⟨command, reply⟩)
    (program : Program Command Reply Result) (state : State) :
    ∃ log result after, Executes exec program state log result after ∧
      ∀ entry ∈ log, Good entry := by
  induction program generalizing state with
  | done result => exact ⟨[], result, state, .done _ _, fun _ impossible => by cases impossible⟩
  | call command next inductionHypothesis =>
      obtain ⟨choice, reply, middle, executed, good⟩ := settles command state
      obtain ⟨log, result, after, rest, allGood⟩ := inductionHypothesis reply middle
      exact ⟨_, result, after, .call executed rest, List.forall_mem_cons.mpr ⟨good, allGood⟩⟩

/-- An execution of two programs in sequence. -/
theorem Executes.bind_inv {program : Program Command Reply Value}
    {rest : Value → Program Command Reply Result} {state after : State}
    {log : List (Executed Command Reply)} {result : Result}
    (executes : Executes exec (program >>= rest) state log result after) :
    ∃ value middle early late, log = early ++ late ∧
      Executes exec program state early value middle ∧
      Executes exec (rest value) middle late result after := by
  induction program generalizing state log with
  | done value => exact ⟨value, state, [], log, rfl, .done _ _, executes⟩
  | call command next inductionHypothesis =>
      rw [Program.call_bind] at executes
      cases executes with
      | call executed following =>
          obtain ⟨value, middle, early, late, rfl, first, second⟩ :=
            inductionHypothesis _ following
          exact ⟨value, middle, _ :: early, late, rfl, .call executed first, second⟩

/-- The execution of one command. -/
theorem Executes.issue_inv {command : Command} {state after : State}
    {log : List (Executed Command Reply)} {reply : Reply command}
    (executes : Executes exec (Program.issue command) state log reply after) :
    log = [⟨command, reply⟩] ∧ ∃ choice, exec command choice state = some (reply, after) := by
  unfold Program.issue at executes
  cases executes with
  | call executed following =>
      cases following with
      | done => exact ⟨rfl, _, executed⟩

end FProto.Foundation

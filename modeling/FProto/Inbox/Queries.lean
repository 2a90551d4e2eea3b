import FProto.Foundation.Execution
import FProto.Foundation.Keyset
import FProto.Inbox.Store
import Mathlib.Data.Nat.Basic

/-!
Owns the `SELECT` statements of `server/internal/inbox/store.go` and the functions
of `Store` that issue them.

The database answers a statement with the selected rows in any order that
`ORDER BY` allows, cut off at `LIMIT`. It may refuse the statement, and it may
break off while the rows are read. Nothing here writes to the table.
-/

namespace FProto.Inbox

open FProto.Foundation

/-! ### Statements -/

/-- A statement with its parameters. A `nil` slice is `NULL`. -/
inductive Query where
  | undelivered (userID : Slice) (limit : Nat)
  | history (userID conversationID : Slice) (afterID : Int) (limit : Nat)
  | afterMessageID (userID lastSeenMessageID : Slice) (limit : Nat)
deriving DecidableEq

/-- `user_id = $1`, which no row satisfies for `NULL`. -/
def Entry.isFor (row : Entry) (userID : Slice) : Bool :=
  some row.userId = userID

/-- `conversation_id = $2`. A row without a conversation satisfies it for no
parameter. -/
def Entry.isIn (row : Entry) (conversationID : Slice) : Bool :=
  row.conversationId = conversationID ∧ conversationID.isSome

def Table.ofUser (table : Table) (userID : Slice) : List Entry :=
  table.rows.filter fun row => row.isFor userID

/-- `SELECT created_at FROM inbox WHERE user_id = $1 AND message_id = $2 LIMIT 1`. -/
def Table.createdAt (table : Table) (userID messageID : Slice) : Option Nat :=
  (table.rows.find? fun row => row.isFor userID && some row.messageId = messageID).map
    Entry.createdAt

/-- The `WHERE` clauses. A comparison with the `NULL` of an unknown message is
satisfied by no row. -/
def Query.selects (table : Table) : Query → List Entry
  | .undelivered userID _ => (Table.ofUser table userID).filter fun row => !row.delivered
  | .history userID conversationID afterID _ =>
      (Table.ofUser table userID).filter fun row =>
        row.isIn conversationID && decide (afterID < row.id)
  | .afterMessageID userID lastSeenMessageID _ =>
      match Table.createdAt table userID lastSeenMessageID with
      | none => []
      | some bound => Keyset.past Entry.createdAt bound (Table.ofUser table userID)

/-- `ORDER BY`: which row may come before which. -/
def Query.Before : Query → Entry → Entry → Prop
  | .undelivered _ _, earlier, later => earlier.createdAt ≤ later.createdAt
  | .history _ _ _ _, earlier, later => later.createdAt ≤ earlier.createdAt
  | .afterMessageID _ _ _, earlier, later => earlier.createdAt ≤ later.createdAt

instance (query : Query) : DecidableRel query.Before := fun earlier later =>
  match query with
  | .undelivered _ _ => inferInstanceAs (Decidable (earlier.createdAt ≤ later.createdAt))
  | .history _ _ _ _ => inferInstanceAs (Decidable (later.createdAt ≤ earlier.createdAt))
  | .afterMessageID _ _ _ => inferInstanceAs (Decidable (earlier.createdAt ≤ later.createdAt))

def Query.limit : Query → Nat
  | .undelivered _ limit => limit
  | .history _ _ _ limit => limit
  | .afterMessageID _ _ limit => limit

/-! ### Commands -/

/-- A reader of the inbox sends statements and hands batches to a callback. -/
inductive Command where
  | query (query : Query)
  | callback (entries : List Entry)
deriving DecidableEq

/-- The rows that were read, and the error that ended the reading. -/
abbrev Rows := List Entry × Option String

abbrev Reply : Command → Type
  | .query _ => Except String Rows
  | .callback _ => Except String Unit

/-- What the environment decides about one command. -/
inductive Choice where
  | rows (order : List Entry)
  | broken (order : List Entry) (count : Nat) (error : String)
  | accept
  | fail (error : String)
deriving DecidableEq

def exec : (command : Command) → Choice → Table → Option (Reply command × Table)
  | .query query, .rows order, table =>
      if IsOrder query.Before (query.selects table) order then
        some (.ok (order.take query.limit, none), table)
      else none
  | .query query, .broken order count error, table =>
      if IsOrder query.Before (query.selects table) order then
        some (.ok ((order.take query.limit).take count, some error), table)
      else none
  | .query _, .fail error, table => some (.error error, table)
  | .callback _, .accept, table => some (.ok (), table)
  | .callback _, .fail error, table => some (.error error, table)
  | _, _, _ => none

abbrev Code (Result : Type) := Program Command Reply Result

/-! ### The store -/

/-- `Store.query`. What was read before an error is dropped by every caller. -/
def query (query : Query) : Code (Except String (List Entry)) := do
  match ← (Program.issue (Command.query query) : Code (Except String Rows)) with
  | .error error => return .error ("inbox query: " ++ error)
  | .ok (entries, none) => return .ok entries
  | .ok (_, some error) => return .error error

/-- `Store.GetUndelivered`. -/
def getUndelivered (userID : Slice) (limit : Nat) : Code (Except String (List Entry)) :=
  query (.undelivered userID limit)

/-- `Store.GetHistory`. -/
def getHistory (userID conversationID : Slice) (afterID : Int) (limit : Nat) :
    Code (Except String (List Entry)) :=
  query (.history userID conversationID afterID limit)

/-- `Store.GetAfterMessageID`. -/
def getAfterMessageID (userID lastSeenMessageID : Slice) (limit : Nat) :
    Code (Except String (List Entry)) :=
  query (.afterMessageID userID lastSeenMessageID limit)

/-! ### Executions without failures -/

/-- The database answered in full, or the callback accepted the batch. -/
def Succeeded : Executed Command Reply → Prop
  | ⟨.query _, .ok (_, none)⟩ => True
  | ⟨.callback _, .ok _⟩ => True
  | _ => False

/-- No command of the execution failed. -/
def Healthy (log : List (Executed Command Reply)) : Prop :=
  ∀ executed ∈ log, Succeeded executed

@[simp] theorem healthy_append {first second : List (Executed Command Reply)} :
    Healthy (first ++ second) ↔ Healthy first ∧ Healthy second :=
  List.forall_mem_append

/-- The batches that went to the callback, in order. -/
def handed (log : List (Executed Command Reply)) : List (List Entry) :=
  log.filterMap fun
    | ⟨.callback entries, _⟩ => some entries
    | ⟨.query _, _⟩ => none

@[simp] theorem handed_append (first second : List (Executed Command Reply)) :
    handed (first ++ second) = handed first ++ handed second :=
  List.filterMap_append

/-- A statement that is answered in full is answered with the selected rows, in an
order it allows. -/
theorem exec_query {query : Query} {choice : Choice} {table after : Table}
    {reply : Except String Rows} (executed : exec (.query query) choice table = some (reply, after))
    (succeeded : Succeeded ⟨.query query, reply⟩) :
    after = table ∧ ∃ order, IsOrder query.Before (query.selects table) order ∧
      reply = .ok (order.take query.limit, none) := by
  cases choice with
  | rows order =>
      simp only [exec, Option.ite_none_right_eq_some, Option.some.injEq, Prod.mk.injEq] at executed
      obtain ⟨ordered, rfl, rfl⟩ := executed
      exact ⟨rfl, order, ordered, rfl⟩
  | broken order count error =>
      simp only [exec, Option.ite_none_right_eq_some, Option.some.injEq, Prod.mk.injEq] at executed
      obtain ⟨-, rfl, -⟩ := executed
      exact succeeded.elim
  | accept => cases executed
  | fail error =>
      cases executed
      exact succeeded.elim

theorem exec_callback {entries : List Entry} {choice : Choice} {table after : Table}
    {reply : Except String Unit}
    (executed : exec (.callback entries) choice table = some (reply, after))
    (succeeded : Succeeded ⟨.callback entries, reply⟩) : after = table ∧ reply = .ok () := by
  cases choice with
  | rows order => cases executed
  | broken order count error => cases executed
  | accept =>
      cases executed
      exact ⟨rfl, rfl⟩
  | fail error =>
      cases executed
      exact succeeded.elim

/-- What a function of the store returns when the database answers. -/
theorem query_executes {query : Query} {table after : Table}
    {log : List (Executed Command Reply)} {result : Except String (List Entry)}
    (executes : Executes exec (Inbox.query query) table log result after) (healthy : Healthy log) :
    after = table ∧ handed log = [] ∧
      ∃ order, IsOrder query.Before (query.selects table) order ∧
        result = .ok (order.take query.limit) := by
  unfold Inbox.query at executes
  rw [Program.issue_bind] at executes
  cases executes with
  | call executed following =>
      obtain ⟨rfl, order, ordered, rfl⟩ := exec_query executed (healthy _ List.mem_cons_self)
      cases following with
      | done => exact ⟨rfl, rfl, order, ordered, rfl⟩

/-- Every statement can be answered. -/
theorem exists_order (query : Query) (rows : List Entry) :
    ∃ order, IsOrder query.Before rows order := by
  apply exists_isOrder
  · intro first second third early late
    cases query with
    | undelivered userID limit => exact Nat.le_trans early late
    | history userID conversationID afterID limit => exact Nat.le_trans late early
    | afterMessageID userID lastSeenMessageID limit => exact Nat.le_trans early late
  · intro left right
    cases query with
    | undelivered userID limit => exact Nat.le_total _ _
    | history userID conversationID afterID limit => exact Nat.le_total _ _
    | afterMessageID userID lastSeenMessageID limit => exact Nat.le_total _ _

/-- Every program can be executed without a failure. -/
theorem exists_healthy {Result : Type} (program : Code Result) (table : Table) :
    ∃ log result after, Executes exec program table log result after ∧ Healthy log := by
  refine exists_executes (fun command table => ?_) program table
  cases command with
  | query query =>
      obtain ⟨order, ordered⟩ := exists_order query (query.selects table)
      exact ⟨.rows order, _, table, if_pos ordered, trivial⟩
  | callback entries => exact ⟨.accept, .ok (), table, rfl, trivial⟩

end FProto.Inbox

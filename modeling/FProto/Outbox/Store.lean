import FProto.Foundation.Bytes
import FProto.Foundation.SerialTable

/-!
Owns the outbox table of `server/internal/outbox/store.go` and the effect of
each statement on it. The constraints of `migrateSQL` are part of the table
type: ids and message ids are unique, and a row has no `NULL` column except
`published_at`.

A statement that PostgreSQL refuses returns the error and leaves the table
alone. Lost connections are owned by the command semantics.
-/

namespace FProto.Outbox

open FProto.Foundation

/-- `outbox.Status`, the three values the `CHECK` constraint admits. -/
inductive Status where
  | pending
  | published
  | failed
deriving DecidableEq

/-- A row of the outbox. Times are ticks of the database clock. -/
structure Entry where
  id : Nat
  messageId : Bytes
  topic : Bytes
  partitionKey : Bytes
  payload : Bytes
  status : Status
  retryCount : Nat
  createdAt : Nat
  publishedAt : Option Nat
deriving DecidableEq

/-- What `Insert` reads of the entry it is given. -/
structure NewEntry where
  messageId : Slice
  topic : Bytes
  partitionKey : Slice
  payload : Bytes
deriving DecidableEq

/-- `id BIGSERIAL PRIMARY KEY` and `message_id BYTEA UNIQUE`. -/
abbrev Table := SerialTable Entry.id Entry.messageId

/-- `Store.Insert`. -/
def insert (table : Table) (now : Nat) (entry : NewEntry) : Except String Table :=
  match entry.messageId, entry.partitionKey with
  | none, _ =>
      .error "null value in column \"message_id\" of relation \"outbox\" violates not-null constraint"
  | _, none =>
      .error "null value in column \"partition_key\" of relation \"outbox\" violates not-null constraint"
  | some messageId, some partitionKey =>
      if fresh : messageId ∈ table.rows.map Entry.messageId then
        .error "duplicate key value violates unique constraint \"outbox_message_id_key\""
      else
        .ok (table.insert
          { id := table.nextId
            messageId := messageId
            topic := entry.topic
            partitionKey := partitionKey
            payload := entry.payload
            status := .pending
            retryCount := 0
            createdAt := now
            publishedAt := none }
          rfl fresh)

/-- The rows `FetchPending` selects from. -/
def pendingRows (table : Table) : List Entry :=
  table.rows.filter fun row => row.status = .pending

/-- An answer order of `... WHERE status = 'pending' ORDER BY created_at`: rows
with equal `created_at` may come in any order. -/
def IsPendingOrder (table : Table) (order : List Entry) : Prop :=
  order.Perm (pendingRows table) ∧ order.Pairwise fun left right => left.createdAt ≤ right.createdAt

instance (table : Table) (order : List Entry) : Decidable (IsPendingOrder table order) :=
  inferInstanceAs (Decidable (_ ∧ _))

/-- `Store.MarkPublished`. -/
def markPublished (table : Table) (now : Nat) (id : Nat) : Table :=
  table.update (fun row => row.id == id)
    (fun row => { row with status := .published, publishedAt := some now })
    (fun _ => rfl) (fun _ => rfl)

/-- `Store.MarkFailed`. -/
def markFailed (table : Table) (id : Nat) : Table :=
  table.update (fun row => row.id == id) (fun row => { row with status := .failed })
    (fun _ => rfl) (fun _ => rfl)

/-- `Store.IncrementRetry`. -/
def incrementRetry (table : Table) (id : Nat) : Table :=
  table.update (fun row => row.id == id)
    (fun row => { row with retryCount := row.retryCount + 1 })
    (fun _ => rfl) (fun _ => rfl)

/-! ### What statements leave alone -/

/-- The columns no statement ever changes. -/
structure Entry.SameContent (row other : Entry) : Prop where
  id : row.id = other.id
  messageId : row.messageId = other.messageId
  topic : row.topic = other.topic
  partitionKey : row.partitionKey = other.partitionKey
  payload : row.payload = other.payload

theorem Entry.SameContent.refl (row : Entry) : row.SameContent row :=
  ⟨rfl, rfl, rfl, rfl, rfl⟩

theorem Entry.SameContent.trans {first second third : Entry} (left : first.SameContent second)
    (right : second.SameContent third) : first.SameContent third :=
  ⟨left.id.trans right.id, left.messageId.trans right.messageId, left.topic.trans right.topic,
    left.partitionKey.trans right.partitionKey, left.payload.trans right.payload⟩

/-- Every row of `before` is still there, with its content, in `after`. -/
def Table.Keeps (before after : Table) : Prop :=
  ∀ row ∈ before.rows, ∃ kept ∈ after.rows, row.SameContent kept

/-- Every row but the one with the id is as it was. -/
def Table.Spares (before after : Table) (id : Nat) : Prop :=
  ∀ row ∈ before.rows, row.id ≠ id → row ∈ after.rows

theorem Table.Spares.trans {first second third : Table} {id : Nat}
    (early : Table.Spares first second id) (late : Table.Spares second third id) :
    Table.Spares first third id :=
  fun row member different => late row (early row member different) different

/-- The copies are pending rows. -/
def Table.Waiting (table : Table) (entries : List Entry) : Prop :=
  ∀ entry ∈ entries, entry ∈ table.rows ∧ entry.status = .pending

theorem Table.Waiting.spared {before after : Table} {entries : List Entry} {id : Nat}
    (waiting : Table.Waiting before entries) (absent : id ∉ entries.map Entry.id)
    (spares : Table.Spares before after id) : Table.Waiting after entries := by
  intro entry member
  obtain ⟨isRow, pending⟩ := waiting entry member
  refine ⟨spares entry isRow fun same => ?_, pending⟩
  exact absent (same ▸ List.mem_map_of_mem member)

section Updates

variable {table : Table} {now id : Nat} {row : Entry}

/-- The rows after `UPDATE ... WHERE id = $1`. -/
theorem mem_update_row {rewrite : Entry → Entry} {keepsId : ∀ row, (rewrite row).id = row.id}
    {keepsKey : ∀ row, (rewrite row).messageId = row.messageId} :
    row ∈ (table.update (fun row => row.id == id) rewrite keepsId keepsKey).rows ↔
      (∃ original ∈ table.rows, original.id = id ∧ row = rewrite original) ∨
      (row ∈ table.rows ∧ row.id ≠ id) := by
  rw [SerialTable.mem_update]
  simp only [beq_iff_eq, beq_eq_false_iff_ne]

/-- Such a statement keeps every row whose content it does not rewrite. -/
theorem keeps_update_row {rewrite : Entry → Entry} {keepsId : ∀ row, (rewrite row).id = row.id}
    {keepsKey : ∀ row, (rewrite row).messageId = row.messageId}
    (sameContent : ∀ row : Entry, row.SameContent (rewrite row)) :
    Table.Keeps table (table.update (fun row => row.id == id) rewrite keepsId keepsKey) := by
  intro row member
  by_cases selected : row.id = id
  · exact ⟨rewrite row, mem_update_row.mpr (.inl ⟨row, member, selected, rfl⟩), sameContent row⟩
  · exact ⟨row, mem_update_row.mpr (.inr ⟨member, selected⟩), Entry.SameContent.refl row⟩

theorem spares_update_row {rewrite : Entry → Entry} {keepsId : ∀ row, (rewrite row).id = row.id}
    {keepsKey : ∀ row, (rewrite row).messageId = row.messageId} :
    Table.Spares table (table.update (fun row => row.id == id) rewrite keepsId keepsKey) id :=
  fun _ member different => mem_update_row.mpr (.inr ⟨member, different⟩)

theorem mem_markPublished :
    row ∈ (markPublished table now id).rows ↔
      (∃ original ∈ table.rows, original.id = id ∧
        row = { original with status := .published, publishedAt := some now }) ∨
      (row ∈ table.rows ∧ row.id ≠ id) :=
  mem_update_row

theorem mem_markFailed :
    row ∈ (markFailed table id).rows ↔
      (∃ original ∈ table.rows, original.id = id ∧ row = { original with status := .failed }) ∨
      (row ∈ table.rows ∧ row.id ≠ id) :=
  mem_update_row

theorem mem_incrementRetry :
    row ∈ (incrementRetry table id).rows ↔
      (∃ original ∈ table.rows, original.id = id ∧
        row = { original with retryCount := original.retryCount + 1 }) ∨
      (row ∈ table.rows ∧ row.id ≠ id) :=
  mem_update_row

theorem keeps_markPublished : Table.Keeps table (markPublished table now id) :=
  keeps_update_row fun _ => ⟨rfl, rfl, rfl, rfl, rfl⟩

theorem keeps_markFailed : Table.Keeps table (markFailed table id) :=
  keeps_update_row fun _ => ⟨rfl, rfl, rfl, rfl, rfl⟩

theorem keeps_incrementRetry : Table.Keeps table (incrementRetry table id) :=
  keeps_update_row fun _ => ⟨rfl, rfl, rfl, rfl, rfl⟩

theorem spares_markPublished : Table.Spares table (markPublished table now id) id :=
  spares_update_row

theorem spares_markFailed : Table.Spares table (markFailed table id) id :=
  spares_update_row

theorem spares_incrementRetry : Table.Spares table (incrementRetry table id) id :=
  spares_update_row

end Updates

/-- An accepted insert appends one pending row with the given content. -/
theorem insert_ok {table after : Table} {now : Nat} {entry : NewEntry}
    (inserted : insert table now entry = .ok after) :
    ∃ row : Entry, (∀ other, other ∈ after.rows ↔ other ∈ table.rows ∨ other = row) ∧
      row.status = .pending ∧ entry.messageId = some row.messageId ∧
      row.topic = entry.topic ∧ entry.partitionKey = some row.partitionKey ∧
      row.payload = entry.payload := by
  unfold insert at inserted
  split at inserted
  · cases inserted
  · cases inserted
  · next messageId partitionKey messageIdEq partitionKeyEq =>
    split at inserted
    · cases inserted
    · obtain rfl := Except.ok.inj inserted
      exact ⟨_, fun other => SerialTable.mem_insert, rfl, messageIdEq, rfl, partitionKeyEq, rfl⟩

end FProto.Outbox

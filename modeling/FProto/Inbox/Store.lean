import FProto.Foundation.Bytes
import FProto.Foundation.SerialTable

/-!
Owns the inbox table of `server/internal/inbox/store.go` and `Store.Insert`.
The constraints of `migrateSQL` are part of the table type: ids are unique,
pairs of user and message are unique, and only `conversation_id` may be `NULL`.
-/

namespace FProto.Inbox

open FProto.Foundation

/-- A row of the inbox. Times are ticks of the database clock. -/
structure Entry where
  id : Nat
  userId : Bytes
  messageId : Bytes
  conversationId : Slice
  senderId : Bytes
  payload : Bytes
  delivered : Bool
  read : Bool
  createdAt : Nat
deriving DecidableEq

/-- What `Insert` reads of the entry it is given. -/
structure NewEntry where
  userId : Slice
  messageId : Slice
  conversationId : Slice
  senderId : Slice
  payload : Slice
deriving DecidableEq

/-- `UNIQUE(user_id, message_id)`. -/
def Entry.key (entry : Entry) : Bytes × Bytes :=
  (entry.userId, entry.messageId)

abbrev Table := SerialTable Entry.id Entry.key

/-- The message of a violated `NOT NULL` constraint. -/
def nullError (column : String) : String :=
  "null value in column \"" ++ column ++ "\" of relation \"inbox\" violates not-null constraint"

/-- `Store.Insert`. Null columns are refused before the conflict clause looks
for a row with the same key. -/
def insert (table : Table) (now : Nat) (entry : NewEntry) : Except String Table :=
  match entry.userId, entry.messageId, entry.senderId, entry.payload with
  | none, _, _, _ => .error (nullError "user_id")
  | _, none, _, _ => .error (nullError "message_id")
  | _, _, none, _ => .error (nullError "sender_id")
  | _, _, _, none => .error (nullError "payload")
  | some userId, some messageId, some senderId, some payload =>
      if present : (userId, messageId) ∈ table.rows.map Entry.key then .ok table
      else
        .ok (table.insert
          { id := table.nextId
            userId := userId
            messageId := messageId
            conversationId := entry.conversationId
            senderId := senderId
            payload := payload
            delivered := false
            read := false
            createdAt := now }
          rfl present)

/-- The table has a row for the pair. -/
def Table.HasRow (table : Table) (userId messageId : Bytes) : Prop :=
  ∃ row ∈ table.rows, row.userId = userId ∧ row.messageId = messageId

theorem Table.hasRow_iff_mem_keys {table : Table} {userId messageId : Bytes} :
    Table.HasRow table userId messageId ↔ (userId, messageId) ∈ table.rows.map Entry.key := by
  simp only [HasRow, Entry.key, List.mem_map, Prod.mk.injEq]

/-- An insert is accepted exactly when its required columns are there. -/
theorem insert_isOk_iff {table : Table} {now : Nat} {entry : NewEntry} :
    (∃ after, insert table now entry = .ok after) ↔
      entry.userId.isSome ∧ entry.messageId.isSome ∧ entry.senderId.isSome ∧
        entry.payload.isSome := by
  rcases entry with ⟨userId, messageId, conversationId, senderId, payload⟩
  cases userId with
  | none => simp [insert]
  | some userId =>
      cases messageId with
      | none => simp [insert]
      | some messageId =>
          cases senderId with
          | none => simp [insert]
          | some senderId =>
              cases payload with
              | none => simp [insert]
              | some payload =>
                  simp only [insert, Option.isSome_some, and_self, iff_true]
                  split
                  · exact ⟨_, rfl⟩
                  · exact ⟨_, rfl⟩

/-- An accepted insert keeps the rows, adds at most one row, made of the given
columns, and leaves a row for the pair. -/
theorem insert_ok {table after : Table} {now : Nat} {entry : NewEntry}
    (accepted : insert table now entry = .ok after) :
    ∃ userId messageId payload, entry.userId = some userId ∧ entry.messageId = some messageId ∧
      entry.payload = some payload ∧ (∀ row ∈ table.rows, row ∈ after.rows) ∧
      Table.HasRow after userId messageId ∧
      ∀ row ∈ after.rows, row ∈ table.rows ∨
        (row.userId = userId ∧ row.messageId = messageId ∧ row.payload = payload) := by
  unfold insert at accepted
  split at accepted
  · cases accepted
  · cases accepted
  · cases accepted
  · cases accepted
  · next userId messageId senderId payload userIdEq messageIdEq senderIdEq payloadEq =>
    refine ⟨userId, messageId, payload, userIdEq, messageIdEq, payloadEq, ?_⟩
    split at accepted
    · next present =>
      obtain rfl := Except.ok.inj accepted
      exact ⟨fun _ member => member, Table.hasRow_iff_mem_keys.mpr present,
        fun _ member => .inl member⟩
    · obtain rfl := Except.ok.inj accepted
      refine ⟨fun row member => SerialTable.mem_insert.mpr (.inl member), ?_, fun row member => ?_⟩
      · exact ⟨_, SerialTable.mem_insert.mpr (.inr rfl), rfl, rfl⟩
      · rcases SerialTable.mem_insert.mp member with old | rfl
        · exact .inl old
        · exact .inr ⟨rfl, rfl, rfl⟩

/-- The columns of a row that `Insert` was given. -/
def Entry.columns (row : Entry) : NewEntry where
  userId := some row.userId
  messageId := some row.messageId
  conversationId := row.conversationId
  senderId := some row.senderId
  payload := some row.payload

/-- A row after an accepted insert was there before, or has the columns of the
entry and the next id. -/
theorem insert_columns {table after : Table} {now : Nat} {entry : NewEntry}
    (accepted : insert table now entry = .ok after) {row : Entry} (member : row ∈ after.rows) :
    row ∈ table.rows ∨ entry = row.columns ∧ row.id = table.nextId := by
  obtain ⟨userId, messageId, conversationId, senderId, payload⟩ := entry
  unfold insert at accepted
  split at accepted
  · cases accepted
  · cases accepted
  · cases accepted
  · cases accepted
  · next userIdEq messageIdEq senderIdEq payloadEq =>
    split at accepted
    · obtain rfl := Except.ok.inj accepted
      exact .inl member
    · obtain rfl := Except.ok.inj accepted
      rcases SerialTable.mem_insert.mp member with old | rfl
      · exact .inl old
      · refine .inr ⟨?_, rfl⟩
        dsimp only at userIdEq messageIdEq senderIdEq payloadEq
        rw [userIdEq, messageIdEq, senderIdEq, payloadEq]
        rfl

/-- An inbox with message ids as `model.go` has them: they are UUIDs, and so not
empty. -/
structure Messages where
  table : Table
  named : ∀ row ∈ table.rows, row.messageId ≠ []

/-- An insert of a message with an id keeps the ids. -/
theorem insert_named {table after : Table} {now : Nat} {entry : NewEntry}
    (accepted : insert table now entry = .ok after) (hasId : entry.messageId ≠ some [])
    (named : ∀ row ∈ table.rows, row.messageId ≠ []) :
    ∀ row ∈ after.rows, row.messageId ≠ [] := by
  obtain ⟨userId, messageId, payload, -, isId, -, -, -, added⟩ := insert_ok accepted
  intro row member
  rcases added row member with old | ⟨-, same, -⟩
  · exact named row old
  · rw [same]
    intro empty
    exact hasId (by rw [isId, empty])

end FProto.Inbox

import FProto.Sync.Offline

/-!
Owns what `GetMissedMessagesPaginated` hands over: from a known message, when it is
every later message, and without a cursor, when it is exactly the undelivered ones.

A cursor is a message, but a turn compares timestamps only. A page that ends among
messages of one timestamp loses the others, and so does a cursor that shares its
timestamp with later messages. Without a cursor only the first page is read by
`GetUndelivered`; later pages are read by `GetAfterMessageID`, which does not look at
`delivered`.
-/

namespace FProto.Sync

open FProto.Foundation
open FProto.Inbox (Entry Messages)
open FProto.Inbox.Table (ofUser)

/-! ### From a known message -/

section Known

variable {inbox : Messages} {seen : Entry}

theorem mem_ofUser_self (stored : seen ∈ inbox.table.rows) :
    seen ∈ ofUser inbox.table (some seen.userId) :=
  List.mem_filter.mpr ⟨stored, by simp [Inbox.Entry.isFor]⟩

/-- A later timestamp belongs to a larger id. -/
theorem id_lt_of_createdAt_lt
    (ordered : ∀ earlier ∈ inbox.table.rows, ∀ later ∈ inbox.table.rows,
      earlier.id ≤ later.id → earlier.createdAt ≤ later.createdAt)
    {earlier later : Entry} (earlierMember : earlier ∈ inbox.table.rows)
    (laterMember : later ∈ inbox.table.rows) (older : earlier.createdAt < later.createdAt) :
    earlier.id < later.id := by
  by_contra notLess
  have younger := ordered later laterMember earlier earlierMember (Nat.le_of_not_lt notLess)
  omega

/-- **What a known cursor loses.** When timestamps do not decrease with the id, a call
hands over every message of the user with a larger id than the cursor's if and only if
none of them has the cursor's timestamp, and no page boundary falls strictly between
messages of one timestamp. -/
theorem later_messages_handed_over_iff (sync : OfflineSync) (inbox : Messages)
    (ordered : ∀ earlier ∈ inbox.table.rows, ∀ later ∈ inbox.table.rows,
      earlier.id ≤ later.id → earlier.createdAt ≤ later.createdAt)
    (seen : Entry) (stored : seen ∈ inbox.table.rows) :
    HandsOver sync inbox (some seen.userId) (some seen.messageId) fun pages =>
      (∀ row ∈ ofUser inbox.table (some seen.userId), seen.id < row.id → row ∈ pages.flatten) ↔
        (∀ row ∈ ofUser inbox.table (some seen.userId),
          seen.id < row.id → row.createdAt ≠ seen.createdAt) ∧
        Keyset.Unsplit Entry.createdAt sync.pageSize
          (Keyset.past Entry.createdAt seen.createdAt
            (ofUser inbox.table (some seen.userId))) := by
  apply handsOver_of_pages
  intro pages walk
  rw [missed_after inbox (mem_ofUser_self stored)] at walk
  rw [← walk.complete_iff rfl (ofUser_nodup _ _)]
  constructor
  · intro complete
    refine ⟨fun row member later same => ?_, fun row isPast => ?_⟩
    · have newer := (Keyset.mem_past.mp (walk.mem_past rfl row (complete row member later))).2
      omega
    · obtain ⟨member, newer⟩ := Keyset.mem_past.mp isPast
      exact complete row member
        (id_lt_of_createdAt_lt ordered stored (List.mem_filter.mp member).1 newer)
  · intro ⟨distinct, complete⟩ row member later
    refine complete row (Keyset.mem_past.mpr ⟨member, ?_⟩)
    have notOlder := ordered seen stored row (List.mem_filter.mp member).1 later.le
    have different := distinct row member later
    omega

end Known

/-- A message of a sample inbox. -/
def sampleRow (createdAt : Nat → Nat) (delivered : Nat → Bool) (index : Nat) : Entry where
  id := index + 1
  userId := [7]
  messageId := List.replicate (index + 1) 1
  conversationId := none
  senderId := [9]
  payload := []
  delivered := delivered index
  read := false
  createdAt := createdAt index

/-- An inbox with messages of one user. -/
def sampleInbox (count : Nat) (createdAt : Nat → Nat) (delivered : Nat → Bool) : Messages where
  table :=
    { rows := (List.range count).map (sampleRow createdAt delivered)
      nextId := count + 1
      id_lt := by
        intro row member
        obtain ⟨index, isIndex, rfl⟩ := List.mem_map.mp member
        have below := List.mem_range.mp isIndex
        exact Nat.succ_lt_succ below
      ids_nodup := by
        rw [List.map_map]
        exact List.nodup_range.map fun left right same => Nat.succ.inj same
      keys_nodup := by
        rw [List.map_map]
        refine List.nodup_range.map fun left right same => ?_
        have lengths := congrArg (fun key : Bytes × Bytes => key.2.length) same
        simpa [sampleRow, Inbox.Entry.key] using lengths }
  named := by
    intro row member
    obtain ⟨index, -, rfl⟩ := List.mem_map.mp member
    simp [sampleRow]

/-- Three messages with distinct timestamps. -/
theorem later_messages_handed_over_iff_sample :
    let inbox := sampleInbox 3 (fun index => index) fun _ => false
    let seen := sampleRow (fun index => index) (fun _ => false) 0
    (∀ earlier ∈ inbox.table.rows, ∀ later ∈ inbox.table.rows,
      earlier.id ≤ later.id → earlier.createdAt ≤ later.createdAt) ∧
    seen ∈ inbox.table.rows ∧
    HandsOver newOfflineSync inbox (some seen.userId) (some seen.messageId) fun pages =>
      (∀ row ∈ ofUser inbox.table (some seen.userId), seen.id < row.id → row ∈ pages.flatten) ↔
        (∀ row ∈ ofUser inbox.table (some seen.userId),
          seen.id < row.id → row.createdAt ≠ seen.createdAt) ∧
        Keyset.Unsplit Entry.createdAt newOfflineSync.pageSize
          (Keyset.past Entry.createdAt seen.createdAt
            (ofUser inbox.table (some seen.userId))) := by
  refine ⟨by decide, by decide, ?_⟩
  exact later_messages_handed_over_iff newOfflineSync _ (by decide) _ (by decide)

/-- Two messages of one timestamp. A user who has seen the first one is handed
nothing. -/
theorem same_timestamp_not_handed_over :
    let inbox := sampleInbox 2 (fun _ => 5) fun _ => false
    let seen := sampleRow (fun _ => 5) (fun _ => false) 0
    let later := sampleRow (fun _ => 5) (fun _ => false) 1
    (∀ earlier ∈ inbox.table.rows, ∀ later ∈ inbox.table.rows,
      earlier.id ≤ later.id → earlier.createdAt ≤ later.createdAt) ∧
    seen ∈ inbox.table.rows ∧ later ∈ ofUser inbox.table (some seen.userId) ∧
    seen.id < later.id ∧
    HandsOver newOfflineSync inbox (some seen.userId) (some seen.messageId) fun pages =>
      pages = [] := by
  refine ⟨by decide, by decide, by decide, by decide, ?_⟩
  apply handsOver_of_pages
  intro pages walk
  have nothing : missed (sampleInbox 2 (fun _ => 5) fun _ => false).table (some [7]) (some [1]) =
      [] := by decide
  exact Keyset.Pages.eq_nil (nothing ▸ walk)

/-! ### Without a cursor -/

theorem missed_of_empty {table : Inbox.Table} {userID cursor : Slice} (empty : cursor.len = 0) :
    missed table userID cursor = (ofUser table userID).filter fun row => !row.delivered := by
  rw [missed, if_pos empty]
  rfl

/-- **What a call without a cursor hands over.** When timestamps are distinct, a call
hands over each undelivered message of the user exactly once and nothing else, if and
only if the undelivered messages fit into one page, or fewer of them than a page has
are older than any delivered message. -/
theorem undelivered_handed_over_iff (sync : OfflineSync) (inbox : Messages)
    (distinct : (inbox.table.rows.map Entry.createdAt).Nodup) (userID cursor : Slice)
    (empty : cursor.len = 0) :
    let undelivered := (ofUser inbox.table userID).filter fun row => !row.delivered
    HandsOver sync inbox userID cursor fun pages =>
      pages.flatten.Perm undelivered ↔
        undelivered.length ≤ sync.pageSize ∨
          ∀ row ∈ ofUser inbox.table userID, row.delivered →
            undelivered.countP (fun other => other.createdAt < row.createdAt) < sync.pageSize := by
  apply handsOver_of_pages
  intro pages walk
  rw [missed_of_empty empty] at walk
  rw [walk.perm_part_iff (distinct.sublist (List.filter_sublist.map _))]
  simp only [Bool.not_eq_false']

theorem undelivered_handed_over_iff_sample :
    let inbox := sampleInbox 3 (fun index => index) fun index => index = 1
    let undelivered := (ofUser inbox.table (some [7])).filter fun row => !row.delivered
    (inbox.table.rows.map Entry.createdAt).Nodup ∧
    HandsOver newOfflineSync inbox (some [7]) none fun pages =>
      pages.flatten.Perm undelivered ↔
        undelivered.length ≤ newOfflineSync.pageSize ∨
          ∀ row ∈ ofUser inbox.table (some [7]), row.delivered →
            undelivered.countP (fun other => other.createdAt < row.createdAt) <
              newOfflineSync.pageSize := by
  refine ⟨by decide, ?_⟩
  exact undelivered_handed_over_iff newOfflineSync _ (by decide) (some [7]) none rfl

/-- 101 undelivered messages and a newer one that is delivered. The second page starts
after the 100th message and hands over the delivered one. -/
theorem delivered_message_handed_over :
    let inbox := sampleInbox 102 (fun index => index) fun index => index = 101
    let delivered := sampleRow (fun index => index) (fun index => index = 101) 101
    (inbox.table.rows.map Entry.createdAt).Nodup ∧
    delivered ∈ ofUser inbox.table (some [7]) ∧ delivered.delivered = true ∧
    HandsOver newOfflineSync inbox (some [7]) none fun pages => delivered ∈ pages.flatten := by
  have distinct : (((sampleInbox 102 (fun index => index) fun index => index = 101).table.rows).map
      Entry.createdAt).Nodup := by decide +kernel
  refine ⟨distinct, by decide +kernel, by decide, ?_⟩
  apply handsOver_of_pages
  intro pages walk
  rw [missed_of_empty rfl] at walk
  exact walk.late_mem (distinct.sublist (List.filter_sublist.map _)) (by decide +kernel)
    (by decide +kernel) (by decide +kernel)

end FProto.Sync

import FProto.Inbox.Queries
import FProto.Sync.Delivery

/-!
Owns `server/internal/sync/offline.go`: `OfflineSync`, which reads the messages a
user missed from the inbox, page by page.

The loop of `GetMissedMessagesPaginated` is cut off after a number of turns; a call
that is cut off returns `none`. The result of this module is that a call in which
nothing fails is not cut off when it has more turns than the user has rows, and
that the batches it hands to the callback are the pages of a keyset reader.
-/

namespace FProto.Sync

open FProto.Foundation
open FProto.Inbox (Messages Healthy handed)

/-! ### The code -/

/-- `DefaultPageSize`. -/
def defaultPageSize : Nat := 100

/-- `OfflineSync`. Only `NewOfflineSync` makes one. -/
structure OfflineSync where
  pageSize : Nat
  positive : 0 < pageSize

/-- `NewOfflineSync`. -/
def newOfflineSync : OfflineSync where
  pageSize := defaultPageSize
  positive := by decide

structure SyncResult where
  messages : List Inbox.Entry
  hasMore : Bool
deriving DecidableEq

namespace OfflineSync

variable (sync : OfflineSync)

/-- What both queries do with the entries, of which they ask for one more than a
page has. -/
def cut (entries : List Inbox.Entry) : SyncResult :=
  if sync.pageSize < entries.length then
    { messages := entries.take sync.pageSize, hasMore := true }
  else { messages := entries, hasMore := false }

/-- `getUndelivered`. -/
def getUndelivered (userID : Slice) : Inbox.Code (Except String SyncResult) := do
  match ← Inbox.getUndelivered userID (sync.pageSize + 1) with
  | .error error => return .error ("get undelivered: " ++ error)
  | .ok entries => return .ok (sync.cut entries)

/-- `GetMissedMessages`. -/
def getMissedMessages (userID lastSeenMessageID : Slice) :
    Inbox.Code (Except String SyncResult) := do
  if lastSeenMessageID.len = 0 then
    sync.getUndelivered userID
  else
    match ← Inbox.getAfterMessageID userID lastSeenMessageID (sync.pageSize + 1) with
    | .error error => return .error ("get after message_id: " ++ error)
    | .ok entries => return .ok (sync.cut entries)

/-- `GetMissedMessagesPaginated`, for at most the given number of turns. -/
def getMissedMessagesPaginated (userID : Slice) :
    Nat → Slice → Inbox.Code (Option (Except String Unit))
  | 0, _ => return none
  | turns + 1, cursor => do
      match ← sync.getMissedMessages userID cursor with
      | .error error => return some (.error error)
      | .ok result =>
          match result.messages.getLast? with
          | none => return some (.ok ())
          | some last =>
              match ← (Program.issue (Inbox.Command.callback result.messages) :
                  Inbox.Code (Except String Unit)) with
              | .error error => return some (.error ("callback: " ++ error))
              | .ok _ =>
                  if result.hasMore then
                    getMissedMessagesPaginated userID turns (some last.messageId)
                  else return some (.ok ())

end OfflineSync

/-! ### One turn -/

/-- The rows a turn with this cursor reads from. -/
def missed (table : Inbox.Table) (userID cursor : Slice) : List Inbox.Entry :=
  if cursor.len = 0 then (Inbox.Query.undelivered userID 0).selects table
  else (Inbox.Query.afterMessageID userID cursor 0).selects table

/-- Older rows first. -/
abbrev ByAge := Keyset.Ascending Inbox.Entry.createdAt

variable {sync : OfflineSync} {table after : Inbox.Table} {userID cursor : Slice}
  {log : List (Executed Inbox.Command Inbox.Reply)}

/-- Asking for one entry more than a page has tells whether there are more. -/
theorem OfflineSync.cut_take (order : List Inbox.Entry) :
    sync.cut (order.take (sync.pageSize + 1)) =
      { messages := order.take sync.pageSize, hasMore := sync.pageSize < order.length } := by
  unfold cut
  rw [List.length_take]
  by_cases more : sync.pageSize < order.length
  · rw [if_pos (by omega), List.take_take, Nat.min_eq_left (Nat.le_succ _)]
    simp [more]
  · rw [if_neg (by omega), List.take_of_length_le (by omega), List.take_of_length_le (by omega)]
    simp [more]

theorem getMissedMessages_executes {result : Except String SyncResult}
    (executes : Executes Inbox.exec (sync.getMissedMessages userID cursor) table log result after)
    (healthy : Healthy log) :
    after = table ∧ handed log = [] ∧
      ∃ order, IsOrder ByAge (missed table userID cursor) order ∧
        result = .ok
          { messages := order.take sync.pageSize, hasMore := sync.pageSize < order.length } := by
  unfold OfflineSync.getMissedMessages at executes
  unfold missed
  split at executes
  · next empty =>
    rw [if_pos empty]
    unfold OfflineSync.getUndelivered at executes
    obtain ⟨answer, middle, early, late, rfl, queried, following⟩ := executes.bind_inv
    rw [Inbox.healthy_append] at healthy
    obtain ⟨rfl, silent, order, ordered, rfl⟩ := Inbox.query_executes queried healthy.1
    cases following with
    | done =>
        rw [List.append_nil]
        exact ⟨rfl, silent, order, ordered, congrArg _ (OfflineSync.cut_take order)⟩
  · next cursored =>
    rw [if_neg cursored]
    obtain ⟨answer, middle, early, late, rfl, queried, following⟩ := executes.bind_inv
    rw [Inbox.healthy_append] at healthy
    obtain ⟨rfl, silent, order, ordered, rfl⟩ := Inbox.query_executes queried healthy.1
    cases following with
    | done =>
        rw [List.append_nil]
        exact ⟨rfl, silent, order, ordered, congrArg _ (OfflineSync.cut_take order)⟩

/-- Everything a turn without failures can do. -/
inductive Turn (sync : OfflineSync) (table : Inbox.Table) (userID cursor : Slice) (turns : Nat) :
    List (Executed Inbox.Command Inbox.Reply) → Option (Except String Unit) → Prop
  | nothing {log : List (Executed Inbox.Command Inbox.Reply)}
      (empty : missed table userID cursor = []) (silent : handed log = []) :
      Turn sync table userID cursor turns log (some (.ok ()))
  | last {log : List (Executed Inbox.Command Inbox.Reply)} {page : List Inbox.Entry}
      (ordered : IsOrder ByAge (missed table userID cursor) page) (nonempty : page ≠ [])
      (fits : page.length ≤ sync.pageSize) (pages : handed log = [page]) :
      Turn sync table userID cursor turns log (some (.ok ()))
  | more {log later : List (Executed Inbox.Command Inbox.Reply)} {front rest : List Inbox.Entry}
      {last : Inbox.Entry} {result : Option (Except String Unit)} {after : Inbox.Table}
      (ordered : IsOrder ByAge (missed table userID cursor) (front ++ last :: rest))
      (full : front.length + 1 = sync.pageSize) (further : rest ≠ [])
      (executes : Executes Inbox.exec
        (sync.getMissedMessagesPaginated userID turns (some last.messageId)) table later result
        after)
      (healthy : Healthy later) (pages : handed log = (front ++ [last]) :: handed later) :
      Turn sync table userID cursor turns log result

theorem paginated_turn {turns : Nat} {result : Option (Except String Unit)}
    (executes : Executes Inbox.exec (sync.getMissedMessagesPaginated userID (turns + 1) cursor)
      table log result after) (healthy : Healthy log) :
    Turn sync table userID cursor turns log result := by
  unfold OfflineSync.getMissedMessagesPaginated at executes
  obtain ⟨answer, middle, early, late, rfl, asked, following⟩ := executes.bind_inv
  rw [Inbox.healthy_append] at healthy
  obtain ⟨rfl, silent, order, ordered, rfl⟩ := getMissedMessages_executes asked healthy.1
  rcases List.eq_nil_or_concat (order.take sync.pageSize) with empty | ⟨front, last, page⟩
  · have noRows : order = [] := by
      rcases List.take_eq_nil_iff.mp empty with zero | noRows
      · exact absurd zero (Nat.ne_of_gt sync.positive)
      · exact noRows
    simp only [empty, List.getLast?_nil] at following
    cases following with
    | done =>
        refine .nothing ?_ (by rw [List.append_nil, silent])
        rw [noRows] at ordered
        exact List.nil_perm.mp ordered.perm
  · rw [List.concat_eq_append] at page
    simp only [page, List.getLast?_concat, Program.issue_bind] at following
    cases following with
    | @call _ _ _ _ _ _ reply later _ called rest =>
        obtain ⟨rfl, rfl⟩ := Inbox.exec_callback called (healthy.2 _ List.mem_cons_self)
        have laterHealthy : Healthy later := (List.forall_mem_cons.mp healthy.2).2
        have pages : handed (early ++ ⟨.callback (order.take sync.pageSize), .ok ()⟩ :: later) =
            order.take sync.pageSize :: handed later := by
          rw [Inbox.handed_append, silent]
          rfl
        by_cases more : sync.pageSize < order.length
        · simp only [more, decide_true, if_true] at rest
          have split : front ++ last :: order.drop sync.pageSize = order := by
            rw [List.append_cons, ← page, List.take_append_drop]
          have full := congrArg List.length page
          rw [List.length_take, List.length_append, List.length_singleton] at full
          refine .more (by rwa [split]) (by omega) ?_ rest laterHealthy (by rw [pages, page])
          intro nothingLeft
          have short := List.drop_eq_nil_iff.mp nothingLeft
          omega
        · simp only [more, decide_false, Bool.false_eq_true, if_false] at rest
          have whole : order.take sync.pageSize = order := List.take_of_length_le (by omega)
          cases rest with
          | done =>
              refine .last ordered ?_ (Nat.le_of_not_lt more) (by rw [pages, whole]; rfl)
              rw [← whole, page]
              simp

/-! ### All turns -/

/-- The subquery finds the row of the message. -/
theorem createdAt_of_mem {row : Inbox.Entry} (member : row ∈ Inbox.Table.ofUser table userID) :
    Inbox.Table.createdAt table userID (some row.messageId) = some row.createdAt := by
  obtain ⟨isRow, isFor⟩ := List.mem_filter.mp member
  unfold Inbox.Table.createdAt
  cases found : table.rows.find? fun other =>
      other.isFor userID && some other.messageId = some row.messageId with
  | none =>
      have differs := List.find?_eq_none.mp found row isRow
      simp [isFor] at differs
  | some other =>
      have same := List.find?_some found
      simp only [Inbox.Entry.isFor, Bool.and_eq_true, decide_eq_true_eq, Option.some.injEq]
        at same isFor
      have isOther : other = row := by
        refine SerialTable.eq_of_key_eq (List.mem_of_find?_eq_some found) isRow ?_
        have sameUser := Option.some.inj (same.1.trans isFor.symm)
        rw [Inbox.Entry.key, Inbox.Entry.key, sameUser, same.2]
      rw [isOther, Option.map_some]

variable {inbox : Messages}

/-- After a page, a turn reads from the rows past its last message. -/
theorem missed_after (inbox : Messages) {row : Inbox.Entry}
    (member : row ∈ Inbox.Table.ofUser inbox.table userID) :
    missed inbox.table userID (some row.messageId) =
      Keyset.past Inbox.Entry.createdAt row.createdAt (Inbox.Table.ofUser inbox.table userID) := by
  have hasId : Slice.len (some row.messageId) ≠ 0 :=
    List.length_pos_iff.mpr (inbox.named row (List.mem_filter.mp member).1) |>.ne'
  rw [missed, if_neg hasId]
  simp only [Inbox.Query.selects, createdAt_of_mem member]

theorem missed_sublist : (missed table userID cursor).Sublist (Inbox.Table.ofUser table userID) := by
  unfold missed
  split
  · exact List.filter_sublist
  · simp only [Inbox.Query.selects]
    split
    · exact List.nil_sublist _
    · exact List.filter_sublist

/-- A call returns when it has a turn for each row past the first page, and hands
over the pages of a keyset reader. The first page may come from another query than
the later ones. -/
theorem paginated_pages {turns : Nat} {result : Option (Except String Unit)}
    (executes : Executes Inbox.exec (sync.getMissedMessagesPaginated userID turns cursor)
      inbox.table log result after) (healthy : Healthy log) (started : 0 < turns)
    (enough : ∀ row ∈ missed inbox.table userID cursor,
      (Keyset.past Inbox.Entry.createdAt row.createdAt
        (Inbox.Table.ofUser inbox.table userID)).length + 1 < turns) :
    result = some (.ok ()) ∧
      Keyset.Pages Inbox.Entry.createdAt sync.pageSize (Inbox.Table.ofUser inbox.table userID)
        (missed inbox.table userID cursor) (handed log) := by
  induction turns generalizing cursor log after with
  | zero => exact absurd started (Nat.lt_irrefl _)
  | succ turns inductionHypothesis =>
      cases paginated_turn executes healthy with
      | nothing empty silent =>
          rw [empty, silent]
          exact ⟨rfl, .nothing⟩
      | last ordered nonempty fits pages =>
          rw [pages]
          exact ⟨rfl, .last ordered nonempty fits⟩
      | @more later front rest last _ _ ordered full further executes healthy pages =>
          have lastMember : last ∈ missed inbox.table userID cursor :=
            (Keyset.mem_selected ordered).mpr (.inl (by simp))
          have following := missed_after inbox (missed_sublist.subset lastMember)
          have left := enough last lastMember
          obtain ⟨returned, walk⟩ := inductionHypothesis executes healthy (by omega) (by
            -- past a row of the next page there are fewer rows than past this page
            intro row member
            rw [following] at member
            have fewer := Keyset.length_past_lt member
            omega)
          rw [following] at walk
          rw [pages]
          exact ⟨returned, .more ordered full further walk⟩

/-- Every call in which nothing fails, with more turns than the user has rows, returns
`nil` and hands over batches that meet the law; and there is such a call. -/
def HandsOver (sync : OfflineSync) (inbox : Messages) (userID cursor : Slice)
    (Law : List (List Inbox.Entry) → Prop) : Prop :=
  ∀ turns, (Inbox.Table.ofUser inbox.table userID).length < turns →
    let call := sync.getMissedMessagesPaginated userID turns cursor
    (∃ log result after, Executes Inbox.exec call inbox.table log result after ∧ Healthy log) ∧
      ∀ log result after, Executes Inbox.exec call inbox.table log result after → Healthy log →
        result = some (.ok ()) ∧ Law (handed log)

/-- What holds of all pages of a keyset reader holds of the batches of a call. -/
theorem handsOver_of_pages {Law : List (List Inbox.Entry) → Prop}
    (lawful : ∀ pages, Keyset.Pages Inbox.Entry.createdAt sync.pageSize
      (Inbox.Table.ofUser inbox.table userID) (missed inbox.table userID cursor) pages → Law pages) :
    HandsOver sync inbox userID cursor Law := by
  intro turns enough call
  refine ⟨Inbox.exists_healthy call inbox.table, fun log result after executes healthy => ?_⟩
  obtain ⟨returned, walk⟩ := paginated_pages executes healthy (Nat.zero_lt_of_lt enough) (by
    intro row member
    have fewer : (Keyset.past Inbox.Entry.createdAt row.createdAt
        (Inbox.Table.ofUser inbox.table userID)).length <
          (Inbox.Table.ofUser inbox.table userID).length :=
      Keyset.length_past_lt_length (missed_sublist.subset member)
    omega)
  exact ⟨returned, lawful _ walk⟩

theorem ofUser_nodup (table : Inbox.Table) (userID : Slice) :
    (Inbox.Table.ofUser table userID).Nodup :=
  (List.Nodup.of_map _ table.ids_nodup).filter _

/-- The inbox that deliveries fill has message ids. Protobuf decodes a missing or
empty `message_id` as `nil`, which the inbox refuses. -/
theorem named_of_run {codec : Protocol.ProtoCodec} {pushClient : Bool}
    (decodes : ∀ payload message, codec.unmarshal payload = .ok message →
      message.messageId ≠ some [])
    {moments : List Moment} {state : State}
    (ran : run (advance codec pushClient) State.initial moments = some state) :
    ∃ inbox : Messages, inbox.table = state.inbox := by
  have kept : ∀ state moment after, (∀ row ∈ state.inbox.rows, row.messageId ≠ []) →
      advance codec pushClient state moment = some after →
      ∀ row ∈ after.inbox.rows, row.messageId ≠ [] := by
    intro state moment after holds advanced
    cases moment with
    | delivery delivery =>
        obtain ⟨result, left, delivered, outcome⟩ := deliver_outcome codec pushClient state delivery
        rw [advance, delivered] at advanced
        obtain rfl := Option.some.inj advanced
        cases outcome with
        | undecodable error refused => exact holds
        | skipped message decoded noRecipient => exact holds
        | dedupFailed carries error failed => exact holds
        | duplicate carries worked present => exact holds
        | insertFailed carries worked absent error failed => exact holds
        | stored carries worked absent insertWorked accepted =>
            exact Inbox.insert_named accepted (decodes _ _ carries.decoded) holds
    | expiry key =>
        obtain rfl := Option.some.inj advanced
        exact holds
  have named := run_invariant kept (fun row impossible => absurd impossible List.not_mem_nil) ran
  exact ⟨⟨state.inbox, named⟩, rfl⟩

/-- **Catching up ends.** From any cursor a call returns after finitely many pages. A
page has at least one row and at most `pageSize`, no row is handed over twice, and
the rows are handed over from old to new. -/
theorem catch_up_terminates (sync : OfflineSync) (inbox : Messages) (userID cursor : Slice) :
    HandsOver sync inbox userID cursor fun pages =>
      (∀ page ∈ pages, 1 ≤ page.length ∧ page.length ≤ sync.pageSize) ∧
        pages.flatten.Nodup ∧
        pages.flatten.Pairwise fun earlier later => earlier.createdAt ≤ later.createdAt := by
  apply handsOver_of_pages
  intro pages walk
  have distinct := ofUser_nodup inbox.table userID
  exact ⟨walk.page_length, walk.nodup distinct (distinct.sublist missed_sublist), walk.sorted⟩

end FProto.Sync

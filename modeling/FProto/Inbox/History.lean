import FProto.Inbox.Queries

/-!
Owns the pages that `Store.GetHistory` returns for a conversation, and which
conversations a reader can page through.

The statement selects rows with an id above `afterID` and returns the newest of
them. Rows that did not fit into the first page are older than all of its rows, so
no id of a page leads to them.
-/

namespace FProto.Inbox

open FProto.Foundation

/-- The rows of a conversation. -/
def Table.conversation (table : Table) (userID conversationID : Slice) : List Entry :=
  (Table.ofUser table userID).filter fun row => row.isIn conversationID

/-- A page that `GetHistory` returns when the database answers. -/
def IsHistoryPage (table : Table) (userID conversationID : Slice) (limit : Nat) (afterID : Int)
    (page : List Entry) : Prop :=
  ∃ log after, Executes exec (getHistory userID conversationID afterID limit) table log (.ok page)
    after ∧ Healthy log

/-- The pages of a reader that goes on after some row of the page it got, until it
gets an empty page. -/
inductive ReadsHistory (table : Table) (userID conversationID : Slice) (limit : Nat) :
    Int → List (List Entry) → Prop
  | stop {afterID : Int} (empty : IsHistoryPage table userID conversationID limit afterID []) :
      ReadsHistory table userID conversationID limit afterID []
  | next {afterID : Int} {page : List Entry} {row : Entry} {pages : List (List Entry)}
      (answered : IsHistoryPage table userID conversationID limit afterID page)
      (chosen : row ∈ page)
      (following : ReadsHistory table userID conversationID limit row.id pages) :
      ReadsHistory table userID conversationID limit afterID (page :: pages)

section History

variable {table : Table} {userID conversationID : Slice} {limit : Nat} {afterID : Int}

theorem conversation_nodup : (Table.conversation table userID conversationID).Nodup :=
  ((List.Nodup.of_map _ table.ids_nodup).filter _).filter _

theorem mem_selects_history {row : Entry} :
    row ∈ (Query.history userID conversationID afterID limit).selects table ↔
      row ∈ Table.conversation table userID conversationID ∧ afterID < row.id := by
  simp only [Query.selects, Table.conversation, List.mem_filter, Bool.and_eq_true,
    decide_eq_true_eq, and_assoc]

theorem isHistoryPage_iff {page : List Entry} :
    IsHistoryPage table userID conversationID limit afterID page ↔
      ∃ order, IsOrder (Query.history userID conversationID afterID limit).Before
        ((Query.history userID conversationID afterID limit).selects table) order ∧
          page = order.take limit := by
  constructor
  · intro ⟨log, after, executes, healthy⟩
    obtain ⟨-, -, order, ordered, returned⟩ := query_executes executes healthy
    exact ⟨order, ordered, Except.ok.inj returned⟩
  · intro ⟨order, ordered, isPage⟩
    have answered : exec (.query (.history userID conversationID afterID limit)) (.rows order)
        table = some (.ok (order.take limit, none), table) := if_pos ordered
    rw [isPage]
    refine ⟨_, table, .call answered (.done _ _), ?_⟩
    intro executed member
    rw [List.mem_singleton.mp member]
    exact trivial

/-- A page has rows of the conversation past the bound, and no more than the limit. -/
theorem IsHistoryPage.mem {page : List Entry}
    (answered : IsHistoryPage table userID conversationID limit afterID page) :
    page.length ≤ limit ∧
      ∀ row ∈ page, row ∈ Table.conversation table userID conversationID ∧ afterID < row.id := by
  obtain ⟨order, ordered, rfl⟩ := isHistoryPage_iff.mp answered
  refine ⟨List.length_take_le _ _, fun row member => ?_⟩
  exact mem_selects_history.mp (ordered.perm.mem_iff.mp (List.mem_of_mem_take member))

/-! The timestamps of the conversation increase with the id. -/

variable (increasing : ∀ earlier ∈ Table.conversation table userID conversationID,
  ∀ later ∈ Table.conversation table userID conversationID,
    earlier.id < later.id → earlier.createdAt < later.createdAt)

include increasing

/-- Newer rows than one of the page are in the page. -/
theorem IsHistoryPage.newer_mem {page : List Entry}
    (answered : IsHistoryPage table userID conversationID limit afterID page)
    {row newer : Entry} (member : row ∈ page)
    (isRow : newer ∈ Table.conversation table userID conversationID) (larger : row.id < newer.id) :
    newer ∈ page := by
  obtain ⟨inConversation, past⟩ := answered.mem.2 row member
  obtain ⟨order, ordered, rfl⟩ := isHistoryPage_iff.mp answered
  have isSelected : newer ∈ order :=
    ordered.perm.mem_iff.mpr (mem_selects_history.mpr ⟨isRow, by omega⟩)
  have sorted := ordered.sorted
  rw [← List.take_append_drop limit order] at isSelected sorted
  rcases List.mem_append.mp isSelected with isHere | isLeft
  · exact isHere
  · -- what is left out is older than the row of the page
    have older : newer.createdAt ≤ row.createdAt :=
      (List.pairwise_append.mp sorted).2.2 row member newer isLeft
    have younger := increasing row inConversation newer isRow larger
    omega

/-- A complete reader gets one page at most. -/
theorem ReadsHistory.complete {pages : List (List Entry)}
    (reads : ReadsHistory table userID conversationID limit afterID pages)
    (complete : pages.flatten.Perm (Table.conversation table userID conversationID)) :
    (Table.conversation table userID conversationID).length ≤ limit ∧
      ∀ row ∈ Table.conversation table userID conversationID, afterID < row.id := by
  cases reads with
  | stop empty =>
      rw [List.nil_perm.mp complete]
      exact ⟨Nat.zero_le _, fun row impossible => absurd impossible List.not_mem_nil⟩
  | @next _ page row pages answered chosen following =>
      cases following with
      | stop empty =>
          have whole : page.Perm (Table.conversation table userID conversationID) := by
            simpa using complete
          rw [← whole.length_eq]
          refine ⟨answered.mem.1, fun row member => ?_⟩
          exact (answered.mem.2 row (whole.mem_iff.mpr member)).2
      | @next _ second again pages secondAnswered secondChosen following =>
          -- every row of a second page was in the first one
          obtain ⟨isRow, larger⟩ := secondAnswered.mem.2 again secondChosen
          have first := answered.newer_mem increasing chosen isRow (by omega)
          have distinct := complete.nodup_iff.mpr conversation_nodup
          rw [List.flatten_cons, List.flatten_cons] at distinct
          exact absurd (List.mem_append_left _ secondChosen)
            (List.disjoint_of_nodup_append distinct first)

/-- A conversation that fits into one page is read by going on after its newest row. -/
theorem exists_readsHistory
    (fits : (Table.conversation table userID conversationID).length ≤ limit)
    (above : ∀ row ∈ Table.conversation table userID conversationID, afterID < row.id) :
    ∃ pages, ReadsHistory table userID conversationID limit afterID pages ∧
      pages.flatten.Perm (Table.conversation table userID conversationID) := by
  obtain ⟨order, ordered⟩ := exists_order (.history userID conversationID afterID limit)
    ((Query.history userID conversationID afterID limit).selects table)
  have whole : order.Perm (Table.conversation table userID conversationID) := by
    have selectsNodup : ((Query.history userID conversationID afterID limit).selects table).Nodup :=
      (List.Nodup.of_map _ table.ids_nodup).filter _ |>.filter _
    refine ordered.perm.trans ((List.perm_ext_iff_of_nodup selectsNodup conversation_nodup).mpr ?_)
    intro row
    rw [mem_selects_history]
    exact ⟨And.left, fun member => ⟨member, above row member⟩⟩
  have page : order = order.take limit :=
    (List.take_of_length_le (whole.length_eq.trans_le fits)).symm
  have answered : IsHistoryPage table userID conversationID limit afterID order :=
    isHistoryPage_iff.mpr ⟨order, ordered, page⟩
  cases order with
  | nil => exact ⟨[], .stop answered, whole⟩
  | cons newest older =>
      refine ⟨[newest :: older], .next answered List.mem_cons_self (.stop ?_), by simpa using whole⟩
      have newestMember := whole.mem_iff.mp (List.mem_cons_self (a := newest) (l := older))
      have nothing : (Query.history userID conversationID newest.id limit).selects table = [] := by
        rw [List.eq_nil_iff_forall_not_mem]
        intro row selected
        obtain ⟨member, larger⟩ := mem_selects_history.mp selected
        have younger := increasing newest newestMember row member (by omega)
        rcases List.mem_cons.mp (whole.mem_iff.mpr member) with same | isOlder
        · rw [same] at younger
          omega
        · have notNewer : row.createdAt ≤ newest.createdAt :=
            (List.pairwise_cons.mp ordered.sorted).1 row isOlder
          omega
      refine isHistoryPage_iff.mpr ⟨[], ?_, by simp⟩
      rw [nothing]
      exact ⟨List.Perm.nil, List.Pairwise.nil⟩

end History

/-- **Which conversations can be paged through.** When timestamps increase with the id,
some choice of ids leads a reader through every row of the conversation exactly once
if and only if the conversation fits into one page. Ids of the table start at 1, so
`afterID = 0` is below all of them. -/
theorem history_paged_through_iff (table : Table) (userID conversationID : Slice) (limit : Nat)
    (increasing : ∀ earlier ∈ Table.conversation table userID conversationID,
      ∀ later ∈ Table.conversation table userID conversationID,
        earlier.id < later.id → earlier.createdAt < later.createdAt) :
    (∃ pages, ReadsHistory table userID conversationID limit 0 pages ∧
        pages.flatten.Perm (Table.conversation table userID conversationID)) ↔
      (Table.conversation table userID conversationID).length ≤ limit ∧
        ∀ row ∈ Table.conversation table userID conversationID, (0 : Int) < row.id := by
  constructor
  · intro ⟨pages, reads, complete⟩
    exact reads.complete increasing complete
  · intro ⟨fits, positive⟩
    exact exists_readsHistory increasing fits positive

/-- A row of the sample conversation. -/
def sampleMessage (id : Nat) : Entry where
  id := id
  userId := [7]
  messageId := [1, UInt8.ofNat id]
  conversationId := some [5]
  senderId := [9]
  payload := []
  delivered := true
  read := false
  createdAt := 10 * id

/-- A conversation of three messages. -/
def sampleConversation : Table where
  rows := [sampleMessage 1, sampleMessage 2, sampleMessage 3]
  nextId := 4
  id_lt := by decide
  ids_nodup := by decide
  keys_nodup := by decide

theorem history_paged_through_iff_sample :
    (∀ earlier ∈ Table.conversation sampleConversation (some [7]) (some [5]),
      ∀ later ∈ Table.conversation sampleConversation (some [7]) (some [5]),
        earlier.id < later.id → earlier.createdAt < later.createdAt) ∧
    ∃ pages, ReadsHistory sampleConversation (some [7]) (some [5]) 3 0 pages ∧
      pages.flatten.Perm (Table.conversation sampleConversation (some [7]) (some [5])) :=
  ⟨by decide, (history_paged_through_iff sampleConversation (some [7]) (some [5]) 3
    (by decide)).mpr (by decide)⟩

/-- Three messages, two to a page: no choice of ids leads to the oldest message. -/
theorem history_not_paged_through :
    (∀ earlier ∈ Table.conversation sampleConversation (some [7]) (some [5]),
      ∀ later ∈ Table.conversation sampleConversation (some [7]) (some [5]),
        earlier.id < later.id → earlier.createdAt < later.createdAt) ∧
    (∀ row ∈ Table.conversation sampleConversation (some [7]) (some [5]), (0 : Int) < row.id) ∧
    ¬∃ pages, ReadsHistory sampleConversation (some [7]) (some [5]) 2 0 pages ∧
      pages.flatten.Perm (Table.conversation sampleConversation (some [7]) (some [5])) := by
  refine ⟨by decide, by decide, ?_⟩
  intro ⟨pages, reads, complete⟩
  have fits := (reads.complete (by decide) complete).1
  exact absurd fits (by decide)

end FProto.Inbox

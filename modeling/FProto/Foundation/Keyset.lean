import Mathlib.Data.List.Nodup
import Mathlib.Order.Lattice

/-!
Owns keyset pagination: a reader gets rows in the order of a key, a page at a
time, and asks each time for the rows past the key of the last row it got.

`Pages` says which pages such a reader may get. The first selection is any list of
rows; every later one is `past` the last key. Keys may repeat and rows with one key
come in any order, so a reader may lose rows: `Pages.complete_iff` says when it does
not, by where the pages end among the rows.
-/

namespace FProto.Foundation

variable {Row Key : Type}

/-- The rows in an order in which no row comes before one it may not precede. -/
structure IsOrder (Before : Row → Row → Prop) (rows order : List Row) : Prop where
  perm : order.Perm rows
  sorted : order.Pairwise Before

instance [DecidableEq Row] (Before : Row → Row → Prop) [DecidableRel Before]
    (rows order : List Row) : Decidable (IsOrder Before rows order) :=
  decidable_of_iff (order.Perm rows ∧ order.Pairwise Before)
    ⟨fun both => ⟨both.1, both.2⟩, fun ordered => ⟨ordered.perm, ordered.sorted⟩⟩

/-- Rows can be ordered by any total preorder. -/
theorem exists_isOrder {Before : Row → Row → Prop} [DecidableRel Before]
    (trans : ∀ first second third, Before first second → Before second third → Before first third)
    (total : ∀ left right, Before left right ∨ Before right left) (rows : List Row) :
    ∃ order, IsOrder Before rows order := by
  let before := fun left right => decide (Before left right)
  refine ⟨rows.mergeSort before, List.mergeSort_perm _ _, ?_⟩
  have sorted : (rows.mergeSort before).Pairwise fun left right => before left right = true :=
    List.pairwise_mergeSort
      (fun first second third early late =>
        decide_eq_true
          (trans first second third (of_decide_eq_true early) (of_decide_eq_true late)))
      (fun left right => by simpa [before] using total left right) rows
  exact sorted.imp fun ordered => of_decide_eq_true ordered

namespace Keyset

variable [LinearOrder Key] (key : Row → Key)

/-- The order of the key. -/
def Ascending (earlier later : Row) : Prop :=
  key earlier ≤ key later

/-- The rows past a key. -/
def past (bound : Key) (rows : List Row) : List Row :=
  rows.filter fun row => bound < key row

/-- The pages of a reader that starts with a selection of the rows. A page that is
not the last one is full, and the next selection is past its last row. -/
inductive Pages (size : Nat) (rows : List Row) : List Row → List (List Row) → Prop
  | nothing : Pages size rows [] []
  | last {selected page : List Row} (ordered : IsOrder (Ascending key) selected page)
      (nonempty : page ≠ []) (fits : page.length ≤ size) : Pages size rows selected [page]
  | more {selected front rest : List Row} {last : Row} {pages : List (List Row)}
      (ordered : IsOrder (Ascending key) selected (front ++ last :: rest))
      (full : front.length + 1 = size) (further : rest ≠ [])
      (following : Pages size rows (past key (key last) rows) pages) :
      Pages size rows selected ((front ++ [last]) :: pages)

variable {key} {size : Nat} {bound : Key} {rows selected : List Row} {pages : List (List Row)}

@[simp] theorem mem_past {row : Row} :
    row ∈ past key bound rows ↔ row ∈ rows ∧ bound < key row := by
  simp [past]

theorem past_nodup (distinct : rows.Nodup) : (past key bound rows).Nodup :=
  distinct.filter _

/-- Moving the bound up selects among the rows past the old one. -/
theorem past_eq_filter_past {next : Key} (upward : bound < next) :
    past key next rows = (past key bound rows).filter fun row => next < key row := by
  rw [past, past, List.filter_filter]
  refine List.filter_congr fun row _ => ?_
  by_cases isPast : next < key row
  · simp [isPast, upward.trans isPast]
  · simp [isPast]

/-- Past one of the rows there are fewer. -/
theorem length_past_lt {row : Row} (member : row ∈ past key bound rows) :
    (past key (key row) rows).length < (past key bound rows).length := by
  rw [past_eq_filter_past (mem_past.mp member).2]
  exact List.length_filter_lt_length_iff_exists.mpr ⟨row, member, by simp⟩

theorem length_past_lt_length {row : Row} (member : row ∈ rows) :
    (past key (key row) rows).length < rows.length :=
  List.length_filter_lt_length_iff_exists.mpr ⟨row, member, by simp⟩

/-! ### One page -/

section Page

variable {front rest : List Row} {last : Row}

/-- No row of a page has a larger key than its last row. -/
theorem le_last (sorted : (front ++ last :: rest).Pairwise (Ascending key)) {row : Row}
    (member : row ∈ front ++ [last]) : key row ≤ key last := by
  rcases List.mem_append.mp member with isFront | isLast
  · exact (List.pairwise_append.mp sorted).2.2 row isFront last List.mem_cons_self
  · rw [List.mem_singleton.mp isLast]

/-- No row that is left has a smaller key than the last row of the page. -/
theorem last_le (sorted : (front ++ last :: rest).Pairwise (Ascending key)) {row : Row}
    (member : row ∈ rest) : key last ≤ key row :=
  (List.pairwise_cons.mp (List.pairwise_append.mp sorted).2.1).1 row member

theorem mem_selected (ordered : IsOrder (Ascending key) selected (front ++ last :: rest))
    {row : Row} : row ∈ selected ↔ row ∈ front ++ [last] ∨ row ∈ rest := by
  rw [← ordered.perm.mem_iff]
  simp [or_assoc]

theorem bound_lt_last (ordered : IsOrder (Ascending key) selected (front ++ last :: rest))
    (isPast : selected = past key bound rows) : bound < key last := by
  have lastMember : last ∈ selected := (mem_selected ordered).mpr (.inl (by simp))
  rw [isPast] at lastMember
  exact (mem_past.mp lastMember).2

/-- What holds of every row of a full page is counted once for each of them. -/
theorem countP_page (full : front.length + 1 = size) {test : Row → Bool}
    (whole : ∀ row ∈ front ++ [last], test row) : (front ++ [last]).countP test = size := by
  rw [List.countP_eq_length.mpr whole, List.length_append, List.length_singleton, full]

theorem countP_selected (ordered : IsOrder (Ascending key) selected (front ++ last :: rest))
    (test : Row → Bool) :
    selected.countP test = (front ++ [last]).countP test + rest.countP test := by
  rw [← ordered.perm.countP_eq test, ← List.countP_append]
  simp

end Page

/-! ### What every walk has -/

theorem Pages.page_length (walk : Pages key size rows selected pages) :
    ∀ page ∈ pages, 1 ≤ page.length ∧ page.length ≤ size := by
  induction walk with
  | nothing => exact fun page impossible => absurd impossible List.not_mem_nil
  | last ordered nonempty fits =>
      intro page isPage
      rw [List.mem_singleton.mp isPage]
      exact ⟨List.length_pos_iff.mpr nonempty, fits⟩
  | more ordered full further following inductionHypothesis =>
      intro page isPage
      rcases List.mem_cons.mp isPage with rfl | later
      · rw [List.length_append, List.length_singleton, full]
        omega
      · exact inductionHypothesis page later

/-- A walk past a bound gets rows past the bound only. -/
theorem Pages.mem_past (walk : Pages key size rows selected pages)
    (isPast : selected = past key bound rows) :
    ∀ row ∈ pages.flatten, row ∈ past key bound rows := by
  induction walk generalizing bound with
  | nothing => simp
  | last ordered nonempty fits =>
      intro row member
      rw [← isPast]
      exact ordered.perm.mem_iff.mp (by simpa using member)
  | @more selected front rest last pages ordered full further following inductionHypothesis =>
      intro row member
      rw [List.flatten_cons, List.mem_append] at member
      rcases member with here | later
      · rw [← isPast]
        exact (mem_selected ordered).mpr (.inl here)
      · have found := Keyset.mem_past.mp (inductionHypothesis rfl row later)
        exact Keyset.mem_past.mpr ⟨found.1, (bound_lt_last ordered isPast).trans found.2⟩

/-- There are no pages of nothing. -/
theorem Pages.eq_nil (walk : Pages key size rows [] pages) : pages = [] := by
  cases walk with
  | nothing => rfl
  | last ordered nonempty fits => exact absurd (List.perm_nil.mp ordered.perm) nonempty
  | more ordered full further following => simpa using List.perm_nil.mp ordered.perm

/-- Keys do not decrease along a walk. -/
theorem Pages.sorted (walk : Pages key size rows selected pages) :
    pages.flatten.Pairwise (Ascending key) := by
  induction walk with
  | nothing => exact List.Pairwise.nil
  | last ordered nonempty fits => simpa using ordered.sorted
  | @more selected front rest last pages ordered full further following inductionHypothesis =>
      rw [List.flatten_cons]
      refine List.pairwise_append.mpr ⟨?_, inductionHypothesis, ?_⟩
      · have split : front ++ last :: rest = (front ++ [last]) ++ rest := by simp
        have sorted := ordered.sorted
        rw [split] at sorted
        exact (List.pairwise_append.mp sorted).1
      · intro row isHere later isLater
        exact (le_last ordered.sorted isHere).trans
          (Keyset.mem_past.mp (following.mem_past rfl later isLater)).2.le

/-- No row comes twice. -/
theorem Pages.nodup (walk : Pages key size rows selected pages) (distinct : rows.Nodup)
    (selectedDistinct : selected.Nodup) : pages.flatten.Nodup := by
  induction walk with
  | nothing => exact List.nodup_nil
  | last ordered nonempty fits => simpa using ordered.perm.nodup_iff.mpr selectedDistinct
  | @more selected front rest last pages ordered full further following inductionHypothesis =>
      have split : front ++ last :: rest = (front ++ [last]) ++ rest := by simp
      have orderDistinct := ordered.perm.nodup_iff.mpr selectedDistinct
      rw [split] at orderDistinct
      rw [List.flatten_cons]
      refine List.Nodup.append (List.Nodup.of_append_left orderDistinct)
        (inductionHypothesis (past_nodup distinct)) ?_
      -- a row of the page has a key up to the last one, a later row a larger key
      intro row isHere isLater
      have later := (Keyset.mem_past.mp (following.mem_past rfl row isLater)).2
      exact absurd (le_last ordered.sorted isHere) (not_le.mpr later)

/-! ### Complete walks -/

variable (key)

/-- No page boundary falls strictly inside the rows that share a key. -/
def Unsplit (size : Nat) (selected : List Row) : Prop :=
  ∀ (value : Key) (count : Nat), ¬(selected.countP (fun row => key row < value) < count * size ∧
    count * size < selected.countP (fun row => key row ≤ value))

variable {key}

/-- Rows that fit into one page are not split. -/
theorem unsplit_of_length_le (fits : selected.length ≤ size) : Unsplit key size selected := by
  intro value count ⟨after, before⟩
  have small : selected.countP (fun row => key row ≤ value) ≤ selected.length :=
    List.countP_le_length
  cases count with
  | zero => omega
  | succ count =>
      rw [Nat.succ_mul] at before
      omega

/-- At most one of the rows with distinct keys has a given key. -/
theorem countP_le_of_nodup (distinct : (selected.map key).Nodup) (value : Key) :
    selected.countP (fun row => key row ≤ value) ≤
      selected.countP (fun row => key row < value) + 1 := by
  induction selected with
  | nil => simp
  | cons row selected inductionHypothesis =>
      rw [List.map_cons, List.nodup_cons] at distinct
      have rest := inductionHypothesis distinct.2
      rw [List.countP_cons, List.countP_cons]
      rcases lt_trichotomy (key row) value with below | same | above
      · simp only [below, below.le, decide_true, if_true]
        omega
      · -- no other row has this key
        have others : selected.countP (fun other => key other ≤ value) =
            selected.countP (fun other => key other < value) := by
          refine List.countP_congr fun other member => ?_
          have different : key other ≠ value := by
            intro equal
            exact distinct.1 (List.mem_map.mpr ⟨other, member, equal.trans same.symm⟩)
          simp [le_iff_lt_or_eq, different]
        simp [same, others]
      · simp only [not_le.mpr above, not_lt.mpr above.le, decide_false, Bool.false_eq_true, if_false]
        omega

/-- Rows with distinct keys are not split. -/
theorem unsplit_of_nodup (distinct : (selected.map key).Nodup) : Unsplit key size selected := by
  intro value count ⟨after, before⟩
  have atMostOne := countP_le_of_nodup distinct value
  omega

section Page

variable {front rest : List Row} {last : Row}

/-- When the page ends a group, what is past it is what is left. -/
theorem past_perm_rest (ordered : IsOrder (Ascending key) selected (front ++ last :: rest))
    (beyond : ∀ row ∈ rest, key last < key row) :
    (selected.filter fun row => key last < key row).Perm rest := by
  have filtered := ordered.perm.filter fun row => key last < key row
  have page : (front ++ [last]).filter (fun row => key last < key row) = [] :=
    List.filter_eq_nil_iff.mpr fun row member => by simpa using le_last ordered.sorted member
  have others : rest.filter (fun row => key last < key row) = rest :=
    List.filter_eq_self.mpr (by simpa using beyond)
  rw [List.append_cons, List.filter_append, page, others, List.nil_append] at filtered
  exact filtered.symm

/-- Past the page, what holds of all its rows is counted a page more often. -/
theorem countP_past_page (ordered : IsOrder (Ascending key) selected (front ++ last :: rest))
    (full : front.length + 1 = size) (beyond : ∀ row ∈ rest, key last < key row)
    {test : Row → Bool} (whole : ∀ row ∈ front ++ [last], test row) :
    selected.countP test =
      size + (selected.filter fun row => key last < key row).countP test := by
  rw [countP_selected ordered, countP_page full whole, (past_perm_rest ordered beyond).countP_eq]

/-- Fewer than a page of rows come before the key the page ends with. -/
theorem countP_lt_last (ordered : IsOrder (Ascending key) selected (front ++ last :: rest))
    (full : front.length + 1 = size) :
    selected.countP (fun row => key row < key last) < size := by
  have others : rest.countP (fun row => key row < key last) = 0 :=
    List.countP_eq_zero.mpr fun row member => by simpa using last_le ordered.sorted member
  have early : front.countP (fun row => key row < key last) ≤ front.length :=
    List.countP_le_length
  rw [countP_selected ordered, others, List.countP_append, List.countP_singleton]
  simp only [lt_irrefl, decide_false, Bool.false_eq_true, if_false]
  omega

/-- When no boundary falls inside a group, the first page ends one. -/
theorem lt_rest_of_unsplit (ordered : IsOrder (Ascending key) selected (front ++ last :: rest))
    (full : front.length + 1 = size) (unsplit : Unsplit key size selected) :
    ∀ row ∈ rest, key last < key row := by
  have first := unsplit (key last) 1
  rw [Nat.one_mul, countP_selected ordered (fun row => key row ≤ key last),
    countP_page full fun row member => by simpa using le_last ordered.sorted member] at first
  have before := countP_lt_last ordered full
  have none : rest.countP (fun row => key row ≤ key last) = 0 := by omega
  intro row member
  simpa using List.countP_eq_zero.mp none row member

/-- A boundary inside a group past the page is one of the whole selection, a page
further on. -/
theorem split_iff_of_page (ordered : IsOrder (Ascending key) selected (front ++ last :: rest))
    (full : front.length + 1 = size) (beyond : ∀ row ∈ rest, key last < key row) {value : Key}
    (above : key last < value) (count : Nat) :
    (selected.countP (fun row => key row < value) < (count + 1) * size ∧
        (count + 1) * size < selected.countP fun row => key row ≤ value) ↔
      ((selected.filter fun row => key last < key row).countP (fun row => key row < value) <
          count * size ∧
        count * size <
          (selected.filter fun row => key last < key row).countP fun row => key row ≤ value) := by
  rw [countP_past_page ordered full beyond, countP_past_page ordered full beyond, Nat.succ_mul]
  · omega
  · intro row member
    simpa using (le_last ordered.sorted member).trans above.le
  · intro row member
    simpa using (le_last ordered.sorted member).trans_lt above

/-- The first page ends a group, and the later pages are as good. -/
theorem unsplit_iff_of_page (ordered : IsOrder (Ascending key) selected (front ++ last :: rest))
    (full : front.length + 1 = size) :
    Unsplit key size selected ↔
      (∀ row ∈ rest, key last < key row) ∧
        Unsplit key size (selected.filter fun row => key last < key row) := by
  constructor
  · intro unsplit
    have beyond := lt_rest_of_unsplit ordered full unsplit
    refine ⟨beyond, fun value count split => ?_⟩
    obtain ⟨row, member, upTo⟩ := List.countP_pos_iff.mp (Nat.zero_lt_of_lt split.2)
    have above : key last < value := by
      have isPast := (List.mem_filter.mp member).2
      simp only [decide_eq_true_eq] at isPast upTo
      exact isPast.trans_le upTo
    exact unsplit value (count + 1) ((split_iff_of_page ordered full beyond above count).mpr split)
  · intro ⟨beyond, unsplit⟩ value count split
    cases count with
    | zero => omega
    | succ count =>
        rcases le_or_gt value (key last) with within | above
        · -- up to the last key of the page there are no more rows than the page has
          have others : rest.countP (fun row => key row ≤ value) = 0 :=
            List.countP_eq_zero.mpr fun row member => by
              simpa using within.trans_lt (beyond row member)
          have page : (front ++ [last]).countP (fun row => key row ≤ value) ≤ size := by
            rw [← full, ← List.length_singleton (a := last), ← List.length_append]
            exact List.countP_le_length
          rw [countP_selected ordered (fun row => key row ≤ value), others, Nat.succ_mul] at split
          omega
        · exact unsplit value count ((split_iff_of_page ordered full beyond above count).mp split)

/-- A walk is complete when its first page ends a group and the rest is complete. -/
theorem complete_iff_of_page (ordered : IsOrder (Ascending key) selected (front ++ last :: rest))
    (isPast : selected = past key bound rows) (distinct : rows.Nodup)
    (following : Pages key size rows (past key (key last) rows) pages) :
    (∀ row ∈ selected, row ∈ ((front ++ [last]) :: pages).flatten) ↔
      (∀ row ∈ rest, key last < key row) ∧
        ∀ row ∈ past key (key last) rows, row ∈ pages.flatten := by
  have upward := bound_lt_last ordered isPast
  simp only [List.flatten_cons, List.mem_append (s := front ++ [last])]
  constructor
  · intro complete
    refine ⟨fun row isRest => ?_, fun row isLater => ?_⟩
    · cases complete row ((mem_selected ordered).mpr (.inr isRest)) with
      | inl isHere =>
          have orderDistinct : (front ++ last :: rest).Nodup := by
            rw [ordered.perm.nodup_iff, isPast]
            exact past_nodup distinct
          rw [List.append_cons] at orderDistinct
          exact absurd isRest (List.disjoint_of_nodup_append orderDistinct isHere)
      | inr isLater => exact (mem_past.mp (following.mem_past rfl row isLater)).2
    · have found := mem_past.mp isLater
      have isSelected : row ∈ selected := by
        rw [isPast]
        exact mem_past.mpr ⟨found.1, upward.trans found.2⟩
      cases complete row isSelected with
      | inl isHere => exact absurd (le_last ordered.sorted isHere) (not_le.mpr found.2)
      | inr later => exact later
  · intro ⟨beyond, complete⟩ row isSelected
    cases (mem_selected ordered).mp isSelected with
    | inl isHere => exact .inl isHere
    | inr isRest =>
        rw [isPast] at isSelected
        exact .inr (complete row (mem_past.mpr ⟨(mem_past.mp isSelected).1, beyond row isRest⟩))

end Page

/-- **Completeness.** A walk past a bound gets every row past it exactly when no page
boundary falls strictly inside a group of rows with one key. -/
theorem Pages.complete_iff (walk : Pages key size rows selected pages)
    (isPast : selected = past key bound rows) (distinct : rows.Nodup) :
    (∀ row ∈ selected, row ∈ pages.flatten) ↔ Unsplit key size selected := by
  induction walk generalizing bound with
  | nothing => exact iff_of_true (by simp) (unsplit_of_length_le (Nat.zero_le _))
  | last ordered nonempty fits =>
      refine iff_of_true (fun row member => ?_) (unsplit_of_length_le ?_)
      · simpa using ordered.perm.mem_iff.mpr member
      · rwa [← ordered.perm.length_eq]
  | @more selected front rest last pages ordered full further following inductionHypothesis =>
      have upward := bound_lt_last ordered isPast
      rw [complete_iff_of_page ordered isPast distinct following, inductionHypothesis rfl,
        unsplit_iff_of_page ordered full, isPast, ← past_eq_filter_past upward]

/-! ### A first page from a part of the rows -/

section Part

variable {part : Row → Bool}

/-- A row outside the part is past the first page exactly when at least a page of
rows of the part come before it. -/
theorem last_lt_iff_of_page {front rest : List Row} {last row : Row}
    (ordered : IsOrder (Ascending key) selected (front ++ last :: rest))
    (full : front.length + 1 = size) :
    key last < key row ↔ size ≤ selected.countP fun other => key other < key row := by
  constructor
  · intro later
    rw [countP_selected ordered, countP_page full fun other member => by
      simpa using (le_last ordered.sorted member).trans_lt later]
    exact Nat.le_add_right _ _
  · intro enough
    by_contra early
    have fewer : selected.countP (fun other => key other < key row) ≤
        selected.countP fun other => key other < key last :=
      List.countP_mono_left fun other _ before => by
        simpa using (of_decide_eq_true before).trans_le (not_lt.mp early)
    have few := countP_lt_last ordered full
    omega

/-- With distinct keys, the pages after the first one are the rows past it. -/
theorem Pages.perm_past (walk : Pages key size rows (past key bound rows) pages)
    (distinct : (rows.map key).Nodup) : pages.flatten.Perm (past key bound rows) := by
  have rowsDistinct : rows.Nodup := List.Nodup.of_map key distinct
  have pastDistinct : (past key bound rows).Nodup := past_nodup rowsDistinct
  rw [List.perm_ext_iff_of_nodup (walk.nodup rowsDistinct pastDistinct) pastDistinct]
  intro row
  refine ⟨walk.mem_past rfl row, fun member => ?_⟩
  exact (walk.complete_iff rfl rowsDistinct).mpr
    (unsplit_of_nodup (distinct.sublist (List.filter_sublist.map key))) row member

/-- A reader that starts with a part of the rows also gets the other rows that come
after a page of the part, when the part has more than a page. -/
theorem Pages.late_mem (walk : Pages key size rows (rows.filter part) pages)
    (distinct : (rows.map key).Nodup) (long : size < (rows.filter part).length) {row : Row}
    (member : row ∈ rows)
    (late : size ≤ (rows.filter part).countP fun other => key other < key row) :
    row ∈ pages.flatten := by
  generalize isPart : rows.filter part = selected at walk long late
  cases walk with
  | nothing => exact absurd long (Nat.not_lt_zero _)
  | last ordered nonempty fits =>
      rw [← ordered.perm.length_eq] at long
      omega
  | more ordered full further following =>
      rw [List.flatten_cons, List.mem_append]
      refine .inr ((following.perm_past distinct).mem_iff.mpr ?_)
      exact Keyset.mem_past.mpr ⟨member, (last_lt_iff_of_page ordered full).mpr late⟩

/-- When no other row is late, the rows past the first page are the rest of the
part. -/
theorem past_perm_rest_of_early {front rest : List Row} {last : Row}
    (ordered : IsOrder (Ascending key) (rows.filter part) (front ++ last :: rest))
    (full : front.length + 1 = size) (distinct : (rows.map key).Nodup)
    (early : ∀ row ∈ rows, part row = false →
      (rows.filter part).countP (fun other => key other < key row) < size) :
    (past key (key last) rows).Perm rest := by
  have rowsDistinct : rows.Nodup := List.Nodup.of_map key distinct
  have orderDistinct := ordered.perm.nodup_iff.mpr (rowsDistinct.filter part)
  have fresh := List.nodup_cons.mp (List.Nodup.of_append_right orderDistinct)
  rw [List.perm_ext_iff_of_nodup (past_nodup rowsDistinct) fresh.2]
  intro row
  rw [Keyset.mem_past]
  constructor
  · intro ⟨member, isPast⟩
    cases inPart : part row with
    | false =>
        have late := (last_lt_iff_of_page ordered full).mp isPast
        exact absurd (early row member inPart) (Nat.not_lt.mpr late)
    | true =>
        rcases (mem_selected ordered).mp (List.mem_filter.mpr ⟨member, inPart⟩) with
          isHere | isRest
        · exact absurd (le_last ordered.sorted isHere) (not_le.mpr isPast)
        · exact isRest
  · intro isRest
    have member := (List.mem_filter.mp ((mem_selected ordered).mpr (.inr isRest))).1
    have isLast : last ∈ rows :=
      (List.mem_filter.mp ((mem_selected ordered).mpr (.inl (by simp)))).1
    refine ⟨member, lt_of_le_of_ne (last_le ordered.sorted isRest) fun same => ?_⟩
    have isSame : last = row := List.inj_on_of_nodup_map distinct isLast member same
    exact fresh.1 (isSame ▸ isRest)

/-- **Exactly the part.** With distinct keys, a reader that starts with a part of the
rows gets the part exactly when it fits into one page, or fewer rows of the part than
a page has come before any other row. -/
theorem Pages.perm_part_iff (walk : Pages key size rows (rows.filter part) pages)
    (distinct : (rows.map key).Nodup) :
    pages.flatten.Perm (rows.filter part) ↔
      (rows.filter part).length ≤ size ∨
        ∀ row ∈ rows, part row = false →
          (rows.filter part).countP (fun other => key other < key row) < size := by
  constructor
  · intro exactly
    by_contra neither
    obtain ⟨long, late⟩ := not_or.mp neither
    apply late
    intro row member outside
    by_contra enough
    have isPart := exactly.mem_iff.mp
      (walk.late_mem distinct (Nat.lt_of_not_le long) member (Nat.le_of_not_lt enough))
    rw [List.mem_filter, outside] at isPart
    exact Bool.false_ne_true isPart.2
  · intro condition
    generalize isPart : rows.filter part = selected at walk ⊢
    cases walk with
    | nothing => exact List.Perm.nil
    | last ordered nonempty fits => simpa using ordered.perm
    | @more _ front rest last pages ordered full further following =>
        rw [← isPart] at ordered ⊢
        rcases condition with fits | early
        · have length := ordered.perm.length_eq
          have left := List.length_pos_iff.mpr further
          rw [List.length_append, List.length_cons] at length
          omega
        · have isRest := past_perm_rest_of_early ordered full distinct early
          have split : front ++ last :: rest = (front ++ [last]) ++ rest := List.append_cons ..
          refine List.Perm.trans ?_ ordered.perm
          rw [List.flatten_cons, split]
          exact ((following.perm_past distinct).trans isRest).append_left _

end Part

end Keyset

end FProto.Foundation

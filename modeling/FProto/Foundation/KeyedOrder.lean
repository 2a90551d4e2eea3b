import Mathlib.Data.List.Perm.Basic

/-!
Owns the processing orders of a log that keeps the order per key: every item is
processed once, and items of one key keep their relative order.
-/

namespace FProto.Foundation

variable {Item Key Value : Type} [DecidableEq Key]

/-- `processed` is a processing order of `dispatched`. -/
structure KeyedOrder (key : Item → Key) (dispatched processed : List Item) : Prop where
  permuted : processed.Perm dispatched
  perKey : ∀ k, processed.filter (fun item => key item = k) =
    dispatched.filter fun item => key item = k

/-! ### Reading a log -/

omit [DecidableEq Key] in
/-- A filter that keeps every item that carries a value keeps the values. -/
theorem filterMap_filter_of_imp {items : List Item} {read : Item → Option Value}
    {kept : Item → Bool} (keeps : ∀ item ∈ items, (read item).isSome → kept item) :
    (items.filter kept).filterMap read = items.filterMap read := by
  rw [List.filterMap_filter]
  refine List.filterMap_congr fun item member => ?_
  cases keep : kept item with
  | true => rfl
  | false =>
      have absent : read item = none := by
        refine Option.not_isSome_iff_eq_none.mp fun present => ?_
        rw [keeps item member present] at keep
        cases keep
      rw [absent]
      rfl

omit [DecidableEq Key] in
/-- A filter that drops every item that carries a value keeps no value. -/
theorem filterMap_filter_eq_nil {items : List Item} {read : Item → Option Value}
    {kept : Item → Bool} (drops : ∀ item ∈ items, (read item).isSome → kept item = false) :
    (items.filter kept).filterMap read = [] := by
  refine List.filterMap_eq_nil_iff.mpr fun item member => ?_
  obtain ⟨there, keep⟩ := List.mem_filter.mp member
  refine Option.not_isSome_iff_eq_none.mp fun present => ?_
  rw [drops item there present] at keep
  cases keep

/-- What only items of one key carry is read in the same order. -/
theorem KeyedOrder.filterMap_eq {key : Item → Key} {dispatched processed : List Item}
    (order : KeyedOrder key dispatched processed) {read : Item → Option Value} {k : Key}
    (keyed : ∀ item ∈ dispatched, (read item).isSome → key item = k) :
    processed.filterMap read = dispatched.filterMap read := by
  have keyedProcessed : ∀ item ∈ processed, (read item).isSome → key item = k :=
    fun item member => keyed item (order.permuted.mem_iff.mp member)
  calc processed.filterMap read
      = (processed.filter fun item => key item = k).filterMap read :=
        (filterMap_filter_of_imp (by simpa using keyedProcessed)).symm
    _ = (dispatched.filter fun item => key item = k).filterMap read := by rw [order.perKey k]
    _ = dispatched.filterMap read := filterMap_filter_of_imp (by simpa using keyed)

/-! ### Orders that always occur -/

theorem filter_key_eq (key : Item → Key) (k other : Key) (items : List Item) :
    (items.filter fun item => key item = k).filter (fun item => key item = other) =
      if other = k then items.filter fun item => key item = other else [] := by
  rw [List.filter_filter]
  split
  · next same =>
    subst same
    simp
  · next different =>
    rw [List.filter_eq_nil_iff]
    intro item _ both
    simp only [Bool.and_eq_true, decide_eq_true_eq] at both
    exact different (both.1.symm.trans both.2)

theorem filter_key_ne (key : Item → Key) (k other : Key) (items : List Item) :
    (items.filter fun item => ¬key item = k).filter (fun item => key item = other) =
      if other = k then [] else items.filter fun item => key item = other := by
  rw [List.filter_filter]
  split
  · next same =>
    subst same
    simp
  · next different =>
    refine List.filter_congr fun item _ => ?_
    by_cases keyed : key item = other
    · simp [keyed, different]
    · simp [keyed]

/-- The items of one key may come first. -/
theorem KeyedOrder.first (key : Item → Key) (k : Key) (items : List Item) :
    KeyedOrder key items
      (items.filter (fun item => key item = k) ++ items.filter fun item => ¬key item = k) := by
  refine ⟨?_, fun other => ?_⟩
  · simpa using List.filter_append_perm (fun item => decide (key item = k)) items
  · rw [List.filter_append, filter_key_eq, filter_key_ne]
    split <;> simp

/-- The items of one key may come last. -/
theorem KeyedOrder.last (key : Item → Key) (k : Key) (items : List Item) :
    KeyedOrder key items
      (items.filter (fun item => ¬key item = k) ++ items.filter fun item => key item = k) := by
  refine ⟨List.perm_append_comm.trans (KeyedOrder.first key k items).permuted, fun other => ?_⟩
  rw [List.filter_append, filter_key_eq, filter_key_ne]
  split <;> simp

end FProto.Foundation

import Mathlib.Data.List.Nodup
import Mathlib.Tactic.Set

/-!
Owns database tables with a serial primary key and one unique column group.
Both constraints are fields, so every table value satisfies them and an insert
has to show that its row does.
-/

namespace FProto.Foundation

/-- A table whose rows have a serial `id` and a unique `key`. -/
structure SerialTable {Row Key : Type} (id : Row → Nat) (key : Row → Key) where
  rows : List Row
  nextId : Nat
  id_lt : ∀ row ∈ rows, id row < nextId
  ids_nodup : (rows.map id).Nodup
  keys_nodup : (rows.map key).Nodup

namespace SerialTable

variable {Row Key : Type} {id : Row → Nat} {key : Row → Key}

/-- The table without rows. -/
def empty : SerialTable id key where
  rows := []
  nextId := 1
  id_lt := fun _ member => absurd member List.not_mem_nil
  ids_nodup := List.nodup_nil
  keys_nodup := List.nodup_nil

/-- Append a row that takes the next serial number and a fresh key. -/
def insert (table : SerialTable id key) (row : Row) (serial : id row = table.nextId)
    (fresh : key row ∉ table.rows.map key) : SerialTable id key where
  rows := table.rows ++ [row]
  nextId := table.nextId + 1
  id_lt := by
    intro other member
    rcases List.mem_append.mp member with member | member
    · exact Nat.lt_succ_of_lt (table.id_lt other member)
    · rw [List.mem_singleton.mp member, serial]
      exact Nat.lt_succ_self _
  ids_nodup := by
    rw [List.map_append, List.map_singleton]
    refine List.Nodup.append table.ids_nodup (List.nodup_singleton _) ?_
    rw [List.disjoint_singleton, serial, List.mem_map]
    rintro ⟨other, member, same⟩
    exact absurd same (Nat.ne_of_lt (table.id_lt other member))
  keys_nodup := by
    rw [List.map_append, List.map_singleton]
    exact List.Nodup.append table.keys_nodup (List.nodup_singleton _)
      (List.disjoint_singleton.mpr fresh)

/-- Rewrite the selected rows by a function that leaves `id` and `key` alone. -/
def update (table : SerialTable id key) (selected : Row → Bool) (rewrite : Row → Row)
    (keepsId : ∀ row, id (rewrite row) = id row)
    (keepsKey : ∀ row, key (rewrite row) = key row) : SerialTable id key where
  rows := table.rows.map fun row => if selected row then rewrite row else row
  nextId := table.nextId
  id_lt := by
    intro row member
    obtain ⟨original, originalMember, rfl⟩ := List.mem_map.mp member
    have below := table.id_lt original originalMember
    split
    · rw [keepsId]; exact below
    · exact below
  ids_nodup := by
    have same : (table.rows.map fun row => if selected row then rewrite row else row).map id =
        table.rows.map id := by
      rw [List.map_map]
      refine List.map_congr_left fun row _ => ?_
      simp only [Function.comp_apply]
      split
      · exact keepsId row
      · rfl
    rw [same]
    exact table.ids_nodup
  keys_nodup := by
    have same : (table.rows.map fun row => if selected row then rewrite row else row).map key =
        table.rows.map key := by
      rw [List.map_map]
      refine List.map_congr_left fun row _ => ?_
      simp only [Function.comp_apply]
      split
      · exact keepsKey row
      · rfl
    rw [same]
    exact table.keys_nodup

variable {table : SerialTable id key}

theorem eq_of_id_eq {left right : Row} (leftMember : left ∈ table.rows)
    (rightMember : right ∈ table.rows) (same : id left = id right) : left = right :=
  List.inj_on_of_nodup_map table.ids_nodup leftMember rightMember same

theorem eq_of_key_eq {left right : Row} (leftMember : left ∈ table.rows)
    (rightMember : right ∈ table.rows) (same : key left = key right) : left = right :=
  List.inj_on_of_nodup_map table.keys_nodup leftMember rightMember same

/-- A present row is the only one with its key. -/
theorem filter_key_eq [DecidableEq Key] {row : Row} (member : row ∈ table.rows) :
    table.rows.filter (fun other => key other = key row) = [row] := by
  set found := table.rows.filter fun other => key other = key row with foundDef
  have nodup : found.Nodup := List.Nodup.filter _ (List.Nodup.of_map _ table.keys_nodup)
  have constant : found = List.replicate found.length row := by
    refine List.eq_replicate_of_mem fun other otherFound => ?_
    obtain ⟨otherMember, same⟩ := List.mem_filter.mp otherFound
    exact eq_of_key_eq otherMember member (by simpa using same)
  have nonempty : 0 < found.length :=
    List.length_pos_of_mem (List.mem_filter.mpr ⟨member, by simp⟩)
  rw [constant, List.nodup_replicate] at nodup
  rw [constant, show found.length = 1 by omega, List.replicate_one]

@[simp] theorem mem_insert {row other : Row} {serial : id row = table.nextId}
    {fresh : key row ∉ table.rows.map key} :
    other ∈ (table.insert row serial fresh).rows ↔ other ∈ table.rows ∨ other = row := by
  simp [insert]

/-- A row of an updated table was rewritten, or was not selected. -/
theorem mem_update (selected : Row → Bool) (rewrite : Row → Row)
    (keepsId : ∀ row, id (rewrite row) = id row) (keepsKey : ∀ row, key (rewrite row) = key row)
    {row : Row} :
    row ∈ (table.update selected rewrite keepsId keepsKey).rows ↔
      (∃ original ∈ table.rows, selected original = true ∧ row = rewrite original) ∨
      (row ∈ table.rows ∧ selected row = false) := by
  simp only [update, List.mem_map]
  constructor
  · rintro ⟨original, member, rfl⟩
    cases chosen : selected original with
    | true => exact .inl ⟨original, member, chosen, by simp⟩
    | false => exact .inr ⟨by simpa using member, by simpa using chosen⟩
  · rintro (⟨original, member, chosen, rfl⟩ | ⟨member, skipped⟩)
    · exact ⟨original, member, by simp [chosen]⟩
    · exact ⟨row, member, by simp [skipped]⟩

end SerialTable

end FProto.Foundation

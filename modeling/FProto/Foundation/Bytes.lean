import Mathlib.Data.List.Basic

/-!
Owns byte strings, nullable byte slices, the UTF-8 bytes of a text, and the
hexadecimal encoding of `encoding/hex`.

A string of the modelled language is a sequence of bytes, so it is `Bytes`
here. A slice distinguishes `nil` from an empty byte string and is `Slice`.
-/

namespace FProto.Foundation

abbrev Bytes := List UInt8

/-- The bytes of a text in UTF-8. -/
def utf8 (text : String) : Bytes :=
  text.toUTF8.data.toList

/-- A byte slice: `nil`, or a byte string that may be empty. -/
abbrev Slice := Option Bytes

namespace Slice

/-- The content, empty for `nil`. -/
def bytes (slice : Slice) : Bytes :=
  slice.getD []

/-- `len(slice)`. -/
def len (slice : Slice) : Nat :=
  slice.bytes.length

@[simp] theorem bytes_some (content : Bytes) : Slice.bytes (some content) = content := rfl

@[simp] theorem bytes_none : Slice.bytes none = [] := rfl

theorem len_pos_iff {slice : Slice} :
    0 < slice.len ↔ ∃ content, slice = some content ∧ content ≠ [] := by
  cases slice with
  | none => simp [len]
  | some content => simp [len, List.length_pos_iff]

theorem len_eq_zero_iff {slice : Slice} : slice.len = 0 ↔ slice.bytes = [] := by
  simp [len]

end Slice

/-! ### Hexadecimal encoding -/

/-- The lower-case digit of a value below sixteen. -/
def hexDigit (value : Nat) : UInt8 :=
  if value < 10 then UInt8.ofNat (48 + value) else UInt8.ofNat (87 + value)

/-- The value of a digit of either case. -/
def fromHexDigit (digit : UInt8) : Option Nat :=
  if 48 ≤ digit ∧ digit ≤ 57 then some (digit.toNat - 48)
  else if 97 ≤ digit ∧ digit ≤ 102 then some (digit.toNat - 87)
  else if 65 ≤ digit ∧ digit ≤ 70 then some (digit.toNat - 55)
  else none

/-- `hex.EncodeToString`. -/
def hexEncode (bytes : Bytes) : Bytes :=
  bytes.flatMap fun byte => [hexDigit (byte.toNat / 16), hexDigit (byte.toNat % 16)]

@[simp] theorem hexEncode_cons (byte : UInt8) (rest : Bytes) :
    hexEncode (byte :: rest) =
      hexDigit (byte.toNat / 16) :: hexDigit (byte.toNat % 16) :: hexEncode rest := rfl

theorem fromHexDigit_hexDigit {value : Nat} (below : value < 16) :
    fromHexDigit (hexDigit value) = some value := by
  have all : ∀ value : Fin 16, fromHexDigit (hexDigit value) = some value.val := by decide
  exact all ⟨value, below⟩

theorem fromHexDigit_high (byte : UInt8) :
    fromHexDigit (hexDigit (byte.toNat / 16)) = some (byte.toNat / 16) :=
  fromHexDigit_hexDigit (by have := byte.toNat_lt; omega)

theorem fromHexDigit_low (byte : UInt8) :
    fromHexDigit (hexDigit (byte.toNat % 16)) = some (byte.toNat % 16) :=
  fromHexDigit_hexDigit (Nat.mod_lt _ (by decide))

theorem hexEncode_length (bytes : Bytes) : (hexEncode bytes).length = 2 * bytes.length := by
  induction bytes with
  | nil => rfl
  | cons byte rest inductionHypothesis =>
      simp only [hexEncode_cons, List.length_cons, inductionHypothesis]
      omega

theorem hexEncode_injective : Function.Injective hexEncode := by
  intro left
  induction left with
  | nil =>
      intro right equal
      cases right with
      | nil => rfl
      | cons byte rest => cases equal
  | cons byte rest inductionHypothesis =>
      intro right equal
      cases right with
      | nil => cases equal
      | cons other others =>
          simp only [hexEncode_cons, List.cons.injEq] at equal
          obtain ⟨high, low, tail⟩ := equal
          have sameHigh : byte.toNat / 16 = other.toNat / 16 := by
            have decoded := fromHexDigit_high byte
            rw [high, fromHexDigit_high] at decoded
            exact (Option.some.inj decoded).symm
          have sameLow : byte.toNat % 16 = other.toNat % 16 := by
            have decoded := fromHexDigit_low byte
            rw [low, fromHexDigit_low] at decoded
            exact (Option.some.inj decoded).symm
          have sameByte : byte = other := UInt8.toNat_inj.mp (by omega)
          rw [sameByte, inductionHypothesis tail]

/-- Every byte of an encoding is a hexadecimal digit. -/
theorem fromHexDigit_isSome_of_mem_hexEncode {bytes : Bytes} {digit : UInt8}
    (member : digit ∈ hexEncode bytes) : (fromHexDigit digit).isSome := by
  simp only [hexEncode, List.mem_flatMap, List.mem_cons, List.not_mem_nil, or_false] at member
  obtain ⟨byte, -, rfl | rfl⟩ := member
  · rw [fromHexDigit_high]; rfl
  · rw [fromHexDigit_low]; rfl

/-- A separator that is no digit does not occur in an encoding. -/
theorem not_mem_hexEncode {separator : UInt8} (foreign : fromHexDigit separator = none)
    (bytes : Bytes) : separator ∉ hexEncode bytes := by
  intro member
  have some := fromHexDigit_isSome_of_mem_hexEncode member
  rw [foreign] at some
  cases some

/-- Text before the first separator, and text after it, are determined by the
whole. -/
theorem append_separator_inj {separator : UInt8} {left right leftRest rightRest : Bytes}
    (leftFree : separator ∉ left) (rightFree : separator ∉ right)
    (equal : left ++ separator :: leftRest = right ++ separator :: rightRest) :
    left = right ∧ leftRest = rightRest := by
  induction left generalizing right with
  | nil =>
      cases right with
      | nil => exact ⟨rfl, (List.cons.inj equal).2⟩
      | cons head tail =>
          have same : separator = head := (List.cons.inj equal).1
          exact absurd (same ▸ List.mem_cons_self) rightFree
  | cons byte rest inductionHypothesis =>
      cases right with
      | nil =>
          have same : byte = separator := (List.cons.inj equal).1
          exact absurd (same ▸ List.mem_cons_self) leftFree
      | cons head tail =>
          obtain ⟨rfl, tails⟩ := List.cons.inj equal
          obtain ⟨rfl, rests⟩ := inductionHypothesis
            (fun member => leftFree (List.mem_cons_of_mem _ member))
            (fun member => rightFree (List.mem_cons_of_mem _ member)) tails
          exact ⟨rfl, rests⟩

end FProto.Foundation

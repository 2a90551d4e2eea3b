import FProto.Foundation.Bytes

/-!
Owns the padded base64 texts of `base64.StdEncoding`. The decoder skips line
ends, wants the padding, and ignores the bits that the last digit has too many.
-/

namespace FProto.Foundation

namespace Base64

/-! ### Digits -/

/-- The digit of a value below 64: `A` to `Z`, `a` to `z`, `0` to `9`, `+` and `/`. -/
def digit (value : Nat) : UInt8 :=
  if value < 26 then UInt8.ofNat (65 + value)
  else if value < 52 then UInt8.ofNat (71 + value)
  else if value < 62 then UInt8.ofNat (value - 4)
  else if value = 62 then 43
  else 47

def fromDigit (byte : UInt8) : Option Nat :=
  if 65 ≤ byte ∧ byte ≤ 90 then some (byte.toNat - 65)
  else if 97 ≤ byte ∧ byte ≤ 122 then some (byte.toNat - 71)
  else if 48 ≤ byte ∧ byte ≤ 57 then some (byte.toNat + 4)
  else if byte = 43 then some 62
  else if byte = 47 then some 63
  else none

theorem fromDigit_digit {value : Nat} (below : value < 64) :
    fromDigit (digit value) = some value := by
  revert value
  decide

/-! ### Texts -/

/-- Three bytes as one number. -/
def word (first second third : UInt8) : Nat :=
  first.toNat * 65536 + second.toNat * 256 + third.toNat

/-- The four digits of a number. -/
def digits (value : Nat) : Bytes :=
  [digit (value / 262144 % 64), digit (value / 4096 % 64), digit (value / 64 % 64),
    digit (value % 64)]

/-- `EncodeToString`: three bytes are four digits, with `=` for digits that are
not needed. -/
def encode : Bytes → Bytes
  | first :: second :: third :: rest => digits (word first second third) ++ encode rest
  | [first, second] => (digits (word first second 0)).take 3 ++ [61]
  | [first] => (digits (word first 0 0)).take 2 ++ [61, 61]
  | [] => []

/-- The number that four digits stand for. -/
def valueOf (first second third fourth : UInt8) : Option Nat :=
  match fromDigit first, fromDigit second, fromDigit third, fromDigit fourth with
  | some first, some second, some third, some fourth =>
      some (first * 262144 + second * 4096 + third * 64 + fourth)
  | _, _, _, _ => none

/-- The three bytes of a number. -/
def bytesOf (value : Nat) : Bytes :=
  [UInt8.ofNat (value / 65536), UInt8.ofNat (value / 256), UInt8.ofNat value]

/-- The digits of a text without line ends. The digit `A` stands in for padding. -/
def decodeDigits : Bytes → Option Bytes
  | [] => some []
  | first :: second :: third :: fourth :: rest =>
      if third = 61 ∧ fourth = 61 ∧ rest = [] then
        (valueOf first second 65 65).map fun value => (bytesOf value).take 1
      else if fourth = 61 ∧ rest = [] then
        (valueOf first second third 65).map fun value => (bytesOf value).take 2
      else
        (valueOf first second third fourth).bind fun value =>
          (decodeDigits rest).map fun bytes => bytesOf value ++ bytes
  | _ => none

/-- `DecodeString`; `none` is a `CorruptInputError`. -/
def decode (text : Bytes) : Option Bytes :=
  decodeDigits (text.filter fun byte => byte != 10 && byte != 13)

/-! ### Texts are read back -/

/-- A digit or the padding. -/
def isText (byte : UInt8) : Bool := (fromDigit byte).isSome || byte == 61

theorem isText_of_mem_digits (value : Nat) : ∀ byte ∈ digits value, isText byte = true := by
  have isDigit : ∀ value, isText (digit (value % 64)) = true := by
    intro value
    rw [isText, fromDigit_digit (Nat.mod_lt value (by decide))]
    rfl
  simp [digits, isDigit]

theorem isText_of_mem_encode (bytes : Bytes) : ∀ byte ∈ encode bytes, isText byte = true := by
  intro byte member
  induction bytes using encode.induct with
  | case1 first second third rest inductionHypothesis =>
      rw [encode, List.mem_append] at member
      rcases member with here | later
      · exact isText_of_mem_digits _ byte here
      · exact inductionHypothesis later
  | case2 first second =>
      rw [encode, List.mem_append] at member
      rcases member with here | pad
      · exact isText_of_mem_digits _ byte (List.mem_of_mem_take here)
      · obtain rfl := List.mem_singleton.mp pad
        rfl
  | case3 first =>
      rw [encode, List.mem_append] at member
      rcases member with here | pad
      · exact isText_of_mem_digits _ byte (List.mem_of_mem_take here)
      · obtain rfl : byte = 61 := by simpa using pad
        rfl
  | case4 => cases member

theorem word_lt (first second third : UInt8) : word first second third < 16777216 := by
  have firstByte := first.toNat_lt
  have secondByte := second.toNat_lt
  have thirdByte := third.toNat_lt
  unfold word
  omega

theorem bytesOf_word (first second third : UInt8) :
    bytesOf (word first second third) = [first, second, third] := by
  have firstByte := first.toNat_lt
  have secondByte := second.toNat_lt
  have thirdByte := third.toNat_lt
  simp only [bytesOf, word, List.cons.injEq, ← UInt8.toNat_inj, UInt8.toNat_ofNat', and_true]
  omega

/-- The digits of a number with 24 bits, of which the last ones may be missing
when they are zero. -/
theorem valueOf_digits {value : Nat} (below : value < 16777216) :
    valueOf (digit (value / 262144 % 64)) (digit (value / 4096 % 64)) (digit (value / 64 % 64))
        (digit (value % 64)) = some value := by
  have digitOf : ∀ value, fromDigit (digit (value % 64)) = some (value % 64) := fun value =>
    fromDigit_digit (Nat.mod_lt value (by decide))
  simp only [valueOf, digitOf, Option.some.injEq]
  omega

theorem digit_ne_pad (value : Nat) : digit (value % 64) ≠ 61 := by
  intro same
  have found := fromDigit_digit (Nat.mod_lt value (by decide : 0 < 64))
  rw [same] at found
  cases found

theorem decodeDigits_encode (bytes : Bytes) : decodeDigits (encode bytes) = some bytes := by
  induction bytes using encode.induct with
  | case1 first second third rest inductionHypothesis =>
      have whole := valueOf_digits (word_lt first second third)
      rw [encode, digits, List.cons_append, List.cons_append, List.cons_append, List.cons_append,
        List.nil_append, decodeDigits, if_neg (fun pad => digit_ne_pad _ pad.1),
        if_neg (fun pad => digit_ne_pad _ pad.1), whole, Option.bind_some, inductionHypothesis,
        Option.map_some, bytesOf_word]
      rfl
  | case2 first second =>
      have whole := valueOf_digits (word_lt first second 0)
      have last : word first second 0 % 64 = 0 := by
        simp only [word, UInt8.toNat_zero]
        omega
      rw [last] at whole
      rw [encode, digits]
      simp only [List.take_succ_cons, List.take_zero, List.cons_append, List.nil_append]
      rw [decodeDigits, if_neg (fun pad => digit_ne_pad _ pad.1), if_pos ⟨rfl, rfl⟩]
      exact (congrArg (Option.map _) whole).trans (by rw [Option.map_some, bytesOf_word]; rfl)
  | case3 first =>
      have whole := valueOf_digits (word_lt first 0 0)
      have last : word first 0 0 % 64 = 0 ∧ word first 0 0 / 64 % 64 = 0 := by
        simp only [word, UInt8.toNat_zero]
        omega
      rw [last.1, last.2] at whole
      rw [encode, digits]
      simp only [List.take_succ_cons, List.take_zero, List.cons_append, List.nil_append]
      rw [decodeDigits, if_pos ⟨rfl, rfl, rfl⟩]
      exact (congrArg (Option.map _) whole).trans (by rw [Option.map_some, bytesOf_word]; rfl)
  | case4 => rfl

/-- **Bytes are read back.** -/
@[simp] theorem decode_encode (bytes : Bytes) : decode (encode bytes) = some bytes := by
  have noLineEnd : (encode bytes).filter (fun byte => byte != 10 && byte != 13) = encode bytes := by
    refine List.filter_eq_self.mpr fun byte member => ?_
    have text := isText_of_mem_encode bytes byte member
    simp only [Bool.and_eq_true, bne_iff_ne]
    constructor <;> rintro rfl <;> cases text
  rw [decode, noLineEnd, decodeDigits_encode]

end Base64

end FProto.Foundation

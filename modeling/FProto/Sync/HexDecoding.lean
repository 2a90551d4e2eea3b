import FProto.Sync.Recipient

/-!
Owns what `hexDecode` of `server/internal/sync/handler.go` accepts.

It scans the text two bytes at a time with `fmt.Sscanf`, which skips spaces, is content
with one digit and ignores what follows, and it never looks at a last single byte.

**Main result.** It accepts exactly hexadecimal text, and then inverts the encoding, for
a text that is hexadecimal or has a pair no number can be read from
(`hexDecode_exact_iff`). Every other text is read as some user's identifier.
-/

namespace FProto.Sync

open FProto.Foundation

/-- An even number of hexadecimal digits. -/
def IsHex (text : Bytes) : Prop :=
  text.length % 2 = 0 ∧ ∀ byte ∈ text, (fromHexDigit byte).isSome

instance (text : Bytes) : Decidable (IsHex text) :=
  inferInstanceAs (Decidable (_ ∧ _))

/-- A letter in lower case, and any other byte. -/
def toLower (byte : UInt8) : UInt8 :=
  if 65 ≤ byte ∧ byte ≤ 90 then byte + 32 else byte

/-- `hexDecode` succeeds on the text exactly when it is hexadecimal, and then the encoding
of the result is the text in lower case. -/
def AcceptsExactly (text : Bytes) : Prop :=
  ((∃ bytes, hexDecode text = some bytes) ↔ IsHex text) ∧
    ∀ bytes, hexDecode text = some bytes → hexEncode bytes = text.map toLower

/-- The pairs of bytes that the loop looks at. -/
def pairs : Bytes → List (UInt8 × UInt8)
  | first :: second :: rest => (first, second) :: pairs rest
  | _ => []

/-- A number can be read from a pair: it starts with a digit, or it is a space and a
digit. -/
def Scans (pair : UInt8 × UInt8) : Prop :=
  (fromHexDigit pair.1).isSome ∨ isScanSpace pair.1 = true ∧ (fromHexDigit pair.2).isSome

/-! ### One pair -/

theorem fromHexDigit_of_isScanSpace {byte : UInt8} (space : isScanSpace byte = true) :
    fromHexDigit byte = none := by
  simp only [isScanSpace, Bool.or_eq_true, beq_iff_eq] at space
  rcases space with (((rfl | rfl) | rfl) | rfl) | rfl <;> rfl

/-- The value of a digit is below sixteen, and the digit of the value is the same letter
in lower case. -/
theorem hexDigit_of_fromHexDigit {byte : UInt8} {value : Nat}
    (isValue : fromHexDigit byte = some value) : value < 16 ∧ hexDigit value = toLower byte := by
  have all : ∀ code : Fin 256, ∀ value ∈ fromHexDigit (UInt8.ofNat code.val),
      value < 16 ∧ hexDigit value = toLower (UInt8.ofNat code.val) := by
    decide +kernel
  have known := all ⟨byte.toNat, byte.toNat_lt⟩ value
  rw [UInt8.ofNat_toNat] at known
  exact known isValue

theorem sscanfHex_isSome_iff (first second : UInt8) :
    (sscanfHex [first, second]).isSome ↔ Scans (first, second) := by
  unfold sscanfHex Scans
  by_cases space : isScanSpace first = true
  · have noDigit := fromHexDigit_of_isScanSpace space
    by_cases spaces : isScanSpace second = true
    · have noOther := fromHexDigit_of_isScanSpace spaces
      simp [space, spaces, noDigit, noOther]
    · simp [space, spaces, noDigit]
  · rw [List.dropWhile_cons_of_neg space]
    cases isHigh : fromHexDigit first with
    | none => simp [isHigh, space]
    | some high => cases isLow : fromHexDigit second <;> simp [isHigh, isLow]

/-- A pair of digits is read as the byte they encode. -/
theorem sscanfHex_digits {first second : UInt8} {high low : Nat}
    (isHigh : fromHexDigit first = some high) (isLow : fromHexDigit second = some low) :
    sscanfHex [first, second] = some (UInt8.ofNat (16 * high + low)) := by
  have noSpace : isScanSpace first = false := by
    cases space : isScanSpace first with
    | false => rfl
    | true =>
        rw [fromHexDigit_of_isScanSpace space] at isHigh
        cases isHigh
  unfold sscanfHex
  rw [List.dropWhile_cons, noSpace]
  simp [isHigh, isLow]

/-! ### The loop -/

/-- `hexDecode` succeeds when a number can be read from every pair. -/
theorem hexDecode_isSome_iff (text : Bytes) :
    (∃ bytes, hexDecode text = some bytes) ↔ ∀ pair ∈ pairs text, Scans pair := by
  induction text using pairs.induct with
  | case1 first second rest inductionHypothesis =>
      rw [pairs, List.forall_mem_cons, ← inductionHypothesis, ← sscanfHex_isSome_iff, hexDecode]
      cases sscanfHex [first, second] with
      | none => simp
      | some byte => cases hexDecode rest <;> simp
  | case2 text short =>
      have noPairs : pairs text = [] := by
        unfold pairs
        split
        · next first second rest => exact absurd rfl (short first second rest)
        · rfl
      have nothing : hexDecode text = some [] := by
        unfold hexDecode
        split
        · next first second rest => exact absurd rfl (short first second rest)
        · rfl
      simp [noPairs, nothing]

/-- Hexadecimal text is decoded, and the encoding gives it back in lower case. -/
theorem hexDecode_of_isHex {text : Bytes} (isHex : IsHex text) :
    ∃ bytes, hexDecode text = some bytes ∧ hexEncode bytes = text.map toLower := by
  induction text using pairs.induct with
  | case1 first second rest inductionHypothesis =>
      obtain ⟨even, digits⟩ := isHex
      rw [List.length_cons, List.length_cons] at even
      have restHex : IsHex rest := by
        refine ⟨by omega, fun byte member => digits byte ?_⟩
        exact List.mem_cons_of_mem _ (List.mem_cons_of_mem _ member)
      obtain ⟨bytes, decoded, encoded⟩ := inductionHypothesis restHex
      obtain ⟨high, isHigh⟩ := Option.isSome_iff_exists.mp (digits first (by simp))
      obtain ⟨low, isLow⟩ := Option.isSome_iff_exists.mp (digits second (by simp))
      obtain ⟨highBelow, highDigit⟩ := hexDigit_of_fromHexDigit isHigh
      obtain ⟨lowBelow, lowDigit⟩ := hexDigit_of_fromHexDigit isLow
      have value : (UInt8.ofNat (16 * high + low)).toNat = 16 * high + low :=
        UInt8.toNat_ofNat_of_lt' (show 16 * high + low < 256 by omega)
      refine ⟨UInt8.ofNat (16 * high + low) :: bytes, ?_, ?_⟩
      · rw [hexDecode, sscanfHex_digits isHigh isLow, decoded]
        rfl
      · rw [hexEncode_cons, value, show (16 * high + low) / 16 = high by omega,
          show (16 * high + low) % 16 = low by omega, highDigit, lowDigit, encoded]
        rfl
  | case2 text short =>
      cases text with
      | nil => exact ⟨[], rfl, rfl⟩
      | cons first rest =>
          cases rest with
          | nil => exact absurd isHex.1 (by simp)
          | cons second rest => exact absurd rfl (short first second rest)

/-- **When `hexDecode` accepts exactly hexadecimal text.** For every text: it succeeds
exactly when the text is hexadecimal, and then inverts the encoding, if and only if the
text is hexadecimal or has a pair from which no number can be read. -/
theorem hexDecode_exact_iff (text : Bytes) :
    AcceptsExactly text ↔ IsHex text ∨ ∃ pair ∈ pairs text, ¬Scans pair := by
  have refuses : (∃ pair ∈ pairs text, ¬Scans pair) ↔ ¬∃ bytes, hexDecode text = some bytes := by
    rw [hexDecode_isSome_iff]
    simp
  rw [refuses]
  constructor
  · intro exactly
    by_cases isHex : IsHex text
    · exact .inl isHex
    · exact .inr fun accepted => isHex (exactly.1.mp accepted)
  · rintro (isHex | refused)
    · obtain ⟨bytes, decoded, encoded⟩ := hexDecode_of_isHex isHex
      refine ⟨iff_of_true ⟨bytes, decoded⟩ isHex, fun other isOther => ?_⟩
      obtain rfl := Option.some.inj (decoded.symm.trans isOther)
      exact encoded
    · refine ⟨iff_of_false refused fun isHex => refused ?_, fun bytes decoded => ?_⟩
      · obtain ⟨bytes, decoded, -⟩ := hexDecode_of_isHex isHex
        exact ⟨bytes, decoded⟩
      · exact absurd ⟨bytes, decoded⟩ refused

/-- A topic that is not hexadecimal names the same user as a proper one. -/
theorem malformed_topic_names_user :
    hexDecode (utf8 "1g2") = some [1] ∧ ¬IsHex (utf8 "1g2") ∧
      topicRecipient (utf8 "user-1g2") = topicRecipient (utf8 "user-01") := by
  decide +kernel

end FProto.Sync

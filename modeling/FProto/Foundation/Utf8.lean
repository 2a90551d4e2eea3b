import FProto.Foundation.Bytes

/-!
Owns the byte sequences of UTF-8 as `unicode/utf8` reads them: where a
character of several bytes begins, which texts are valid, and the text in which
every byte that belongs to no character is replaced by U+FFFD.

A text is read byte by byte with the number of bytes that still belong to the
current character, so every function here is a recursion on the bytes.
-/

namespace FProto.Foundation.Utf8

/-- The length of the character that a first byte announces, and the range of
its second byte. -/
def leading (first : UInt8) : Option (Nat × UInt8 × UInt8) :=
  if 0xC2 ≤ first ∧ first ≤ 0xDF then some (2, 0x80, 0xBF)
  else if first = 0xE0 then some (3, 0xA0, 0xBF)
  else if 0xE1 ≤ first ∧ first ≤ 0xEC then some (3, 0x80, 0xBF)
  else if first = 0xED then some (3, 0x80, 0x9F)
  else if 0xEE ≤ first ∧ first ≤ 0xEF then some (3, 0x80, 0xBF)
  else if first = 0xF0 then some (4, 0x90, 0xBF)
  else if 0xF1 ≤ first ∧ first ≤ 0xF3 then some (4, 0x80, 0xBF)
  else if first = 0xF4 then some (4, 0x80, 0x8F)
  else none

/-- A byte that continues a character. -/
def isTail (byte : UInt8) : Bool := 0x80 ≤ byte && byte ≤ 0xBF

/-- How many bytes of the text after `first` belong to the character that
`first` begins, or `none` when `utf8.DecodeRune` finds no character. -/
def tailSize (first : UInt8) : Bytes → Option Nat
  | [] => none
  | second :: rest =>
      match leading first with
      | none => none
      | some (size, low, high) =>
          let tails := rest.take (size - 2)
          if low ≤ second ∧ second ≤ high ∧ tails.length = size - 2 ∧ tails.all isTail then
            some (size - 1)
          else none

/-- U+FFFD. -/
def replacement : Bytes := [0xEF, 0xBF, 0xBD]

/-- `utf8.Valid` of a text whose first `size` bytes end a character. -/
def validFrom : Nat → Bytes → Bool
  | 0, [] => true
  | _ + 1, [] => false
  | size + 1, _ :: rest => validFrom size rest
  | 0, byte :: rest =>
      if byte < 0x80 then validFrom 0 rest
      else
        match tailSize byte rest with
        | none => false
        | some size => validFrom size rest

/-- `utf8.Valid`. -/
def valid (bytes : Bytes) : Bool := validFrom 0 bytes

/-- The same text with U+FFFD for every byte that belongs to no character. -/
def toValidFrom : Nat → Bytes → Bytes
  | _, [] => []
  | size + 1, byte :: rest => byte :: toValidFrom size rest
  | 0, byte :: rest =>
      if byte < 0x80 then byte :: toValidFrom 0 rest
      else
        match tailSize byte rest with
        | none => replacement ++ toValidFrom 0 rest
        | some size => byte :: toValidFrom size rest

def toValid (bytes : Bytes) : Bytes := toValidFrom 0 bytes

theorem toValidFrom_of_validFrom {size : Nat} {bytes : Bytes}
    (isValid : validFrom size bytes = true) : toValidFrom size bytes = bytes := by
  induction bytes generalizing size with
  | nil => cases size <;> rfl
  | cons byte rest inductionHypothesis =>
      cases size with
      | succ size =>
          rw [toValidFrom, inductionHypothesis isValid]
      | zero =>
          unfold validFrom at isValid
          unfold toValidFrom
          by_cases ascii : byte < 0x80
          · rw [if_pos ascii] at isValid ⊢
            rw [inductionHypothesis isValid]
          · rw [if_neg ascii] at isValid ⊢
            cases found : tailSize byte rest with
            | none => rw [found] at isValid; cases isValid
            | some size =>
                rw [found] at isValid
                exact congrArg (byte :: ·) (inductionHypothesis isValid)

/-- A valid text has nothing to replace. -/
theorem toValid_of_valid {bytes : Bytes} (isValid : valid bytes = true) :
    toValid bytes = bytes :=
  toValidFrom_of_validFrom isValid

/-- A text without characters of several bytes is valid. -/
theorem toValid_of_ascii {bytes : Bytes} (ascii : ∀ byte ∈ bytes, byte < 0x80) :
    toValid bytes = bytes := by
  unfold toValid
  induction bytes with
  | nil => rfl
  | cons byte rest inductionHypothesis =>
      rw [toValidFrom, if_pos (ascii byte List.mem_cons_self),
        inductionHypothesis fun other member => ascii other (List.mem_cons_of_mem _ member)]

/-- Inside a character the bytes are kept. -/
theorem toValidFrom_eq (size : Nat) (bytes : Bytes) :
    toValidFrom size bytes = bytes.take size ++ toValidFrom 0 (bytes.drop size) := by
  induction bytes generalizing size with
  | nil => cases size <;> simp [toValidFrom]
  | cons byte rest inductionHypothesis =>
      cases size with
      | zero => rfl
      | succ size =>
          rw [toValidFrom, inductionHypothesis size]
          rfl

/-! ### What follows a first byte -/

theorem tailSize_eq_some {first : UInt8} {bytes : Bytes} {size : Nat}
    (found : tailSize first bytes = some size) :
    ∃ second rest low high, bytes = second :: rest ∧
      leading first = some (size + 1, low, high) ∧ low ≤ second ∧ second ≤ high ∧
      (rest.take (size - 1)).length = size - 1 ∧ (rest.take (size - 1)).all isTail ∧
      1 ≤ size := by
  cases bytes with
  | nil => cases found
  | cons second rest =>
      unfold tailSize at found
      cases leads : leading first with
      | none => rw [leads] at found; cases found
      | some range =>
          obtain ⟨length, low, high⟩ := range
          have long : 2 ≤ length := by
            unfold leading at leads
            repeat' split at leads
            all_goals first | cases leads; decide | cases leads
          rw [leads] at found
          dsimp only at found
          split at found
          · next within =>
            obtain ⟨above, below, full, tails⟩ := within
            obtain rfl := Option.some.inj found
            refine ⟨second, rest, low, high, rfl, ?_, above, below, full, tails, by omega⟩
            congr
            omega
          · cases found

/-- The character ends inside the text. -/
theorem tailSize_le {first : UInt8} {bytes : Bytes} {size : Nat}
    (found : tailSize first bytes = some size) : size ≤ bytes.length := by
  obtain ⟨second, rest, low, high, rfl, -, -, -, full, -, positive⟩ := tailSize_eq_some found
  rw [List.length_take] at full
  rw [List.length_cons]
  omega

/-- The character does not depend on what comes after it. -/
theorem tailSize_take_append {first : UInt8} {bytes : Bytes} {size : Nat}
    (found : tailSize first bytes = some size) (rest : Bytes) :
    tailSize first (bytes.take size ++ rest) = some size := by
  obtain ⟨second, others, low, high, rfl, leads, above, below, full, tails, positive⟩ :=
    tailSize_eq_some found
  obtain ⟨count, rfl⟩ : ∃ count, size = count + 1 := ⟨size - 1, by omega⟩
  have sameTails : (others.take count ++ rest).take count = others.take count := by
    rw [List.take_append_of_le_length (by
      simp only [Nat.add_sub_cancel] at full; omega), List.take_take, Nat.min_self]
  rw [List.take_succ_cons, List.cons_append, tailSize, leads]
  simp only [Nat.add_sub_cancel] at full tails ⊢
  rw [show count + 1 + 1 - 2 = count by omega, sameTails, if_pos ⟨above, below, full, tails⟩]

end FProto.Foundation.Utf8

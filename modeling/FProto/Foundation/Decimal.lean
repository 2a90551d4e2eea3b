import FProto.Foundation.Bytes

/-!
Owns decimal texts as `strconv` and `encoding/json` write them: the text of a
natural number and of an integer, the value of a string of digits, and the
round trip.
-/

namespace FProto.Foundation

theorem utf8_append (left right : String) : utf8 (left ++ right) = utf8 left ++ utf8 right := by
  simp [utf8]

/-- `strconv.FormatUint(value, 10)`. -/
def decimal (value : Nat) : Bytes := utf8 (toString value)

/-- `strconv.FormatInt(value, 10)`. -/
def decimalInt (value : Int) : Bytes := utf8 (toString value)

/-- A decimal digit. -/
def isDigit (byte : UInt8) : Bool := 48 ≤ byte && byte ≤ 57

/-- The value of digits that follow the digits of `value`. -/
def digitsValue (value : Nat) (digits : Bytes) : Nat :=
  digits.foldl (fun value digit => 10 * value + (digit.toNat - 48)) value

/-! ### The digits of a number -/

theorem decimal_of_lt {value : Nat} (below : value < 10) :
    decimal value = [UInt8.ofNat (48 + value)] := by
  have all : ∀ value : Fin 10, decimal value.val = [UInt8.ofNat (48 + value.val)] := by decide
  exact all ⟨value, below⟩

theorem decimal_of_ge {value : Nat} (above : 10 ≤ value) :
    decimal value = decimal (value / 10) ++ [UInt8.ofNat (48 + value % 10)] := by
  have split : toString value = toString (value / 10) ++ toString (value % 10) := by
    simp only [Nat.toString_eq_repr]
    exact Nat.repr_eq_repr_append_repr above
  rw [decimal, split, utf8_append]
  exact congrArg (decimal (value / 10) ++ ·) (decimal_of_lt (Nat.mod_lt _ (by decide)))

theorem isDigit_ofNat {value : Nat} (below : value < 10) :
    isDigit (UInt8.ofNat (48 + value)) = true := by
  have all : ∀ value : Fin 10, isDigit (UInt8.ofNat (48 + value.val)) = true := by decide
  exact all ⟨value, below⟩

theorem toNat_ofNat_digit {value : Nat} (below : value < 10) :
    (UInt8.ofNat (48 + value)).toNat - 48 = value := by
  rw [UInt8.toNat_ofNat_of_lt' (by simp [UInt8.size]; omega)]
  omega

theorem decimal_ne_nil (value : Nat) : decimal value ≠ [] := by
  by_cases below : value < 10
  · rw [decimal_of_lt below]
    exact List.cons_ne_nil _ _
  · rw [decimal_of_ge (by omega)]
    simp

theorem isDigit_of_mem_decimal {value : Nat} {byte : UInt8} (member : byte ∈ decimal value) :
    isDigit byte = true := by
  induction value using Nat.strongRecOn with
  | ind value inductionHypothesis =>
      by_cases below : value < 10
      · rw [decimal_of_lt below, List.mem_singleton] at member
        rw [member]
        exact isDigit_ofNat below
      · rw [decimal_of_ge (by omega)] at member
        rcases List.mem_append.mp member with early | last
        · exact inductionHypothesis (value / 10) (by omega) early
        · rw [List.mem_singleton.mp last]
          exact isDigit_ofNat (Nat.mod_lt _ (by decide))

/-- The only number whose text begins with a zero is zero. -/
theorem head_decimal_ne_zero {value : Nat} (positive : 0 < value) :
    (decimal value).head? ≠ some 48 := by
  induction value using Nat.strongRecOn with
  | ind value inductionHypothesis =>
      by_cases below : value < 10
      · have all : ∀ value : Fin 10, 0 < value.val →
            [UInt8.ofNat (48 + value.val)].head? ≠ some 48 := by decide
        rw [decimal_of_lt below]
        exact all ⟨value, below⟩ positive
      · rw [decimal_of_ge (by omega),
          List.head?_append_of_ne_nil _ (decimal_ne_nil _)]
        exact inductionHypothesis (value / 10) (by omega) (by omega)

theorem digitsValue_append (value : Nat) (first second : Bytes) :
    digitsValue value (first ++ second) = digitsValue (digitsValue value first) second :=
  List.foldl_append

/-- The value of the digits of a number is the number. -/
theorem digitsValue_decimal (value : Nat) : digitsValue 0 (decimal value) = value := by
  induction value using Nat.strongRecOn with
  | ind value inductionHypothesis =>
      by_cases below : value < 10
      · rw [decimal_of_lt below]
        have digit := toNat_ofNat_digit below
        simp only [digitsValue, List.foldl_cons, List.foldl_nil]
        omega
      · have digit := toNat_ofNat_digit (Nat.mod_lt value (by decide : 0 < 10))
        rw [decimal_of_ge (by omega), digitsValue_append,
          inductionHypothesis (value / 10) (by omega)]
        simp only [digitsValue, List.foldl_cons, List.foldl_nil]
        omega

theorem le_digitsValue (value : Nat) (digits : Bytes) : value ≤ digitsValue value digits := by
  induction digits generalizing value with
  | nil => exact Nat.le_refl _
  | cons digit digits inductionHypothesis =>
      have step := inductionHypothesis (10 * value + (digit.toNat - 48))
      simp only [digitsValue, List.foldl_cons] at step ⊢
      omega

/-! ### Integers -/

theorem decimalInt_of_nonneg {value : Int} (nonneg : 0 ≤ value) :
    decimalInt value = decimal value.toNat := by
  rw [decimalInt, decimal, Int.toString_eq_repr, Int.repr_eq_if, if_pos nonneg,
    Nat.toString_eq_repr]

theorem decimalInt_of_neg {value : Int} (negative : value < 0) :
    decimalInt value = 45 :: decimal (-value).toNat := by
  rw [decimalInt, decimal, Int.toString_eq_repr, Int.repr_eq_if, if_neg (by omega),
    utf8_append, Nat.toString_eq_repr]
  rfl

end FProto.Foundation

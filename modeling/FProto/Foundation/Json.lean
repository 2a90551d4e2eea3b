import FProto.Foundation.Decimal
import FProto.Foundation.Utf8

/-!
Owns JSON texts as `encoding/json` writes and reads them: strings with their
escapes, integers, flat objects, and a reader for every JSON text.

The writer escapes the characters that are special in HTML and replaces bytes
that are no UTF-8; the reader does the latter too. A string that was written is
therefore read back as the valid text it stands for, and unchanged when it was
valid.
-/

namespace FProto.Foundation

/-- A JSON value. A number keeps its text. -/
inductive Json where
  | null
  | bool (value : Bool)
  | number (literal : Bytes)
  | string (content : Bytes)
  | array (elements : List Json)
  | object (fields : List (Bytes × Json))

namespace Json

/-! ### Writing -/

/-- The escape of a byte below `0x80`. -/
def escapeByte (byte : UInt8) : Bytes :=
  if byte = 34 ∨ byte = 92 then [92, byte]
  else if byte = 8 then utf8 "\\b"
  else if byte = 12 then utf8 "\\f"
  else if byte = 10 then utf8 "\\n"
  else if byte = 13 then utf8 "\\r"
  else if byte = 9 then utf8 "\\t"
  else if byte < 32 ∨ byte = 60 ∨ byte = 62 ∨ byte = 38 then utf8 "\\u00" ++ hexEncode [byte]
  else [byte]

/-- The escapes of the characters U+2028 and U+2029. -/
def separator (first : UInt8) (rest : Bytes) : Option Bytes :=
  if first = 0xE2 ∧ rest.take 2 = [0x80, 0xA8] then some (utf8 "\\u2028")
  else if first = 0xE2 ∧ rest.take 2 = [0x80, 0xA9] then some (utf8 "\\u2029")
  else none

/-- The escaped text, where the first `size` bytes end a character that is kept
or dropped. -/
def escapeFrom : Bool → Nat → Bytes → Bytes
  | _, _, [] => []
  | true, size + 1, byte :: rest => byte :: escapeFrom true size rest
  | false, size + 1, _ :: rest => escapeFrom false size rest
  | _, 0, byte :: rest =>
      if byte < 0x80 then escapeByte byte ++ escapeFrom true 0 rest
      else
        match Utf8.tailSize byte rest with
        | none => utf8 "\\ufffd" ++ escapeFrom true 0 rest
        | some size =>
            match separator byte rest with
            | some escaped => escaped ++ escapeFrom false size rest
            | none => byte :: escapeFrom true size rest

/-- A string between its quotes. -/
def quote (content : Bytes) : Bytes := 34 :: escapeFrom true 0 content ++ [34]

/-- The members of an object, from their names and the texts of their values. -/
def printMembers : List (Bytes × Bytes) → Bytes
  | [] => []
  | [(name, text)] => quote name ++ 58 :: text
  | (name, text) :: fields => quote name ++ 58 :: text ++ 44 :: printMembers fields

def printObject (fields : List (Bytes × Bytes)) : Bytes := 123 :: printMembers fields ++ [125]

/-! ### Reading strings -/

/-- The value of four hexadecimal digits. -/
def hex4 (first second third fourth : UInt8) : Option Nat :=
  match fromHexDigit first, fromHexDigit second, fromHexDigit third, fromHexDigit fourth with
  | some first, some second, some third, some fourth =>
      some (4096 * first + 256 * second + 16 * third + fourth)
  | _, _, _, _ => none

/-- `utf8.AppendRune`. -/
def encodeRune (rune : Nat) : Bytes :=
  if rune < 0x80 then [UInt8.ofNat rune]
  else if rune < 0x800 then [UInt8.ofNat (0xC0 + rune / 64), UInt8.ofNat (0x80 + rune % 64)]
  else if 0xD800 ≤ rune ∧ rune < 0xE000 then Utf8.replacement
  else if rune < 0x10000 then
    [UInt8.ofNat (0xE0 + rune / 4096), UInt8.ofNat (0x80 + rune / 64 % 64),
      UInt8.ofNat (0x80 + rune % 64)]
  else if rune < 0x110000 then
    [UInt8.ofNat (0xF0 + rune / 262144), UInt8.ofNat (0x80 + rune / 4096 % 64),
      UInt8.ofNat (0x80 + rune / 64 % 64), UInt8.ofNat (0x80 + rune % 64)]
  else Utf8.replacement

/-- The byte that an escape of two characters stands for. -/
def simpleEscape (letter : UInt8) : Option UInt8 :=
  if letter = 34 ∨ letter = 92 ∨ letter = 47 then some letter
  else if letter = 98 then some 8
  else if letter = 102 then some 12
  else if letter = 110 then some 10
  else if letter = 114 then some 13
  else if letter = 116 then some 9
  else none

/-- The character that two UTF-16 units stand for. -/
def surrogatePair (high low : Nat) : Option Nat :=
  if 0xD800 ≤ high ∧ high < 0xDC00 ∧ 0xDC00 ≤ low ∧ low < 0xE000 then
    some (0x10000 + (high - 0xD800) * 1024 + (low - 0xDC00))
  else none

/-- Put bytes in front of what was read. -/
def before {Value : Type} (bytes : Bytes) (read : Option (Bytes × Value)) :
    Option (Bytes × Value) :=
  read.map fun (content, rest) => (bytes ++ content, rest)

/-- Read up to the closing quote; the first `size` bytes end a character. A
surrogate without its partner is replaced. -/
def unquote : Nat → Bytes → Option (Bytes × Bytes)
  | _, [] => none
  | size + 1, byte :: rest => before [byte] (unquote size rest)
  | 0, byte :: rest =>
      if byte = 34 then some ([], rest)
      else if byte = 92 then
        match rest with
        | 117 :: first :: second :: third :: fourth :: rest =>
            match hex4 first second third fourth with
            | none => none
            | some unit =>
                match rest with
                | 92 :: 117 :: fifth :: sixth :: seventh :: eighth :: later =>
                    match (hex4 fifth sixth seventh eighth).bind (surrogatePair unit) with
                    | some rune => before (encodeRune rune) (unquote 0 later)
                    | none =>
                        before (encodeRune unit)
                          (unquote 0 (92 :: 117 :: fifth :: sixth :: seventh :: eighth :: later))
                | rest => before (encodeRune unit) (unquote 0 rest)
        | letter :: rest =>
            match simpleEscape letter with
            | none => none
            | some byte => before [byte] (unquote 0 rest)
        | [] => none
      else if byte < 32 then none
      else if byte < 0x80 then before [byte] (unquote 0 rest)
      else
        match Utf8.tailSize byte rest with
        | none => before Utf8.replacement (unquote 0 rest)
        | some size => before [byte] (unquote size rest)

/-! ### Reading values -/

def isSpace (byte : UInt8) : Bool := byte = 32 || byte = 9 || byte = 10 || byte = 13

def skipSpace (bytes : Bytes) : Bytes := bytes.dropWhile isSpace

/-- The digits after a mark such as a decimal point; at least one is needed. -/
def digitsAfter (mark rest : Bytes) : Option (Bytes × Bytes) :=
  if rest.takeWhile isDigit = [] then none
  else some (mark ++ rest.takeWhile isDigit, rest.dropWhile isDigit)

def integerPart : Bytes → Option (Bytes × Bytes)
  | 48 :: rest => some ([48], rest)
  | rest => digitsAfter [] rest

def fractionPart : Bytes → Option (Bytes × Bytes)
  | 46 :: rest => digitsAfter [46] rest
  | rest => some ([], rest)

def exponentPart : Bytes → Option (Bytes × Bytes)
  | mark :: rest =>
      if mark = 101 ∨ mark = 69 then
        match rest with
        | 43 :: rest => digitsAfter [mark, 43] rest
        | 45 :: rest => digitsAfter [mark, 45] rest
        | rest => digitsAfter [mark] rest
      else some ([], mark :: rest)
  | [] => some ([], [])

/-- A number without its sign. -/
def unsigned (bytes : Bytes) : Option (Bytes × Bytes) :=
  (integerPart bytes).bind fun (integer, rest) =>
    (fractionPart rest).bind fun (fraction, rest) =>
      (exponentPart rest).map fun (exponent, rest) => (integer ++ fraction ++ exponent, rest)

def readNumber : Bytes → Option (Bytes × Bytes)
  | 45 :: rest => before [45] (unsigned rest)
  | rest => unsigned rest

/-- `maxNestingDepth`. -/
def maxNestingDepth : Nat := 10000

/- Every call reads at least one byte before the next one, so fuel beyond the
length of the text is never used up. -/
mutual

/-- A value inside `depth` arrays and objects. -/
def readValue : Nat → Nat → Bytes → Option (Json × Bytes)
  | 0, _, _ => none
  | fuel + 1, depth, bytes =>
      match skipSpace bytes with
      | 34 :: rest => (unquote 0 rest).map fun (content, rest) => (.string content, rest)
      | 123 :: rest =>
          if maxNestingDepth ≤ depth then none
          else
            match skipSpace rest with
            | 125 :: rest => some (.object [], rest)
            | rest => (readMembers fuel (depth + 1) rest).map fun (fields, rest) =>
                (.object fields, rest)
      | 91 :: rest =>
          if maxNestingDepth ≤ depth then none
          else
            match skipSpace rest with
            | 93 :: rest => some (.array [], rest)
            | rest => (readElements fuel (depth + 1) rest).map fun (values, rest) =>
                (.array values, rest)
      | 110 :: 117 :: 108 :: 108 :: rest => some (.null, rest)
      | 116 :: 114 :: 117 :: 101 :: rest => some (.bool true, rest)
      | 102 :: 97 :: 108 :: 115 :: 101 :: rest => some (.bool false, rest)
      | bytes => (readNumber bytes).map fun (literal, rest) => (.number literal, rest)

/-- The members of an object up to its closing brace. -/
def readMembers : Nat → Nat → Bytes → Option (List (Bytes × Json) × Bytes)
  | 0, _, _ => none
  | fuel + 1, depth, bytes =>
      match skipSpace bytes with
      | 34 :: rest =>
          match unquote 0 rest with
          | none => none
          | some (name, rest) =>
              match skipSpace rest with
              | 58 :: rest =>
                  match readValue fuel depth rest with
                  | none => none
                  | some (json, rest) =>
                      match skipSpace rest with
                      | 125 :: rest => some ([(name, json)], rest)
                      | 44 :: rest => (readMembers fuel depth rest).map fun (fields, rest) =>
                          ((name, json) :: fields, rest)
                      | _ => none
              | _ => none
      | _ => none

/-- The elements of an array up to its closing bracket. -/
def readElements : Nat → Nat → Bytes → Option (List Json × Bytes)
  | 0, _, _ => none
  | fuel + 1, depth, bytes =>
      match readValue fuel depth bytes with
      | none => none
      | some (json, rest) =>
          match skipSpace rest with
          | 93 :: rest => some ([json], rest)
          | 44 :: rest => (readElements fuel depth rest).map fun (values, rest) =>
              (json :: values, rest)
          | _ => none

end

/-- A whole text. -/
def parse (bytes : Bytes) : Option Json :=
  match readValue (bytes.length + 1) 0 bytes with
  | none => none
  | some (json, rest) => if skipSpace rest = [] then some json else none

/-! ### Strings are read back -/

@[simp] theorem before_some {Value : Type} (bytes content : Bytes) (rest : Value) :
    before bytes (some (content, rest)) = some (bytes ++ content, rest) := rfl

theorem escapeFrom_true (size : Nat) (bytes : Bytes) :
    escapeFrom true size bytes = bytes.take size ++ escapeFrom true 0 (bytes.drop size) := by
  induction bytes generalizing size with
  | nil => cases size <;> simp [escapeFrom]
  | cons byte rest inductionHypothesis =>
      cases size with
      | zero => rfl
      | succ size =>
          rw [escapeFrom, inductionHypothesis size]
          rfl

theorem escapeFrom_false_zero (bytes : Bytes) :
    escapeFrom false 0 bytes = escapeFrom true 0 bytes := by
  cases bytes <;> simp [escapeFrom]

theorem escapeFrom_false (size : Nat) (bytes : Bytes) :
    escapeFrom false size bytes = escapeFrom true 0 (bytes.drop size) := by
  induction bytes generalizing size with
  | nil => cases size <;> simp [escapeFrom]
  | cons byte rest inductionHypothesis =>
      cases size with
      | zero => exact escapeFrom_false_zero _
      | succ size => exact inductionHypothesis size

theorem before_nil {Value : Type} (read : Option (Bytes × Value)) : before [] read = read := by
  cases read <;> rfl

theorem before_before {Value : Type} (first second : Bytes) (read : Option (Bytes × Value)) :
    before first (before second read) = before (first ++ second) read := by
  cases read with
  | none => rfl
  | some read => rw [before_some, before_some, before_some, List.append_assoc]

/-- The end of a character is read as it stands. -/
theorem unquote_append (kept rest : Bytes) :
    unquote kept.length (kept ++ rest) = before kept (unquote 0 rest) := by
  induction kept with
  | nil => exact (before_nil _).symm
  | cons byte kept inductionHypothesis =>
      rw [List.length_cons, List.cons_append, unquote, inductionHypothesis, before_before]
      rfl

/-- An escape with four digits that is no half of a pair. -/
theorem unquote_unicode {first second third fourth : UInt8} {unit : Nat}
    (decoded : hex4 first second third fourth = some unit) (small : unit < 0xD800 ∨ 0xE000 ≤ unit)
    (rest : Bytes) :
    unquote 0 (92 :: 117 :: first :: second :: third :: fourth :: rest) =
      before (encodeRune unit) (unquote 0 rest) := by
  have alone : ∀ low, surrogatePair unit low = none := by
    intro low
    rw [surrogatePair, if_neg (by omega)]
  rw [unquote]
  rw [if_neg (by decide), if_pos rfl]
  simp only [decoded]
  split
  · next fifth sixth seventh eighth later =>
    cases hex4 fifth sixth seventh eighth with
    | none => rfl
    | some low => rw [Option.bind_some, alone]
  · rfl

theorem encodeRune_ascii {byte : UInt8} (ascii : byte < 0x80) : encodeRune byte.toNat = [byte] := by
  have below : byte.toNat < 0x80 := UInt8.lt_iff_toNat_lt.mp ascii
  rw [encodeRune, if_pos below, UInt8.ofNat_toNat]

theorem unquote_escapeByte {byte : UInt8} (ascii : byte < 0x80) (rest : Bytes) :
    unquote 0 (escapeByte byte ++ rest) = before [byte] (unquote 0 rest) := by
  unfold escapeByte
  split
  · next special => rcases special with rfl | rfl <;> rfl
  split
  · next same => subst same; rfl
  split
  · next same => subst same; rfl
  split
  · next same => subst same; rfl
  split
  · next same => subst same; rfl
  split
  · next same => subst same; rfl
  split
  · have decoded : hex4 48 48 (hexDigit (byte.toNat / 16)) (hexDigit (byte.toNat % 16)) =
        some byte.toNat := by
      have zero : fromHexDigit 48 = some 0 := rfl
      rw [hex4, fromHexDigit_high, fromHexDigit_low, zero]
      exact congrArg some (by omega)
    have below : byte.toNat < 0x80 := UInt8.lt_iff_toNat_lt.mp ascii
    have read := unquote_unicode decoded (.inl (by omega)) rest
    rw [encodeRune_ascii ascii] at read
    exact read
  · next notQuote _ _ _ _ _ printable =>
    rw [not_or] at notQuote printable
    rw [List.singleton_append, unquote.eq_def]
    dsimp only
    rw [if_neg notQuote.1, if_neg notQuote.2,
      if_neg printable.1, if_pos ascii]

/-- A character of several bytes is read as it stands. -/
theorem unquote_character {byte : UInt8} {rest : Bytes} {size : Nat} (wide : ¬byte < 0x80)
    (found : Utf8.tailSize byte rest = some size) (after : Bytes) :
    unquote 0 (byte :: rest.take size ++ after) =
      before (byte :: rest.take size) (unquote 0 after) := by
  have large : 0x80 ≤ byte.toNat := Nat.not_lt.mp fun below => wide (UInt8.lt_iff_toNat_lt.mpr below)
  have notControl : ¬byte < 32 := fun below => by
    have := UInt8.lt_iff_toNat_lt.mp below
    simp at this
    omega
  have notQuote : byte ≠ 34 := by rintro rfl; exact absurd large (by decide)
  have notBackslash : byte ≠ 92 := by rintro rfl; exact absurd large (by decide)
  have inside : unquote size (rest.take size ++ after) =
      before (rest.take size) (unquote 0 after) := by
    have length : (rest.take size).length = size := by
      rw [List.length_take, Nat.min_eq_left (Utf8.tailSize_le found)]
    have read := unquote_append (rest.take size) after
    rw [length] at read
    exact read
  rw [List.cons_append, unquote.eq_def]
  dsimp only
  rw [if_neg notQuote, if_neg notBackslash, if_neg notControl, if_neg wide,
    Utf8.tailSize_take_append found]
  exact (congrArg (before [byte]) inside).trans (before_before _ _ _)

theorem unquote_separator {byte : UInt8} {rest escaped : Bytes} {size : Nat}
    (found : Utf8.tailSize byte rest = some size) (isSeparator : separator byte rest = some escaped)
    (after : Bytes) :
    unquote 0 (escaped ++ after) = before (byte :: rest.take size) (unquote 0 after) := by
  have three : byte = 0xE2 → size = 2 := by
    rintro rfl
    obtain ⟨_, _, _, _, -, leads, -⟩ := Utf8.tailSize_eq_some found
    have sizeEq := congrArg (Option.map Prod.fst) leads
    simpa using (Option.some.inj sizeEq).symm
  unfold separator at isSeparator
  split at isSeparator
  · next isLine =>
    obtain ⟨rfl, same⟩ := isLine
    obtain rfl := three rfl
    obtain rfl := Option.some.inj isSeparator
    rw [same]
    exact unquote_unicode (rfl : hex4 50 48 50 56 = some 0x2028) (.inl (by decide)) after
  · split at isSeparator
    · next isParagraph =>
      obtain ⟨rfl, same⟩ := isParagraph
      obtain rfl := three rfl
      obtain rfl := Option.some.inj isSeparator
      rw [same]
      exact unquote_unicode (rfl : hex4 50 48 50 57 = some 0x2029) (.inl (by decide)) after
    · cases isSeparator

/-- **Strings are read back.** What is written for a text is read as the text with
its invalid bytes replaced. -/
theorem unquote_escape (bytes rest : Bytes) :
    unquote 0 (escapeFrom true 0 bytes ++ 34 :: rest) = some (Utf8.toValid bytes, rest) := by
  unfold Utf8.toValid
  induction length : bytes.length using Nat.strongRecOn generalizing bytes with
  | ind count inductionHypothesis =>
      cases bytes with
      | nil =>
          rw [unquote.eq_def]
          rfl
      | cons byte bytes =>
          have shorter : ∀ size, unquote 0 (escapeFrom true 0 (bytes.drop size) ++ 34 :: rest) =
              some (Utf8.toValidFrom 0 (bytes.drop size), rest) := by
            intro size
            refine inductionHypothesis _ ?_ _ rfl
            rw [← length, List.length_drop, List.length_cons]
            omega
          unfold escapeFrom Utf8.toValidFrom
          by_cases ascii : byte < 0x80
          · rw [if_pos ascii, if_pos ascii, List.append_assoc, unquote_escapeByte ascii]
            exact congrArg (before [byte]) (shorter 0)
          · rw [if_neg ascii, if_neg ascii]
            cases found : Utf8.tailSize byte bytes with
            | none =>
                have read := unquote_unicode (rfl : hex4 102 102 102 100 = some 0xFFFD)
                  (.inr (by decide)) (escapeFrom true 0 bytes ++ 34 :: rest)
                exact read.trans (congrArg (before Utf8.replacement) (shorter 0))
            | some size =>
                dsimp only
                rw [Utf8.toValidFrom_eq]
                cases isSeparator : separator byte bytes with
                | some escaped =>
                    dsimp only
                    rw [escapeFrom_false, List.append_assoc, unquote_separator found isSeparator,
                      shorter size]
                    rfl
                | none =>
                    dsimp only
                    rw [escapeFrom_true, ← List.cons_append, List.append_assoc,
                      unquote_character ascii found, shorter size]
                    rfl

/-! ### Flat objects are read back -/

/-- What may follow a value inside an object. -/
def Stops (rest : Bytes) : Prop := ∃ later, rest = 44 :: later ∨ rest = 125 :: later

/-- A text that is read as a value wherever it stands in an object. -/
def Reads (text : Bytes) (json : Json) : Prop :=
  ∀ fuel depth rest, Stops rest → readValue (fuel + 1) depth (text ++ rest) = some (json, rest)

theorem readValue_quote (fuel depth : Nat) (rest : Bytes) :
    readValue (fuel + 1) depth (34 :: rest) =
      (unquote 0 rest).map fun read => (.string read.1, read.2) := by
  rw [readValue]
  rfl

theorem readValue_number (fuel depth : Nat) {first : UInt8}
    (starts : first = 45 ∨ isDigit first = true) (rest : Bytes) :
    readValue (fuel + 1) depth (first :: rest) =
      (readNumber (first :: rest)).map fun read => (.number read.1, read.2) := by
  have noSpace : skipSpace (first :: rest) = first :: rest := by
    have foreign : isSpace first = false := by
      cases isSpaceEq : isSpace first with
      | false => rfl
      | true =>
          simp only [isSpace, Bool.or_eq_true, decide_eq_true_eq] at isSpaceEq
          rcases isSpaceEq with ((rfl | rfl) | rfl) | rfl <;> exact absurd starts (by decide)
    rw [skipSpace, List.dropWhile_cons_of_neg (by simp [foreign])]
  rw [readValue, noSpace]
  split
  all_goals first
    | rfl
    | next same => obtain ⟨rfl, -⟩ := List.cons.inj same; exact absurd starts (by decide)

theorem quote_append (content rest : Bytes) :
    quote content ++ rest = 34 :: (escapeFrom true 0 content ++ 34 :: rest) := by
  simp [quote]

theorem reads_quote (content : Bytes) : Reads (quote content) (.string (Utf8.toValid content)) := by
  intro fuel depth rest _
  rw [quote_append, readValue_quote, unquote_escape]
  rfl

/-- A byte that stands for itself in a string. -/
def Plain (byte : UInt8) : Prop := byte < 0x80 ∧ escapeByte byte = [byte]

theorem escapeFrom_plain {bytes : Bytes} (plain : ∀ byte ∈ bytes, Plain byte) :
    escapeFrom true 0 bytes = bytes := by
  induction bytes with
  | nil => rfl
  | cons byte rest inductionHypothesis =>
      have here := plain byte List.mem_cons_self
      rw [escapeFrom, if_pos here.1, here.2,
        inductionHypothesis fun other member => plain other (List.mem_cons_of_mem _ member)]
      rfl

/-- A text between quotes, when nothing in it needs an escape. -/
theorem reads_plain {text : Bytes} (plain : ∀ byte ∈ text, Plain byte) :
    Reads (34 :: text ++ [34]) (.string text) := by
  have read := reads_quote text
  rw [quote, escapeFrom_plain plain,
    Utf8.toValid_of_ascii fun byte member => (plain byte member).1] at read
  exact read

theorem reads_null : Reads (utf8 "null") .null := by
  intro fuel depth rest _
  have start : utf8 "null" ++ rest = 110 :: 117 :: 108 :: 108 :: rest := rfl
  rw [start, readValue]
  rfl

theorem unsigned_decimal (value : Nat) {rest : Bytes} (stops : Stops rest) :
    unsigned (decimal value ++ rest) = some (decimal value, rest) := by
  have noDigit : rest.takeWhile isDigit = [] ∧ rest.dropWhile isDigit = rest := by
    obtain ⟨later, rfl | rfl⟩ := stops <;> simp [isDigit]
  have taken : (decimal value ++ rest).takeWhile isDigit = decimal value := by
    rw [List.takeWhile_append_of_pos fun _ => isDigit_of_mem_decimal, noDigit.1, List.append_nil]
  have dropped : (decimal value ++ rest).dropWhile isDigit = rest := by
    rw [List.dropWhile_append_of_pos fun _ => isDigit_of_mem_decimal, noDigit.2]
  have integer : integerPart (decimal value ++ rest) = some (decimal value, rest) := by
    by_cases zero : value = 0
    · subst zero
      rfl
    · have notZero := head_decimal_ne_zero (Nat.pos_of_ne_zero zero)
      unfold integerPart
      split
      · next later starts =>
        rw [← List.head?_append_of_ne_nil _ (decimal_ne_nil value), starts] at notZero
        exact absurd rfl notZero
      · rw [digitsAfter, taken, dropped, if_neg (decimal_ne_nil value)]
        rfl
  have plain : fractionPart rest = some ([], rest) ∧ exponentPart rest = some ([], rest) := by
    obtain ⟨later, rfl | rfl⟩ := stops <;> exact ⟨rfl, rfl⟩
  rw [unsigned, integer]
  simp [plain.1, plain.2]

theorem readNumber_of_ne {first : UInt8} (unsignedStart : first ≠ 45) (rest : Bytes) :
    readNumber (first :: rest) = unsigned (first :: rest) := by
  unfold readNumber
  split
  · next same => exact absurd (List.cons.inj same).1 unsignedStart
  · rfl

theorem reads_decimal (value : Nat) : Reads (decimal value) (.number (decimal value)) := by
  intro fuel depth rest stops
  have read := unsigned_decimal value stops
  cases digits : decimal value with
  | nil => exact absurd digits (decimal_ne_nil value)
  | cons first others =>
      have isFirst : isDigit first = true :=
        isDigit_of_mem_decimal (digits.symm ▸ List.mem_cons_self : first ∈ decimal value)
      have notSign : first ≠ 45 := by
        rintro rfl
        exact absurd isFirst (by decide)
      rw [digits] at read
      rw [List.cons_append, readValue_number _ _ (.inr isFirst), readNumber_of_ne notSign,
        ← List.cons_append, read]
      rfl

theorem reads_decimalInt (value : Int) : Reads (decimalInt value) (.number (decimalInt value)) := by
  by_cases negative : value < 0
  · intro fuel depth rest stops
    rw [decimalInt_of_neg negative, List.cons_append, readValue_number _ _ (.inl rfl), readNumber,
      unsigned_decimal _ stops]
    rfl
  · rw [decimalInt_of_nonneg (by omega)]
    exact reads_decimal _

section Members

variable {name text : Bytes} {json : Json} (reads : Reads text json) (fuel depth : Nat)
  (rest : Bytes)

include reads

theorem readMembers_last :
    readMembers (fuel + 2) depth (quote name ++ 58 :: text ++ 125 :: rest) =
      some ([(Utf8.toValid name, json)], rest) := by
  have colon : skipSpace (58 :: (text ++ 125 :: rest)) = 58 :: (text ++ 125 :: rest) := rfl
  have brace : skipSpace (125 :: rest) = 125 :: rest := rfl
  have start : skipSpace (quote name ++ 58 :: text ++ 125 :: rest) =
      34 :: (escapeFrom true 0 name ++ 34 :: 58 :: (text ++ 125 :: rest)) := by
    rw [List.append_assoc, quote_append]
    rfl
  rw [readMembers, start]
  simp [unquote_escape, colon, reads fuel depth _ ⟨rest, .inr rfl⟩, brace]

theorem readMembers_next :
    readMembers (fuel + 2) depth (quote name ++ 58 :: text ++ 44 :: rest) =
      (readMembers (fuel + 1) depth rest).map fun (fields, rest) =>
        ((Utf8.toValid name, json) :: fields, rest) := by
  have colon : skipSpace (58 :: (text ++ 44 :: rest)) = 58 :: (text ++ 44 :: rest) := rfl
  have comma : skipSpace (44 :: rest) = 44 :: rest := rfl
  have start : skipSpace (quote name ++ 58 :: text ++ 44 :: rest) =
      34 :: (escapeFrom true 0 name ++ 34 :: 58 :: (text ++ 44 :: rest)) := by
    rw [List.append_assoc, quote_append]
    rfl
  rw [readMembers, start]
  simp [unquote_escape, colon, reads fuel depth _ ⟨rest, .inl rfl⟩, comma]

end Members

/-- The members of a written object are read back. -/
theorem readMembers_print {fields : List (Bytes × Bytes × Json)} (nonempty : fields ≠ [])
    (reads : ∀ field ∈ fields, Reads field.2.1 field.2.2) (fuel depth : Nat) (rest : Bytes) :
    readMembers (fuel + fields.length + 1) depth
        (printMembers (fields.map fun field => (field.1, field.2.1)) ++ 125 :: rest) =
      some (fields.map fun field => (Utf8.toValid field.1, field.2.2), rest) := by
  induction fields with
  | nil => exact absurd rfl nonempty
  | cons field fields inductionHypothesis =>
      have readsFirst : Reads field.2.1 field.2.2 := reads _ List.mem_cons_self
      cases fields with
      | nil => exact readMembers_last readsFirst fuel depth rest
      | cons second others =>
          have printed : printMembers ((field :: second :: others).map
              fun field => (field.1, field.2.1)) ++ 125 :: rest =
              quote field.1 ++ 58 :: field.2.1 ++ 44 ::
                (printMembers ((second :: others).map fun field => (field.1, field.2.1)) ++
                  125 :: rest) := by
            simp [printMembers]
          have later := inductionHypothesis (List.cons_ne_nil _ _)
            fun field member => reads field (List.mem_cons_of_mem _ member)
          rw [printed, List.length_cons, ← Nat.add_assoc,
            readMembers_next readsFirst, later]
          rfl

theorem length_le_printMembers (fields : List (Bytes × Bytes)) :
    fields.length ≤ (printMembers fields).length := by
  induction fields with
  | nil => exact Nat.le_refl _
  | cons field fields inductionHypothesis =>
      cases fields with
      | nil => simp [printMembers, quote]
      | cons second others =>
          rw [printMembers]
          · simp only [List.length_append, List.length_cons] at inductionHypothesis ⊢
            omega
          · exact List.cons_ne_nil _ _

/-- Members begin with the quote of a name. -/
theorem printMembers_cons {fields : List (Bytes × Bytes)} (nonempty : fields ≠ []) :
    ∃ rest, printMembers fields = 34 :: rest := by
  cases fields with
  | nil => exact absurd rfl nonempty
  | cons field fields =>
      cases fields with
      | nil => exact ⟨_, rfl⟩
      | cons second others => exact ⟨_, rfl⟩

theorem readValue_open (fuel : Nat) {rest : Bytes} (starts : ∃ later, rest = 34 :: later) :
    readValue (fuel + 1) 0 (123 :: rest) =
      (readMembers fuel 1 rest).map fun read => (.object read.1, read.2) := by
  obtain ⟨later, rfl⟩ := starts
  rw [readValue]
  rfl

/-- **Flat objects are read back.** -/
theorem parse_printObject {fields : List (Bytes × Bytes × Json)} (nonempty : fields ≠ [])
    (reads : ∀ field ∈ fields, Reads field.2.1 field.2.2) :
    parse (printObject (fields.map fun field => (field.1, field.2.1))) =
      some (.object (fields.map fun field => (Utf8.toValid field.1, field.2.2))) := by
  have printed : fields.map (fun field => (field.1, field.2.1)) ≠ [] := by simpa using nonempty
  obtain ⟨later, starts⟩ := printMembers_cons printed
  have long := length_le_printMembers (fields.map fun field => (field.1, field.2.1))
  rw [List.length_map] at long
  obtain ⟨fuel, enough⟩ : ∃ fuel,
      (printObject (fields.map fun field => (field.1, field.2.1))).length =
        fuel + fields.length + 1 := by
    refine ⟨(printObject (fields.map fun field => (field.1, field.2.1))).length -
      (fields.length + 1), ?_⟩
    simp only [printObject, List.length_append, List.length_cons, List.length_nil]
    omega
  rw [parse, enough, printObject, List.cons_append,
    readValue_open _ ⟨later ++ [125], by rw [starts]; rfl⟩, readMembers_print nonempty reads]
  rfl

end Json

end FProto.Foundation

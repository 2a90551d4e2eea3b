import FProto.Foundation.Hmac

/-!
Owns the key rotation of every implementation: `proto-core/crypto/rekey.go` and
the functions `rekey` of the Rust, Python, Node, Java, .NET and PHP starters. The
hash function under HMAC-SHA256 is one parameter of all of them.

**Main result.** The seven never agree: `rekeys_never_agree`. Java rejects its
own empty salt. The other starters compute one function
(`starter_rekey_eq_rotated`), and Go computes it with another label
(`goRekey_eq_rotated`).
-/

namespace FProto.Crypto

open FProto.Foundation

variable (sha256 : HashFunction)

/-! ### Implementations -/

/-- `Rekey` of proto-core. -/
def Go.rekey (currentKey : Bytes) : Except String Bytes :=
  if currentKey.length = 0 then .error "rekey: empty current key"
  else
    match sha256.hkdfExpand (sha256.hkdfExtract none currentKey) (utf8 "proto-rekey") 32 with
    | none => .error "rekey hkdf: hkdf: entropy limit reached"
    | some newKey => .ok newKey

/-- `rekey` of the Rust starter. -/
def Rust.rekey (currentKey : Bytes) : Except String Bytes :=
  match sha256.hkdfExpand (sha256.hkdfExtract none currentKey) (utf8 "fproto-rekey") 32 with
  | none => .error "CryptoError::Hkdf"
  | some newKey => .ok newKey

/-- Extraction with an empty key and one block of expansion, written out. -/
def rekeyByHand (currentKey : Bytes) : Except String Bytes :=
  let prk := sha256.hmac [] currentKey
  let okm := sha256.hmac prk (utf8 "fproto-rekey" ++ [0x01])
  .ok (okm.take 32)

/-- `rekey` of the Python starter. -/
def Python.rekey : Bytes → Except String Bytes := rekeyByHand sha256

/-- `rekey` of the Node starter. -/
def Node.rekey : Bytes → Except String Bytes := rekeyByHand sha256

/-- `CryptoUtils.Rekey` of the .NET starter. -/
def DotNet.rekey : Bytes → Except String Bytes := rekeyByHand sha256

/-- `CryptoUtils::rekey` of the PHP starter. -/
def Php.rekey : Bytes → Except String Bytes := rekeyByHand sha256

/-- `new SecretKeySpec(key, "HmacSHA256")`, which rejects an empty key. -/
def Java.secretKeySpec (key : Bytes) : Except String Bytes :=
  if key.length = 0 then .error "IllegalArgumentException: Empty key" else .ok key

/-- `Arrays.copyOf`, which pads with zeros. -/
def Java.copyOf (bytes : Bytes) (length : Nat) : Bytes :=
  bytes.take length ++ List.replicate (length - bytes.length) 0

/-- `CryptoUtils.rekey` of the Java starter. -/
def Java.rekey (currentKey : Bytes) : Except String Bytes := do
  let salt ← Java.secretKeySpec []
  let prk := sha256.hmac salt currentKey
  let key ← Java.secretKeySpec prk
  let okm := sha256.hmac key (utf8 "fproto-rekey" ++ [0x01])
  return Java.copyOf okm 32

inductive Language where
  | go
  | rust
  | python
  | node
  | java
  | dotNet
  | php
deriving DecidableEq

def Language.rekey : Language → Bytes → Except String Bytes
  | .go => Go.rekey sha256
  | .rust => Rust.rekey sha256
  | .python => Python.rekey sha256
  | .node => Node.rekey sha256
  | .java => Java.rekey sha256
  | .dotNet => DotNet.rekey sha256
  | .php => Php.rekey sha256

/-- All of them succeed with the same 32 bytes. -/
def RekeysAgree (currentKey : Bytes) : Prop :=
  ∃ newKey, newKey.length = 32 ∧ ∀ language : Language, language.rekey sha256 currentKey = .ok newKey

/-! ### What they compute -/

/-- One block of HKDF without a salt, under a label. -/
def rotated (label : String) (currentKey : Bytes) : Bytes :=
  sha256.hmac (sha256.hmac [] currentKey) (utf8 label ++ [0x01])

theorem goRekey_eq_rotated {currentKey : Bytes} (present : currentKey ≠ []) :
    Go.rekey sha256 currentKey = .ok (rotated sha256 "proto-rekey" currentKey) := by
  have nonempty : currentKey.length ≠ 0 := fun empty => present (List.length_eq_zero_iff.mp empty)
  rw [Go.rekey, if_neg nonempty, sha256.hkdfExpand_block, sha256.hkdfExtract_none]
  rfl

theorem rekeyByHand_eq_rotated (currentKey : Bytes) :
    rekeyByHand sha256 currentKey = .ok (rotated sha256 "fproto-rekey" currentKey) := by
  have block : (rotated sha256 "fproto-rekey" currentKey).length ≤ 32 :=
    Nat.le_of_eq (sha256.length_hmac _ _)
  show Except.ok (List.take 32 (rotated sha256 "fproto-rekey" currentKey)) = _
  rw [List.take_of_length_le block]

theorem javaRekey_fails (currentKey : Bytes) :
    Java.rekey sha256 currentKey = .error "IllegalArgumentException: Empty key" :=
  rfl

/-- The starters other than Java's compute one function. -/
theorem starter_rekey_eq_rotated {language : Language} (notGo : language ≠ .go)
    (notJava : language ≠ .java) (currentKey : Bytes) :
    language.rekey sha256 currentKey = .ok (rotated sha256 "fproto-rekey" currentKey) := by
  cases language with
  | go => exact absurd rfl notGo
  | java => exact absurd rfl notJava
  | rust =>
      show Rust.rekey sha256 currentKey = _
      rw [Rust.rekey, sha256.hkdfExpand_block, sha256.hkdfExtract_none]
      rfl
  | python => exact rekeyByHand_eq_rotated sha256 currentKey
  | node => exact rekeyByHand_eq_rotated sha256 currentKey
  | dotNet => exact rekeyByHand_eq_rotated sha256 currentKey
  | php => exact rekeyByHand_eq_rotated sha256 currentKey

/-- Without Java, they agree when HMAC does not tell the two labels apart. -/
theorem rekeys_agree_without_java_iff {currentKey : Bytes} (present : currentKey ≠ []) :
    (∀ language other : Language, language ≠ .java → other ≠ .java →
        language.rekey sha256 currentKey = other.rekey sha256 currentKey) ↔
      rotated sha256 "proto-rekey" currentKey = rotated sha256 "fproto-rekey" currentKey := by
  have go : Language.go.rekey sha256 currentKey =
      .ok (rotated sha256 "proto-rekey" currentKey) := goRekey_eq_rotated sha256 present
  constructor
  · intro agree
    have same := agree .go .rust Language.noConfusion Language.noConfusion
    rw [go, starter_rekey_eq_rotated sha256 Language.noConfusion Language.noConfusion] at same
    exact Except.ok.inj same
  · intro labels
    have all : ∀ language : Language, language ≠ .java →
        language.rekey sha256 currentKey = .ok (rotated sha256 "fproto-rekey" currentKey) := by
      intro language notJava
      by_cases isGo : language = .go
      · rw [isGo, go, labels]
      · exact starter_rekey_eq_rotated sha256 isGo notJava currentKey
    intro language other notJava otherNotJava
    rw [all language notJava, all other otherNotJava]

/-- **No key is rotated alike by all implementations**, whatever the hash
function. -/
theorem rekeys_never_agree (currentKey : Bytes) : ¬RekeysAgree sha256 currentKey := by
  intro agree
  obtain ⟨newKey, -, succeeds⟩ := agree
  have java := succeeds .java
  rw [show Language.java.rekey sha256 currentKey = _ from javaRekey_fails sha256 currentKey] at java
  cases java

/-! ### A key that Go and Rust rotate differently -/

/-- The last bytes of a message, in reverse. -/
def sampleHash : HashFunction where
  hash message := (message.reverse ++ List.replicate 32 0).take 32
  length_hash message := by simp

/-- The key of the test vectors, `[0, 1, 2, …, 31]`. -/
def testVectorKey : Bytes := (List.range 32).map UInt8.ofNat

theorem rekeys_differ_on_test_vector :
    testVectorKey.length = 32 ∧
      Go.rekey sampleHash testVectorKey ≠ Rust.rekey sampleHash testVectorKey ∧
      Java.rekey sampleHash testVectorKey = .error "IllegalArgumentException: Empty key" ∧
      ¬RekeysAgree sampleHash testVectorKey := by
  have differ : Go.rekey sampleHash testVectorKey ≠ Rust.rekey sampleHash testVectorKey := by
    decide
  refine ⟨by decide, differ, rfl, fun agree => differ ?_⟩
  obtain ⟨newKey, -, succeeds⟩ := agree
  exact (succeeds .go).trans (succeeds .rust).symm

end FProto.Crypto

import FProto.Crypto.Aead
import FProto.Crypto.Rekey

/-!
Owns the AEAD functions of the six starters beside those of proto-core: how each of them
lays out the nonce and the additional data, in the number type of its language, and how it
joins and splits the ciphertext and its tag.

**Main result.** What one of the seven encrypts every other one decrypts, and all of them
accept the same byte strings (`starters_interoperate`).

The implementations of ChaCha20-Poly1305 under them are one parameter, `Cipher`, with the
tag apart from the ciphertext. Does not own the limits of these libraries on the length of
a text.
-/

namespace FProto.Starters

open FProto.Foundation
open FProto.Crypto (Aead AeadKey Language)

/-- ChaCha20-Poly1305: ciphertext and tag of a text, and the text of both. -/
structure Cipher where
  encrypt : (key nonce plaintext aad : Bytes) → Bytes × Bytes
  decrypt : (key nonce ciphertext tag aad : Bytes) → Option Bytes

/-- The tag has 16 bytes, the ciphertext is as long as the text, and exactly what the
cipher made of a text is accepted for it. -/
structure Cipher.Lawful (cipher : Cipher) : Prop where
  length_tag : ∀ key nonce plaintext aad, (cipher.encrypt key nonce plaintext aad).2.length = 16
  length_ciphertext : ∀ key nonce plaintext aad,
    (cipher.encrypt key nonce plaintext aad).1.length = plaintext.length
  decrypt_eq_some_iff : ∀ key nonce ciphertext tag aad plaintext,
    cipher.decrypt key nonce ciphertext tag aad = some plaintext ↔
      cipher.encrypt key nonce plaintext aad = (ciphertext, tag)

/-! ### Libraries that keep the tag behind the ciphertext

These are the Go, Rust, Python, Java and PHP ones. -/

def Cipher.sealed (cipher : Cipher) (key nonce plaintext aad : Bytes) : Bytes :=
  (cipher.encrypt key nonce plaintext aad).1 ++ (cipher.encrypt key nonce plaintext aad).2

def Cipher.unsealed (cipher : Cipher) (key nonce message aad : Bytes) : Option Bytes :=
  if message.length < 16 then none
  else
    cipher.decrypt key nonce (message.take (message.length - 16))
      (message.drop (message.length - 16)) aad

/-- `golang.org/x/crypto/chacha20poly1305`. -/
def Cipher.toAead (cipher : Cipher) : Aead where
  sealWith := cipher.sealed
  openWith key nonce message aad :=
    match cipher.unsealed key nonce message aad with
    | none => .error "chacha20poly1305: message authentication failed"
    | some plaintext => .ok plaintext

/-- What a library gives, with the error of the function that calls it. -/
def orError (error : String) : Option Bytes → Except String Bytes
  | none => .error error
  | some bytes => .ok bytes

/-! ### Buffers -/

/-- Overwrite a buffer from an offset on. -/
def putAt (buffer : Bytes) (offset : Nat) (content : Bytes) : Bytes :=
  buffer.take offset ++ content ++ buffer.drop (offset + content.length)

/-- A nonce in a buffer of twelve zeros. -/
def nonceBuffer (number : Bytes) : Bytes := putAt (List.replicate 12 0) 4 number

/-- The additional data in a buffer of zeros that has room for the session id and a
number. -/
def aadBuffer (sessionId number : Bytes) : Bytes :=
  putAt (putAt (List.replicate (sessionId.length + 8) 0) 0 sessionId) sessionId.length number

/-- The check of the key that all of them make. -/
def checkKey (key : Bytes) : Except String Unit :=
  if key.length = 32 then .ok ()
  else .error ("invalid key size: expected 32, got " ++ toString key.length)

/-! ### The starters -/

section Functions

variable (cipher : Cipher)

/-- `build_nonce` of the Rust starter. -/
def Rust.buildNonce (seq : UInt64) : Bytes := nonceBuffer (littleEndian64 seq)

/-- `build_aad` of the Rust starter, which appends. -/
def Rust.buildAad (sessionId : Bytes) (seq : UInt64) : Bytes := sessionId ++ littleEndian64 seq

/-- `new_aead` and `encrypt_aead`. -/
def Rust.encryptAead (key sessionId : Bytes) (seq : UInt64) (plaintext : Bytes) :
    Except String Bytes := do
  checkKey key
  return cipher.sealed key (Rust.buildNonce seq) plaintext (Rust.buildAad sessionId seq)

/-- `new_aead` and `decrypt_aead`. -/
def Rust.decryptAead (key sessionId : Bytes) (seq : UInt64) (message : Bytes) :
    Except String Bytes := do
  checkKey key
  orError "aead error"
    (cipher.unsealed key (Rust.buildNonce seq) message (Rust.buildAad sessionId seq))

/-- `struct.pack("<Q", seq)`; integers of Python have no bounds. -/
def Python.pack (seq : Int) : Except String Bytes :=
  if 0 ≤ seq ∧ seq < 18446744073709551616 then .ok (littleEndian64 (UInt64.ofNat seq.toNat))
  else .error "struct.error"

def Python.buildNonce (seq : Int) : Except String Bytes := do
  return List.replicate 4 0 ++ (← Python.pack seq)

def Python.buildAad (sessionId : Bytes) (seq : Int) : Except String Bytes := do
  return sessionId ++ (← Python.pack seq)

/-- `new_aead` and `encrypt_aead`. -/
def Python.encryptAead (key sessionId : Bytes) (seq : Int) (plaintext : Bytes) :
    Except String Bytes := do
  checkKey key
  let nonce ← Python.buildNonce seq
  let aad ← Python.buildAad sessionId seq
  return cipher.sealed key nonce plaintext aad

/-- `new_aead` and `decrypt_aead`. -/
def Python.decryptAead (key sessionId : Bytes) (seq : Int) (message : Bytes) :
    Except String Bytes := do
  checkKey key
  let nonce ← Python.buildNonce seq
  let aad ← Python.buildAad sessionId seq
  orError "InvalidTag" (cipher.unsealed key nonce message aad)

/-- `writeBigUInt64LE(BigInt(seq), ..)` for a number that is an integer. -/
def Node.writeBigUInt64LE (seq : Int) : Except String Bytes :=
  if 0 ≤ seq ∧ seq < 18446744073709551616 then .ok (littleEndian64 (UInt64.ofNat seq.toNat))
  else .error "ERR_OUT_OF_RANGE"

def Node.buildNonce (seq : Int) : Except String Bytes := do
  return nonceBuffer (← Node.writeBigUInt64LE seq)

def Node.buildAad (sessionId : Bytes) (seq : Int) : Except String Bytes := do
  return aadBuffer sessionId (← Node.writeBigUInt64LE seq)

/-- Where `subarray` starts or ends: a negative position counts from the end. -/
def Node.position (length : Nat) (position : Int) : Nat :=
  if position < 0 then (length + position).toNat else position.toNat

/-- `newAead` and `encryptAead`. -/
def Node.encryptAead (key sessionId : Bytes) (seq : Int) (plaintext : Bytes) :
    Except String Bytes := do
  checkKey key
  let nonce ← Node.buildNonce seq
  let aad ← Node.buildAad sessionId seq
  let (encrypted, tag) := cipher.encrypt key nonce plaintext aad
  return encrypted ++ tag

/-- `newAead` and `decryptAead`. `setAuthTag` takes 16 bytes and nothing else. -/
def Node.decryptAead (key sessionId : Bytes) (seq : Int) (message : Bytes) :
    Except String Bytes := do
  checkKey key
  let nonce ← Node.buildNonce seq
  let aad ← Node.buildAad sessionId seq
  let split := Node.position message.length ((message.length : Int) - 16)
  let tag := message.drop split
  let data := message.take split
  if tag.length = 16 then
    orError "Unsupported state or unable to authenticate data"
      (cipher.decrypt key nonce data tag aad)
  else .error "ERR_CRYPTO_INVALID_AUTH_TAG"

/-- `buildNonce` of the Java starter; a `long` is signed. -/
def Java.buildNonce (seq : Int64) : Bytes := nonceBuffer (littleEndian64 seq.toUInt64)

def Java.buildAad (sessionId : Bytes) (seq : Int64) : Bytes :=
  aadBuffer sessionId (littleEndian64 seq.toUInt64)

def Java.encryptAead (key sessionId : Bytes) (seq : Int64) (plaintext : Bytes) :
    Except String Bytes := do
  checkKey key
  return cipher.sealed key (Java.buildNonce seq) plaintext (Java.buildAad sessionId seq)

def Java.decryptAead (key sessionId : Bytes) (seq : Int64) (message : Bytes) :
    Except String Bytes := do
  checkKey key
  orError "AEADBadTagException"
    (cipher.unsealed key (Java.buildNonce seq) message (Java.buildAad sessionId seq))

/-- `buildNonce` of the PHP starter; an `int` is signed and `pack('P', ..)` writes its
bits. -/
def Php.buildNonce (seq : Int64) : Bytes := List.replicate 4 0 ++ littleEndian64 seq.toUInt64

def Php.buildAad (sessionId : Bytes) (seq : Int64) : Bytes :=
  sessionId ++ littleEndian64 seq.toUInt64

def Php.encryptAead (key sessionId : Bytes) (seq : Int64) (plaintext : Bytes) :
    Except String Bytes := do
  checkKey key
  return cipher.sealed key (Php.buildNonce seq) plaintext (Php.buildAad sessionId seq)

def Php.decryptAead (key sessionId : Bytes) (seq : Int64) (message : Bytes) :
    Except String Bytes := do
  checkKey key
  orError "AEAD decryption failed"
    (cipher.unsealed key (Php.buildNonce seq) message (Php.buildAad sessionId seq))

/-- `BuildNonce` of the .NET starter. -/
def DotNet.buildNonce (seq : UInt64) : Bytes := nonceBuffer (littleEndian64 seq)

def DotNet.buildAad (sessionId : Bytes) (seq : UInt64) : Bytes :=
  aadBuffer sessionId (littleEndian64 seq)

/-- `EncryptAead`: the cipher fills two arrays, which are copied into the result. -/
def DotNet.encryptAead (key sessionId : Bytes) (seq : UInt64) (plaintext : Bytes) :
    Except String Bytes := do
  checkKey key
  let (ciphertext, tag) :=
    cipher.encrypt key (DotNet.buildNonce seq) plaintext (DotNet.buildAad sessionId seq)
  let result := List.replicate (ciphertext.length + tag.length) 0
  return putAt (putAt result 0 ciphertext) ciphertext.length tag

/-- `DecryptAead`; a span of negative length cannot be taken. -/
def DotNet.decryptAead (key sessionId : Bytes) (seq : UInt64) (message : Bytes) :
    Except String Bytes := do
  checkKey key
  if message.length < 16 then .error "ArgumentOutOfRangeException"
  else
    orError "AuthenticationTagMismatchException"
      (cipher.decrypt key (DotNet.buildNonce seq) (message.take (message.length - 16))
        (message.drop (message.length - 16)) (DotNet.buildAad sessionId seq))

/-- `NewAEAD` and `EncryptAEAD` of proto-core. -/
def Go.encryptAead (key sessionId : Bytes) (seq : UInt64) (plaintext : Bytes) :
    Except String Bytes := do
  let aead ← Crypto.newAEAD key
  return Crypto.encryptAEAD cipher.toAead aead sessionId seq plaintext

/-- `NewAEAD` and `DecryptAEAD` of proto-core. -/
def Go.decryptAead (key sessionId : Bytes) (seq : UInt64) (message : Bytes) :
    Except String Bytes := do
  let aead ← Crypto.newAEAD key
  Crypto.decryptAEAD cipher.toAead aead sessionId seq message

/-- `Number(seq)`: the nearest double, of two nearest ones the even one. A double has 53
significant bits. -/
def Node.number (seq : UInt64) : Nat :=
  if seq.toNat < 9007199254740992 then seq.toNat
  else
    let shift := seq.toNat.log2 - 52
    let unit := 1 <<< shift
    let quotient := seq.toNat / unit
    let remainder := seq.toNat % unit
    if unit < 2 * remainder ∨ (unit = 2 * remainder ∧ quotient % 2 = 1) then (quotient + 1) * unit
    else quotient * unit

/-- Encryption in a language, with the sequence number as a value of its number type. -/
def encryptIn : Language → (key sessionId : Bytes) → UInt64 → (plaintext : Bytes) →
    Except String Bytes
  | .go, key, sessionId, seq => Go.encryptAead cipher key sessionId seq
  | .rust, key, sessionId, seq => Rust.encryptAead cipher key sessionId seq
  | .python, key, sessionId, seq => Python.encryptAead cipher key sessionId seq.toNat
  | .node, key, sessionId, seq => Node.encryptAead cipher key sessionId (Node.number seq)
  | .java, key, sessionId, seq => Java.encryptAead cipher key sessionId seq.toInt64
  | .dotNet, key, sessionId, seq => DotNet.encryptAead cipher key sessionId seq
  | .php, key, sessionId, seq => Php.encryptAead cipher key sessionId seq.toInt64

def decryptIn : Language → (key sessionId : Bytes) → UInt64 → (message : Bytes) →
    Except String Bytes
  | .go, key, sessionId, seq => Go.decryptAead cipher key sessionId seq
  | .rust, key, sessionId, seq => Rust.decryptAead cipher key sessionId seq
  | .python, key, sessionId, seq => Python.decryptAead cipher key sessionId seq.toNat
  | .node, key, sessionId, seq => Node.decryptAead cipher key sessionId (Node.number seq)
  | .java, key, sessionId, seq => Java.decryptAead cipher key sessionId seq.toInt64
  | .dotNet, key, sessionId, seq => DotNet.decryptAead cipher key sessionId seq
  | .php, key, sessionId, seq => Php.decryptAead cipher key sessionId seq.toInt64

/-- Whether a language has the sequence number as a value. Node has every number up to
`Number.MAX_SAFE_INTEGER` and some larger ones. -/
def Expressible : Language → UInt64 → Prop
  | .node, seq => Node.number seq = seq.toNat
  | _, _ => True

end Functions

/-! ### What the buffers hold -/

theorem putAt_replicate {size offset : Nat} {content : Bytes}
    (fills : offset + content.length = size) :
    putAt (List.replicate size 0) offset content = List.replicate offset 0 ++ content := by
  simp [putAt, fills, Nat.min_eq_left (show offset ≤ size by omega)]

/-- Two contents one after the other fill a buffer. -/
theorem putAt_putAt (first second : Bytes) :
    putAt (putAt (List.replicate (first.length + second.length) 0) 0 first) first.length second =
      first ++ second := by
  simp [putAt]

theorem nonceBuffer_littleEndian64 (seq : UInt64) :
    nonceBuffer (littleEndian64 seq) = Crypto.buildNonce seq :=
  putAt_replicate rfl

theorem aadBuffer_littleEndian64 (sessionId : Bytes) (seq : UInt64) :
    aadBuffer sessionId (littleEndian64 seq) = Crypto.buildAAD sessionId seq :=
  putAt_putAt sessionId (littleEndian64 seq)

theorem ofNat_toNat_bounds (seq : UInt64) :
    (0 ≤ (seq.toNat : Int) ∧ (seq.toNat : Int) < 18446744073709551616) ∧
      UInt64.ofNat ((seq.toNat : Int)).toNat = seq := by
  have bound := seq.toNat_lt
  refine ⟨by omega, ?_⟩
  simp

theorem pack_toNat (seq : UInt64) : Python.pack seq.toNat = .ok (littleEndian64 seq) := by
  obtain ⟨bounds, same⟩ := ofNat_toNat_bounds seq
  rw [Python.pack, if_pos bounds, same]

theorem python_buildNonce (seq : UInt64) :
    Python.buildNonce seq.toNat = .ok (Crypto.buildNonce seq) := by
  rw [Python.buildNonce, pack_toNat]
  rfl

theorem python_buildAad (sessionId : Bytes) (seq : UInt64) :
    Python.buildAad sessionId seq.toNat = .ok (Crypto.buildAAD sessionId seq) := by
  rw [Python.buildAad, pack_toNat]
  rfl

theorem writeBigUInt64LE_number {seq : UInt64} (expressible : Expressible .node seq) :
    Node.writeBigUInt64LE (Node.number seq) = .ok (littleEndian64 seq) := by
  obtain ⟨bounds, same⟩ := ofNat_toNat_bounds seq
  have exact : Node.number seq = seq.toNat := expressible
  rw [exact, Node.writeBigUInt64LE, if_pos bounds, same]

theorem node_buildNonce {seq : UInt64} (expressible : Expressible .node seq) :
    Node.buildNonce (Node.number seq) = .ok (Crypto.buildNonce seq) := by
  rw [Node.buildNonce, writeBigUInt64LE_number expressible, ← nonceBuffer_littleEndian64]
  rfl

theorem node_buildAad (sessionId : Bytes) {seq : UInt64} (expressible : Expressible .node seq) :
    Node.buildAad sessionId (Node.number seq) = .ok (Crypto.buildAAD sessionId seq) := by
  rw [Node.buildAad, writeBigUInt64LE_number expressible, ← aadBuffer_littleEndian64]
  rfl

theorem java_buildNonce (seq : UInt64) :
    Java.buildNonce seq.toInt64 = Crypto.buildNonce seq := by
  rw [Java.buildNonce, UInt64.toUInt64_toInt64, nonceBuffer_littleEndian64]

theorem java_buildAad (sessionId : Bytes) (seq : UInt64) :
    Java.buildAad sessionId seq.toInt64 = Crypto.buildAAD sessionId seq := by
  rw [Java.buildAad, UInt64.toUInt64_toInt64, aadBuffer_littleEndian64]

/-! ### One format -/

section Format

variable (cipher : Cipher)

/-- All of them send the ciphertext and the tag under the same nonce and additional
data. -/
theorem encryptIn_eq {language : Language} {key : Bytes} (sized : key.length = 32)
    (sessionId : Bytes) {seq : UInt64} (expressible : Expressible language seq)
    (plaintext : Bytes) :
    encryptIn cipher language key sessionId seq plaintext =
      .ok (cipher.sealed key (Crypto.buildNonce seq) plaintext
        (Crypto.buildAAD sessionId seq)) := by
  have checked : checkKey key = .ok () := if_pos sized
  cases language with
  | go => rw [encryptIn, Go.encryptAead, Crypto.newAEAD_of_length sized]; rfl
  | rust =>
      rw [encryptIn, Rust.encryptAead, checked, Rust.buildNonce, nonceBuffer_littleEndian64]
      rfl
  | python =>
      rw [encryptIn, Python.encryptAead, checked, python_buildNonce, python_buildAad]
      rfl
  | node =>
      rw [encryptIn, Node.encryptAead, checked, node_buildNonce expressible,
        node_buildAad sessionId expressible]
      rfl
  | java =>
      rw [encryptIn, Java.encryptAead, checked, java_buildNonce, java_buildAad]
      rfl
  | dotNet =>
      rw [encryptIn, DotNet.encryptAead, checked, DotNet.buildNonce, nonceBuffer_littleEndian64,
        DotNet.buildAad, aadBuffer_littleEndian64]
      exact congrArg Except.ok (putAt_putAt _ _)
  | php =>
      rw [encryptIn, Php.encryptAead, checked, Php.buildNonce, Php.buildAad,
        UInt64.toUInt64_toInt64]
      rfl

theorem toOption_orError (error : String) (result : Option Bytes) :
    (orError error result).toOption = result := by
  cases result <;> rfl

/-- The two parts that Node takes of a message. -/
theorem node_position (length : Nat) :
    (length - Node.position length ((length : Int) - 16) = 16 ↔ 16 ≤ length) ∧
      (16 ≤ length → Node.position length ((length : Int) - 16) = length - 16) := by
  unfold Node.position
  constructor
  · constructor
    · intro sixteen
      split at sixteen <;> omega
    · intro long
      rw [if_neg (by omega)]
      omega
  · intro long
    rw [if_neg (by omega)]
    omega

theorem decryptIn_eq {language : Language} {key : Bytes} (sized : key.length = 32)
    (sessionId : Bytes) {seq : UInt64} (expressible : Expressible language seq) (message : Bytes) :
    (decryptIn cipher language key sessionId seq message).toOption =
      cipher.unsealed key (Crypto.buildNonce seq) message (Crypto.buildAAD sessionId seq) := by
  have checked : checkKey key = .ok () := if_pos sized
  cases language with
  | go =>
      rw [decryptIn, Go.decryptAead, Crypto.newAEAD_of_length sized]
      simp only [bind, Except.bind, Crypto.decryptAEAD, Cipher.toAead]
      cases cipher.unsealed key (Crypto.buildNonce seq) message
        (Crypto.buildAAD sessionId seq) <;> rfl
  | rust =>
      rw [decryptIn, Rust.decryptAead, checked, Rust.buildNonce, nonceBuffer_littleEndian64]
      exact toOption_orError _ _
  | python =>
      rw [decryptIn, Python.decryptAead, checked, python_buildNonce, python_buildAad]
      exact toOption_orError _ _
  | node =>
      obtain ⟨sixteen, split⟩ := node_position message.length
      rw [decryptIn, Node.decryptAead, checked, node_buildNonce expressible,
        node_buildAad sessionId expressible]
      simp only [bind, Except.bind, List.length_drop, sixteen, Cipher.unsealed]
      by_cases long : 16 ≤ message.length
      · rw [if_pos long, if_neg (by omega), split long]
        exact toOption_orError _ _
      · rw [if_neg long, if_pos (by omega)]
        rfl
  | java =>
      rw [decryptIn, Java.decryptAead, checked, java_buildNonce, java_buildAad]
      exact toOption_orError _ _
  | dotNet =>
      rw [decryptIn, DotNet.decryptAead, checked, DotNet.buildNonce, nonceBuffer_littleEndian64,
        DotNet.buildAad, aadBuffer_littleEndian64]
      simp only [bind, Except.bind, Cipher.unsealed]
      by_cases short : message.length < 16
      · rw [if_pos short, if_pos short]
        rfl
      · rw [if_neg short, if_neg short]
        exact toOption_orError _ _
  | php =>
      rw [decryptIn, Php.decryptAead, checked, Php.buildNonce, Php.buildAad,
        UInt64.toUInt64_toInt64]
      exact toOption_orError _ _

end Format

theorem Cipher.Lawful.unsealed_eq_some_iff {cipher : Cipher} (lawful : cipher.Lawful)
    {key nonce message aad plaintext : Bytes} :
    cipher.unsealed key nonce message aad = some plaintext ↔
      message = cipher.sealed key nonce plaintext aad := by
  have tag := lawful.length_tag key nonce plaintext aad
  unfold Cipher.unsealed Cipher.sealed
  constructor
  · intro accepted
    split at accepted
    · cases accepted
    · have made := (lawful.decrypt_eq_some_iff _ _ _ _ _ _).mp accepted
      rw [made, List.take_append_drop]
  · rintro rfl
    rw [List.length_append, tag, if_neg (by omega), Nat.add_sub_cancel, List.take_left,
      List.drop_left]
    exact (lawful.decrypt_eq_some_iff _ _ _ _ _ _).mpr rfl

theorem ok_iff_toOption {result : Except String Bytes} {text : Bytes} :
    result = .ok text ↔ result.toOption = some text := by
  cases result <;> simp [Except.toOption]

/-- **The seven implementations interoperate.** For a key of 32 bytes and a sequence number
that both languages can express, both encrypt a text to the same message, and a byte string
decrypts to the text exactly if it is that message. -/
theorem starters_interoperate {cipher : Cipher} (lawful : cipher.Lawful) {key : Bytes}
    (sized : key.length = 32) {sender receiver : Language} {seq : UInt64}
    (sends : Expressible sender seq) (receives : Expressible receiver seq)
    (sessionId plaintext : Bytes) :
    ∃ message,
      encryptIn cipher sender key sessionId seq plaintext = .ok message ∧
      encryptIn cipher receiver key sessionId seq plaintext = .ok message ∧
      ∀ received, decryptIn cipher receiver key sessionId seq received = .ok plaintext ↔
        received = message := by
  refine ⟨_, encryptIn_eq cipher sized sessionId sends plaintext,
    encryptIn_eq cipher sized sessionId receives plaintext, ?_⟩
  intro received
  rw [ok_iff_toOption, decryptIn_eq cipher sized sessionId receives]
  exact lawful.unsealed_eq_some_iff

/-! A cipher that leaves the text as it is and takes the first bytes of all it is given for
the tag. -/

def sampleTag (key nonce plaintext aad : Bytes) : Bytes :=
  (nonce ++ aad ++ plaintext ++ key ++ List.replicate 16 0).take 16

def sampleCipher : Cipher where
  encrypt key nonce plaintext aad := (plaintext, sampleTag key nonce plaintext aad)
  decrypt key nonce ciphertext tag aad :=
    if tag = sampleTag key nonce ciphertext aad then some ciphertext else none

theorem sampleCipher_lawful : sampleCipher.Lawful where
  length_tag key nonce plaintext aad := by
    simp [sampleCipher, sampleTag]
    omega
  length_ciphertext key nonce plaintext aad := rfl
  decrypt_eq_some_iff key nonce ciphertext tag aad plaintext := by
    simp only [sampleCipher, Prod.mk.injEq]
    constructor
    · intro accepted
      split at accepted
      case isTrue same =>
          cases accepted
          exact ⟨rfl, same.symm⟩
      case isFalse => cases accepted
    · rintro ⟨rfl, rfl⟩
      rw [if_pos rfl]

/-- A Node client and a Java server at number five. -/
theorem starters_interoperate_node_java :
    Crypto.sampleKey.val.length = 32 ∧ Node.number 5 = 5 ∧
      ∃ message,
        encryptIn sampleCipher .node Crypto.sampleKey.val [1, 0] 5 [2, 3] = .ok message ∧
        encryptIn sampleCipher .java Crypto.sampleKey.val [1, 0] 5 [2, 3] = .ok message ∧
        ∀ received, decryptIn sampleCipher .java Crypto.sampleKey.val [1, 0] 5 received =
          .ok [2, 3] ↔ received = message :=
  ⟨Crypto.sampleKey.property, rfl,
    starters_interoperate sampleCipher_lawful Crypto.sampleKey.property
      (show Expressible .node 5 from rfl) (show Expressible .java 5 from trivial) [1, 0] [2, 3]⟩

/-- The first number that Node cannot express. -/
example : Node.number 9007199254740993 = 9007199254740992 := by decide +kernel

end FProto.Starters

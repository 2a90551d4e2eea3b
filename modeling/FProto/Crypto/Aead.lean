import FProto.Foundation.Endian

/-!
Owns `proto-core/crypto/aead.go`, over any implementation of ChaCha20-Poly1305.

**Main result.** A ciphertext is bound to its session id and its sequence number,
because the nonce determines the one and the additional data both:
`aead_bound_to_session_and_seq`.
-/

namespace FProto.Crypto

open FProto.Foundation

/-- `golang.org/x/crypto/chacha20poly1305`: key, nonce, text and additional
data. -/
structure Aead where
  sealWith : (key nonce plaintext aad : Bytes) → Bytes
  openWith : (key nonce ciphertext aad : Bytes) → Except String Bytes

/-- A ciphertext opens under the key, the nonce and the additional data it was
sealed with, and under no others. -/
structure Aead.Assumptions (aead : Aead) : Prop where
  opens : ∀ key nonce plaintext aad,
    aead.openWith key nonce (aead.sealWith key nonce plaintext aad) aad = .ok plaintext
  opensOnly : ∀ key nonce plaintext aad key' nonce' aad',
    ¬(key' = key ∧ nonce' = nonce ∧ aad' = aad) →
    ∃ error, aead.openWith key' nonce' (aead.sealWith key nonce plaintext aad) aad' = .error error

/-- The same for one key: the nonce and the additional data decide. -/
structure Aead.Binds (aead : Aead) (key : Bytes) : Prop where
  opens : ∀ nonce plaintext aad,
    aead.openWith key nonce (aead.sealWith key nonce plaintext aad) aad = .ok plaintext
  opensOnly : ∀ nonce plaintext aad nonce' aad', ¬(nonce' = nonce ∧ aad' = aad) →
    ∃ error, aead.openWith key nonce' (aead.sealWith key nonce plaintext aad) aad' = .error error

theorem Aead.Assumptions.binds {aead : Aead} (lawful : aead.Assumptions) (key : Bytes) :
    aead.Binds key where
  opens := lawful.opens key
  opensOnly nonce plaintext aad nonce' aad' different :=
    lawful.opensOnly key nonce plaintext aad key nonce' aad' fun same => different same.2

/-- `cipher.AEAD` as `NewAEAD` returns it. -/
abbrev AeadKey := { key : Bytes // key.length = 32 }

def newAEAD (key : Bytes) : Except String AeadKey :=
  if sized : key.length = 32 then .ok ⟨key, sized⟩
  else .error ("invalid key size: expected 32, got " ++ toString key.length)

/-- `BuildNonce`. -/
def buildNonce (seq : UInt64) : Bytes :=
  List.replicate 4 0 ++ littleEndian64 seq

/-- `BuildAAD`. -/
def buildAAD (sessionId : Bytes) (seq : UInt64) : Bytes :=
  sessionId ++ littleEndian64 seq

/-- `EncryptAEAD`. -/
def encryptAEAD (aead : Aead) (key : AeadKey) (sessionId : Bytes) (seq : UInt64)
    (plaintext : Bytes) : Bytes :=
  aead.sealWith key (buildNonce seq) plaintext (buildAAD sessionId seq)

/-- `DecryptAEAD`. -/
def decryptAEAD (aead : Aead) (key : AeadKey) (sessionId : Bytes) (seq : UInt64)
    (ciphertext : Bytes) : Except String Bytes :=
  match aead.openWith key (buildNonce seq) ciphertext (buildAAD sessionId seq) with
  | .error error => .error ("aead decrypt: " ++ error)
  | .ok plaintext => .ok plaintext

theorem newAEAD_of_length {key : Bytes} (sized : key.length = 32) :
    newAEAD key = .ok ⟨key, sized⟩ :=
  dif_pos sized

/-- With the same session and sequence number, the keys decide. -/
theorem decryptAEAD_encryptAEAD_iff {aead : Aead} (lawful : aead.Assumptions)
    (key other : AeadKey) (sessionId : Bytes) (seq : UInt64) (plaintext : Bytes) :
    decryptAEAD aead other sessionId seq (encryptAEAD aead key sessionId seq plaintext) =
      .ok plaintext ↔ other = key := by
  unfold decryptAEAD encryptAEAD
  constructor
  · intro recovered
    by_contra different
    obtain ⟨error, failed⟩ := lawful.opensOnly key (buildNonce seq) plaintext
      (buildAAD sessionId seq) other (buildNonce seq) (buildAAD sessionId seq)
      fun same => different (Subtype.ext same.1)
    rw [failed] at recovered
    cases recovered
  · intro same
    rw [same, lawful.opens]

/-! ### Session binding -/

/-- No two sequence numbers share a nonce. -/
theorem buildNonce_injective : Function.Injective buildNonce := by
  intro seq other equal
  exact littleEndian64_injective (List.append_cancel_left equal)

/-- Session ids have any length and are not ended by a separator, but what follows
them is always eight bytes long. -/
theorem buildAAD_inj {sessionId other : Bytes} {seq otherSeq : UInt64}
    (equal : buildAAD sessionId seq = buildAAD other otherSeq) :
    sessionId = other ∧ seq = otherSeq := by
  have parts := List.append_inj' equal (by rw [length_littleEndian64, length_littleEndian64])
  exact ⟨parts.1, littleEndian64_injective parts.2⟩

section Binding

variable {aead : Aead} {key : AeadKey} (bound : aead.Binds key)

include bound

theorem decryptAEAD_encryptAEAD (sessionId : Bytes) (seq : UInt64) (plaintext : Bytes) :
    decryptAEAD aead key sessionId seq (encryptAEAD aead key sessionId seq plaintext) =
      .ok plaintext := by
  rw [decryptAEAD, encryptAEAD, bound.opens]

/-- What decrypts at all was encrypted for the same session id and number. -/
theorem same_of_decryptAEAD_ok {sessionId other plaintext text : Bytes} {seq otherSeq : UInt64}
    (decrypted : decryptAEAD aead key other otherSeq
      (encryptAEAD aead key sessionId seq plaintext) = .ok text) :
    other = sessionId ∧ otherSeq = seq := by
  by_cases same : buildNonce otherSeq = buildNonce seq ∧
      buildAAD other otherSeq = buildAAD sessionId seq
  · exact buildAAD_inj same.2
  · obtain ⟨error, failed⟩ := bound.opensOnly _ plaintext _ _ _ same
    rw [decryptAEAD, encryptAEAD, failed] at decrypted
    cases decrypted

/-- **AEAD messages are bound to their session and sequence number.** Under one key
a message decrypts to its plaintext for the session id and the number it was
encrypted for, and not at all for any other; no two numbers share a nonce. -/
theorem aead_bound_to_session_and_seq :
    (∀ sessionId seq plaintext,
      decryptAEAD aead key sessionId seq (encryptAEAD aead key sessionId seq plaintext) =
        .ok plaintext) ∧
      (∀ sessionId seq plaintext other otherSeq text,
        decryptAEAD aead key other otherSeq (encryptAEAD aead key sessionId seq plaintext) =
          .ok text → other = sessionId ∧ otherSeq = seq) ∧
      ∀ seq otherSeq, seq ≠ otherSeq → buildNonce seq ≠ buildNonce otherSeq := by
  refine ⟨decryptAEAD_encryptAEAD bound, ?_, ?_⟩
  · intro sessionId seq plaintext other otherSeq text decrypted
    exact same_of_decryptAEAD_ok bound decrypted
  · intro seq otherSeq different equal
    exact different (buildNonce_injective equal)

end Binding

/-! A cipher whose ciphertexts carry key, nonce and additional data in clear, each
ended by a colon. -/

def sampleTag (key nonce aad : Bytes) : Bytes :=
  hexEncode key ++ 58 :: (hexEncode nonce ++ 58 :: (hexEncode aad ++ [58]))

def sampleAead : Aead where
  sealWith key nonce plaintext aad := sampleTag key nonce aad ++ plaintext
  openWith key nonce ciphertext aad :=
    let tag := sampleTag key nonce aad
    if ciphertext.take tag.length = tag then .ok (ciphertext.drop tag.length)
    else .error "chacha20poly1305: message authentication failed"

theorem hexEncode_colon_inj {left right leftRest rightRest : Bytes}
    (equal : hexEncode left ++ 58 :: leftRest = hexEncode right ++ 58 :: rightRest) :
    left = right ∧ leftRest = rightRest := by
  obtain ⟨same, rests⟩ := append_separator_inj (not_mem_hexEncode (by decide) _)
    (not_mem_hexEncode (by decide) _) equal
  exact ⟨hexEncode_injective same, rests⟩

theorem sampleAead_assumptions : sampleAead.Assumptions := by
  refine ⟨fun key nonce plaintext aad => ?_, fun key nonce plaintext aad key' nonce' aad' => ?_⟩
  · have starts : (sampleTag key nonce aad ++ plaintext).take (sampleTag key nonce aad).length =
        sampleTag key nonce aad := List.take_left
    exact (if_pos starts).trans (congrArg Except.ok List.drop_left)
  · intro different
    refine ⟨_, if_neg fun same => different ?_⟩
    have starts : sampleTag key' nonce' aad' ++
        (sampleTag key nonce aad ++ plaintext).drop (sampleTag key' nonce' aad').length =
          sampleTag key nonce aad ++ plaintext := by
      nth_rewrite 1 [← same]
      exact List.take_append_drop _ _
    simp only [sampleTag, List.append_assoc, List.cons_append, List.nil_append] at starts
    obtain ⟨keys, nonces⟩ := hexEncode_colon_inj starts
    obtain ⟨sameNonce, datas⟩ := hexEncode_colon_inj nonces
    exact ⟨keys, sameNonce, (hexEncode_colon_inj datas).1⟩

def sampleKey : AeadKey := ⟨List.replicate 32 7, List.length_replicate⟩

theorem aead_bound_to_session_and_seq_sample :
    sampleAead.Binds sampleKey ∧
      decryptAEAD sampleAead sampleKey [1, 0] 5
        (encryptAEAD sampleAead sampleKey [1, 0] 5 [2, 3]) = .ok [2, 3] ∧
      ¬∃ text, decryptAEAD sampleAead sampleKey [1] 5
        (encryptAEAD sampleAead sampleKey [1, 0] 5 [2, 3]) = .ok text := by
  have bound := sampleAead_assumptions.binds sampleKey
  have binding := aead_bound_to_session_and_seq bound
  refine ⟨bound, binding.1 [1, 0] 5 [2, 3], ?_⟩
  intro decrypts
  obtain ⟨text, decrypted⟩ := decrypts
  have same := (binding.2.1 [1, 0] 5 [2, 3] [1] 5 text decrypted).1
  exact absurd same (by decide)

end FProto.Crypto

import FProto.Crypto.OnHeap

/-!
Owns repeated calls of the RPC `Rekey`, each on the state the call before it
returned.

A rotation replaces the first 32 bytes of a state and keeps the rest, so the state
after any number of calls is the derived key followed by what the state ended with:
`rekeyTimes_eq`.

**Main result.** Two parties that rotate a state equally often understand each
other, and parties at different places of a chain without repetition do not:
`rekeyed_parties_in_step`.
-/

namespace FProto.Crypto

open FProto.Foundation
open FProto.Protocol

variable (sha256 : HashFunction)

/-- The state after some calls of `Rekey`. Behind the state of each request there
may be spare bytes. -/
def rekeyTimes (spare : Nat → Bytes) (cryptoState : Bytes) : Nat → Handled Bytes
  | 0 => .ok cryptoState
  | count + 1 => do
      Server.rekey sha256 ⟨← rekeyTimes spare cryptoState count, spare count⟩

/-- The chain of keys that starts with the key of a state. -/
def derivedKey (cryptoState : Bytes) : Nat → Bytes
  | 0 => cryptoState.take 32
  | count + 1 => rotated sha256 "proto-rekey" (derivedKey cryptoState count)

/-- No key occurs twice among the first ones of a chain. -/
def NoRepetition (keys : Nat → Bytes) (first second : Nat) : Prop :=
  ∀ i j, (i ≤ first ∨ i ≤ second) → (j ≤ first ∨ j ≤ second) → keys i = keys j → i = j

/-! ### States -/

section States

variable {cryptoState : Bytes} (long : 32 ≤ cryptoState.length)

include long

theorem length_derivedKey (count : Nat) : (derivedKey sha256 cryptoState count).length = 32 := by
  cases count with
  | zero => exact List.length_take_of_le long
  | succ count => exact sha256.length_hmac _ _

theorem take_rekeyed (count : Nat) :
    (derivedKey sha256 cryptoState count ++ cryptoState.drop 32).take 32 =
      derivedKey sha256 cryptoState count := by
  rw [← length_derivedKey sha256 long count, List.take_left]

theorem drop_rekeyed (count : Nat) :
    (derivedKey sha256 cryptoState count ++ cryptoState.drop 32).drop 32 =
      cryptoState.drop 32 := by
  have length := length_derivedKey sha256 long count
  nth_rewrite 1 [← length]
  rw [List.drop_left]

theorem length_rekeyed (count : Nat) :
    (derivedKey sha256 cryptoState count ++ cryptoState.drop 32).length =
      cryptoState.length := by
  rw [List.length_append, length_derivedKey sha256 long, List.length_drop]
  omega

/-- **Any number of calls succeeds.** -/
theorem rekeyTimes_eq (spare : Nat → Bytes) (count : Nat) :
    rekeyTimes sha256 spare cryptoState count =
      .ok (derivedKey sha256 cryptoState count ++ cryptoState.drop 32) := by
  induction count with
  | zero =>
      show Except.ok cryptoState = Except.ok (cryptoState.take 32 ++ cryptoState.drop 32)
      rw [List.take_append_drop]
  | succ count inductionHypothesis =>
      have still : 32 ≤ (derivedKey sha256 cryptoState count ++ cryptoState.drop 32).length := by
        rw [length_rekeyed sha256 long]
        exact long
      rw [rekeyTimes, inductionHypothesis]
      show Server.rekey sha256 ⟨_, spare count⟩ = _
      rw [OnHeap.rekey_of_long sha256 still, take_rekeyed sha256 long, drop_rekeyed sha256 long]
      rfl

end States

/-! ### Texts -/

/-- A text is rejected under every other key. -/
theorem decrypt_rejects {aead : Aead} (lawful : aead.Assumptions) (sender receiver : Buffer)
    (senderLong : 32 ≤ sender.content.length) (receiverLong : 32 ≤ receiver.content.length)
    (different : receiver.content.take 32 ≠ sender.content.take 32) (sessionId : Bytes)
    (seq : UInt64) (plaintext : Bytes) :
    ∃ ciphertext error,
      Server.encrypt aead sessionId sender seq plaintext = .ok ciphertext ∧
        Server.decrypt aead sessionId receiver seq ciphertext =
          .error (.status .invalidArgument error) := by
  obtain ⟨error, failed⟩ := lawful.opensOnly (sender.key senderLong) (buildNonce seq) plaintext
    (buildAAD sessionId seq) (receiver.key receiverLong) (buildNonce seq) (buildAAD sessionId seq)
    fun same => different same.1
  refine ⟨_, "decrypt: " ++ ("aead decrypt: " ++ error),
    encrypt_of_long aead sessionId seq senderLong plaintext, ?_⟩
  rw [decrypt_of_long aead sessionId seq receiverLong, decryptAEAD, encryptAEAD, failed]

/-- **Rekeying keeps two parties in step.** Whatever spare bytes the requests of the
two have, any number of rotations of a state that holds a key succeeds and keeps
its length and all bytes behind the key. What a party encrypts after `n` rotations,
the other decrypts after `n` rotations; after `k` others it is rejected, when no
key of the chain comes back within `n` and `k` rotations. -/
theorem rekeyed_parties_in_step {aead : Aead} (lawful : aead.Assumptions) {cryptoState : Bytes}
    (long : 32 ≤ cryptoState.length) (n k : Nat) (senderSpare receiverSpare : Nat → Bytes)
    (sessionId : Bytes) (seq : UInt64) (plaintext : Bytes) :
    (∃ state, rekeyTimes sha256 senderSpare cryptoState n = .ok state ∧
      state.length = cryptoState.length ∧ state.drop 32 = cryptoState.drop 32) ∧
    (∃ sender receiver,
      rekeyTimes sha256 senderSpare cryptoState n = .ok sender ∧
      rekeyTimes sha256 receiverSpare cryptoState n = .ok receiver ∧
      Recovers aead ⟨sender, senderSpare n⟩ ⟨receiver, receiverSpare n⟩ sessionId seq plaintext) ∧
    (NoRepetition (derivedKey sha256 cryptoState) n k → k ≠ n →
      ∃ sender receiver ciphertext error,
        rekeyTimes sha256 senderSpare cryptoState n = .ok sender ∧
        rekeyTimes sha256 receiverSpare cryptoState k = .ok receiver ∧
        Server.encrypt aead sessionId ⟨sender, senderSpare n⟩ seq plaintext = .ok ciphertext ∧
        Server.decrypt aead sessionId ⟨receiver, receiverSpare k⟩ seq ciphertext =
          .error (.status .invalidArgument error)) := by
  have holdsKey : ∀ count,
      32 ≤ (derivedKey sha256 cryptoState count ++ cryptoState.drop 32).length := by
    intro count
    rw [length_rekeyed sha256 long]
    exact long
  refine ⟨?_, ?_, ?_⟩
  · exact ⟨_, rekeyTimes_eq sha256 long senderSpare n, length_rekeyed sha256 long n,
      drop_rekeyed sha256 long n⟩
  · refine ⟨_, _, rekeyTimes_eq sha256 long senderSpare n,
      rekeyTimes_eq sha256 long receiverSpare n, ?_⟩
    exact (recovers_iff lawful (holdsKey n) (holdsKey n) sessionId seq plaintext).mpr rfl
  · intro fresh different
    have keys : derivedKey sha256 cryptoState k ≠ derivedKey sha256 cryptoState n := fun same =>
      different (fresh k n (.inr (Nat.le_refl k)) (.inl (Nat.le_refl n)) same)
    obtain ⟨ciphertext, error, encrypted, rejected⟩ := decrypt_rejects lawful
      ⟨_, senderSpare n⟩ ⟨_, receiverSpare k⟩ (holdsKey n) (holdsKey k)
      (by rwa [take_rekeyed sha256 long, take_rekeyed sha256 long]) sessionId seq plaintext
    exact ⟨_, _, ciphertext, error, rekeyTimes_eq sha256 long senderSpare n,
      rekeyTimes_eq sha256 long receiverSpare k, encrypted, rejected⟩

theorem rekeyed_parties_in_step_sample :
    (∃ state, rekeyTimes sampleHash (fun _ => []) (testVectorKey ++ [40, 41]) 1 = .ok state ∧
      state.length = 34 ∧ state.drop 32 = [40, 41]) ∧
    ∃ sender receiver ciphertext error,
      rekeyTimes sampleHash (fun _ => []) (testVectorKey ++ [40, 41]) 1 = .ok sender ∧
      rekeyTimes sampleHash (fun _ => []) (testVectorKey ++ [40, 41]) 0 = .ok receiver ∧
      Server.encrypt sampleAead [1] ⟨sender, []⟩ 5 [2, 3] = .ok ciphertext ∧
      Server.decrypt sampleAead [1] ⟨receiver, []⟩ 5 ciphertext =
        .error (.status .invalidArgument error) := by
  have step := rekeyed_parties_in_step sampleHash sampleAead_assumptions
    (show 32 ≤ (testVectorKey ++ [40, 41]).length by decide) 1 0 (fun _ => []) (fun _ => []) [1] 5
    [2, 3]
  have distinct : ∀ i < 2, ∀ j < 2, derivedKey sampleHash (testVectorKey ++ [40, 41]) i =
      derivedKey sampleHash (testVectorKey ++ [40, 41]) j → i = j := by
    decide +kernel
  refine ⟨step.1, step.2.2 ?_ (by decide)⟩
  intro i j iBelow jBelow
  exact distinct i (by omega) j (by omega)

end FProto.Crypto

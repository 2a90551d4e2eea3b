import Mathlib.Logic.Function.Iterate

/-!
Owns `ratchet.go`, `encrypt.go` and `decrypt.go` of
`server/internal/senderkeys`, over any type of byte strings and any
implementation of the primitives they call.

Nothing is assumed of the primitives here. A call either returns, fails with an
error text, or panics as the libraries document for wrong lengths.
-/

namespace FProto.SenderKeys

/-- HMAC-SHA256, ChaCha20-Poly1305 without additional data, and Ed25519. -/
structure Primitives (Data : Type) where
  /-- `len`. -/
  size : Data → Nat
  /-- The bytes of a text. -/
  text : String → Data
  hmac : Data → Data → Data
  aeadSeal : Data → Data → Data → Data
  aeadOpen : Data → Data → Data → Option Data
  sign : Data → Data → Data
  verify : Data → Data → Data → Bool

/-- How a call ends when it does not return. -/
inductive Failure where
  | error (text : String)
  | panicked (text : String)
deriving DecidableEq

/-- `EncryptedMessage`. -/
structure EncryptedMessage (Data : Type) where
  keyId : UInt32
  ciphertext : Data
  nonce : Data
  signature : Data
deriving DecidableEq

variable {Data : Type}

/-- `chacha20poly1305.NonceSize` bytes. -/
abbrev Primitives.Nonce (primitives : Primitives Data) : Type :=
  { nonce : Data // primitives.size nonce = 12 }

/-- `Ratchet`: the next chain key and the message key. -/
def ratchet (primitives : Primitives Data) (chainKey : Data) : Data × Data :=
  (primitives.hmac chainKey (primitives.text "ratchet"),
    primitives.hmac chainKey (primitives.text "message"))

/-- The loop of `RatchetN`. -/
def ratchetLoop (primitives : Primitives Data) (current : Data) (messageKeys : List Data) :
    Nat → Data × List Data
  | 0 => (current, messageKeys)
  | steps + 1 =>
      let (next, messageKey) := ratchet primitives current
      ratchetLoop primitives next (messageKeys ++ [messageKey]) steps

/-- `RatchetN`. `make` panics for a negative length. -/
def ratchetN (primitives : Primitives Data) (chainKey : Data) (steps : Int) :
    Except Failure (Data × List Data) :=
  if steps < 0 then .error (.panicked "runtime error: makeslice: len out of range")
  else .ok (ratchetLoop primitives chainKey [] steps.toNat)

/-- `Encrypt`. What `rand.Read` gives is an argument. -/
def encrypt (primitives : Primitives Data) (chainKey signingKey : Data) (keyId : UInt32)
    (plaintext : Data) (random : Except String primitives.Nonce) :
    Except Failure (EncryptedMessage Data × Data) :=
  let (nextChain, messageKey) := ratchet primitives chainKey
  if primitives.size messageKey ≠ 32 then
    .error (.error "chacha20poly1305: chacha20poly1305: bad key length")
  else
    match random with
    | .error error => .error (.error ("nonce: " ++ error))
    | .ok nonce =>
        if 1 <<< 38 - 64 < primitives.size plaintext then
          .error (.panicked "chacha20poly1305: plaintext too large")
        else
          let ciphertext := primitives.aeadSeal messageKey nonce.1 plaintext
          if primitives.size signingKey ≠ 64 then
            .error (.panicked
              ("ed25519: bad private key length: " ++ toString (primitives.size signingKey)))
          else
            .ok ({ keyId
                   ciphertext
                   nonce := nonce.1
                   signature := primitives.sign signingKey ciphertext }, nextChain)

/-- `Decrypt`. -/
def decrypt (primitives : Primitives Data) (chainKey publicKey : Data)
    (message : EncryptedMessage Data) : Except Failure (Data × Data) :=
  if primitives.size publicKey ≠ 32 then
    .error (.panicked
      ("ed25519: bad public key length: " ++ toString (primitives.size publicKey)))
  else if ¬primitives.verify publicKey message.ciphertext message.signature then
    .error (.error "invalid signature")
  else
    let (nextChain, messageKey) := ratchet primitives chainKey
    if primitives.size messageKey ≠ 32 then
      .error (.error "chacha20poly1305: chacha20poly1305: bad key length")
    else if primitives.size message.nonce ≠ 12 then
      .error (.panicked "chacha20poly1305: bad nonce length passed to Open")
    else if 1 <<< 38 - 48 < primitives.size message.ciphertext then
      .error (.panicked "chacha20poly1305: ciphertext too large")
    else
      match primitives.aeadOpen messageKey message.nonce message.ciphertext with
      | none => .error (.error "decrypt: chacha20poly1305: message authentication failed")
      | some plaintext => .ok (plaintext, nextChain)

/-! ### Chains -/

/-- The chain key after some steps. -/
def chainKeyAt (primitives : Primitives Data) (chainKey : Data) (steps : Nat) : Data :=
  (fun key => (ratchet primitives key).1)^[steps] chainKey

/-- The message key of a step. -/
def messageKeyAt (primitives : Primitives Data) (chainKey : Data) (step : Nat) : Data :=
  (ratchet primitives (chainKeyAt primitives chainKey step)).2

section Chain

variable (primitives : Primitives Data) (chainKey : Data)

@[simp] theorem chainKeyAt_zero : chainKeyAt primitives chainKey 0 = chainKey := rfl

theorem chainKeyAt_succ (steps : Nat) :
    chainKeyAt primitives chainKey (steps + 1) =
      (ratchet primitives (chainKeyAt primitives chainKey steps)).1 :=
  Function.iterate_succ_apply' ..

theorem chainKeyAt_ratchet (steps : Nat) :
    chainKeyAt primitives (ratchet primitives chainKey).1 steps =
      chainKeyAt primitives chainKey (steps + 1) :=
  (Function.iterate_succ_apply ..).symm

theorem messageKeyAt_ratchet (step : Nat) :
    messageKeyAt primitives (ratchet primitives chainKey).1 step =
      messageKeyAt primitives chainKey (step + 1) := by
  rw [messageKeyAt, chainKeyAt_ratchet, messageKeyAt]

theorem ratchetLoop_eq (messageKeys : List Data) (steps : Nat) :
    ratchetLoop primitives chainKey messageKeys steps =
      (chainKeyAt primitives chainKey steps,
        messageKeys ++ (List.range steps).map (messageKeyAt primitives chainKey)) := by
  induction steps generalizing chainKey messageKeys with
  | zero => simp [ratchetLoop]
  | succ steps inductionHypothesis =>
      rw [ratchetLoop]
      dsimp only
      rw [inductionHypothesis, chainKeyAt_ratchet, List.range_succ_eq_map, List.map_cons,
        List.map_map, List.append_assoc]
      have shifted : messageKeyAt primitives (ratchet primitives chainKey).1 =
          messageKeyAt primitives chainKey ∘ Nat.succ :=
        funext (messageKeyAt_ratchet primitives chainKey)
      rw [shifted]
      rfl

/-- `RatchetN` computes the chain key after the steps and the message key of each
of them. -/
theorem ratchetN_eq (steps : Nat) :
    ratchetN primitives chainKey steps =
      .ok (chainKeyAt primitives chainKey steps,
        (List.range steps).map (messageKeyAt primitives chainKey)) := by
  rw [ratchetN, if_neg (by omega), Int.toNat_natCast, ratchetLoop_eq, List.nil_append]

end Chain

/-! ### What a message was made of -/

/-- The message is the plaintext sealed under the key, and signed. -/
def Sealed (primitives : Primitives Data) (signingKey messageKey plaintext : Data)
    (message : EncryptedMessage Data) : Prop :=
  primitives.size message.nonce = 12 ∧ primitives.size plaintext ≤ 1 <<< 38 - 64 ∧
    message.ciphertext = primitives.aeadSeal messageKey message.nonce plaintext ∧
    message.signature = primitives.sign signingKey message.ciphertext

theorem encrypt_ok {primitives : Primitives Data} {chainKey signingKey plaintext next : Data}
    {keyId : UInt32} {random : Except String primitives.Nonce} {message : EncryptedMessage Data}
    (encrypted : encrypt primitives chainKey signingKey keyId plaintext random =
      .ok (message, next)) :
    next = (ratchet primitives chainKey).1 ∧
      Sealed primitives signingKey (ratchet primitives chainKey).2 plaintext message := by
  unfold encrypt at encrypted
  dsimp only at encrypted
  split at encrypted
  · cases encrypted
  · split at encrypted
    · cases encrypted
    · next nonce =>
      split at encrypted
      · cases encrypted
      · next fits =>
        split at encrypted
        · cases encrypted
        · cases encrypted
          exact ⟨rfl, nonce.2, Nat.le_of_not_lt fits, rfl, rfl⟩

end FProto.SenderKeys

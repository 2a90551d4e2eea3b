import Mathlib.Data.Set.Basic

/-!
Owns the symbolic model of cryptography: terms over free constructors, what an
attacker derives from a set of known terms, and the rule that proves a term
underivable.

A keyed hash is one way: no rule leads from an output to its key. A ciphertext
opens with its key only, and the signature of a message gives nothing back.
-/

namespace FProto.Foundation

/-- Terms over some atoms: keys, nonces and payloads that nobody guesses. -/
inductive Term (Atom Text : Type) where
  | atom (atom : Atom)
  | text (text : Text)
  | hmac (key label : Term Atom Text)
  | aead (key nonce plaintext : Term Atom Text)
  | signature (key message : Term Atom Text)
deriving DecidableEq

variable {Atom Text : Type}

/-- The terms an attacker derives. Every text is public. -/
inductive Derives (known : Set (Term Atom Text)) : Term Atom Text → Prop where
  | known {term : Term Atom Text} (member : term ∈ known) : Derives known term
  | text (text : Text) : Derives known (.text text)
  | hmac {key label : Term Atom Text} (keyKnown : Derives known key)
      (labelKnown : Derives known label) : Derives known (.hmac key label)
  | sealed {key nonce plaintext : Term Atom Text} (keyKnown : Derives known key)
      (nonceKnown : Derives known nonce) (plaintextKnown : Derives known plaintext) :
      Derives known (.aead key nonce plaintext)
  | opened {key nonce plaintext : Term Atom Text} (keyKnown : Derives known key)
      (ciphertextKnown : Derives known (.aead key nonce plaintext)) : Derives known plaintext
  | signed {key message : Term Atom Text} (keyKnown : Derives known key)
      (messageKnown : Derives known message) : Derives known (.signature key message)

/-- A term gives no secret away: it is none, and if it is a ciphertext then its
key is a secret or its plaintext gives none away. -/
def Safe (Secret : Term Atom Text → Prop) : Term Atom Text → Prop
  | .aead key nonce plaintext =>
      ¬Secret (.aead key nonce plaintext) ∧ (Secret key ∨ Safe Secret plaintext)
  | term => ¬Secret term

theorem Safe.not_secret {Secret : Term Atom Text → Prop} {term : Term Atom Text}
    (safe : Safe Secret term) : ¬Secret term := by
  cases term with
  | aead key nonce plaintext => exact safe.1
  | atom atom => exact safe
  | text text => exact safe
  | hmac key label => exact safe
  | signature key message => exact safe

theorem safe_of_not_secret {Secret : Term Atom Text → Prop} {term : Term Atom Text}
    (noCiphertext : ∀ key nonce plaintext, term ≠ .aead key nonce plaintext)
    (notSecret : ¬Secret term) : Safe Secret term := by
  cases term with
  | aead key nonce plaintext => exact absurd rfl (noCiphertext key nonce plaintext)
  | atom atom => exact notSecret
  | text text => exact notSecret
  | hmac key label => exact notSecret
  | signature key message => exact notSecret

/-- Secrets that only a secret leads to: atoms, and hashes under secret keys. -/
structure Guarded (Secret : Term Atom Text → Prop) : Prop where
  text : ∀ text, ¬Secret (.text text)
  hmac : ∀ key label, Secret (.hmac key label) → Secret key
  aead : ∀ key nonce plaintext, ¬Secret (.aead key nonce plaintext)
  signature : ∀ key message, ¬Secret (.signature key message)

/-- **Secrecy.** From safe terms only safe terms are derived. -/
theorem Derives.safe {Secret : Term Atom Text → Prop} (guarded : Guarded Secret)
    {known : Set (Term Atom Text)} (start : ∀ term ∈ known, Safe Secret term)
    {term : Term Atom Text} (derived : Derives known term) : Safe Secret term := by
  induction derived with
  | known member => exact start _ member
  | text text => exact guarded.text text
  | hmac _ _ key _ => exact fun secret => key.not_secret (guarded.hmac _ _ secret)
  | sealed _ _ _ _ _ plaintext => exact ⟨guarded.aead _ _ _, .inr plaintext⟩
  | opened _ _ key ciphertext => exact ciphertext.2.resolve_left key.not_secret
  | signed _ _ _ _ => exact guarded.signature _ _

theorem not_derives_of_secret {Secret : Term Atom Text → Prop} (guarded : Guarded Secret)
    {known : Set (Term Atom Text)} (start : ∀ term ∈ known, Safe Secret term)
    {term : Term Atom Text} (secret : Secret term) : ¬Derives known term :=
  fun derived => (derived.safe guarded start).not_secret secret

end FProto.Foundation

import FProto.Foundation.Symbolic
import FProto.SenderKeys.Channel

/-!
Owns forward secrecy of the sender-key ratchet in the symbolic model. The code
of the sender runs on terms, and the attacker holds one chain key and everything
that was ever sent.

**Main result.** Nothing before that chain key is derivable, and everything from
it on is: `forward_secrecy`.
-/

namespace FProto.SenderKeys

open FProto.Foundation

/-- What nobody guesses. The plaintexts and nonces are fresh for every step. -/
inductive Atom where
  | chainKey
  | signingKey
  | publicKey
  | plaintext (step : Nat)
  | nonce (step : Nat)
deriving DecidableEq

abbrev Symbol := Term Atom String

/-- The lengths of the byte strings that terms stand for. -/
def symbolSize : Symbol → Nat
  | .atom (.nonce _) => 12
  | .atom .signingKey => 64
  | .atom (.plaintext _) => 0
  | .atom .chainKey => 32
  | .atom .publicKey => 32
  | .text text => text.utf8ByteSize
  | .hmac _ _ => 32
  | .aead _ _ plaintext => symbolSize plaintext + 16
  | .signature _ _ => 64

/-- The primitives as free constructors. -/
def symbolic : Primitives Symbol where
  size := symbolSize
  text := .text
  hmac := .hmac
  aeadSeal := .aead
  aeadOpen key nonce
    | .aead sealing sealedNonce plaintext =>
        if key = sealing ∧ nonce = sealedNonce then some plaintext else none
    | _ => none
  sign := .signature
  verify key message signature :=
    key = .atom .publicKey ∧ signature = .signature (.atom .signingKey) message

/-- The chain of the sender. -/
def chain (step : Nat) : Symbol := chainKeyAt symbolic (.atom .chainKey) step

def messageKey (step : Nat) : Symbol := messageKeyAt symbolic (.atom .chainKey) step

theorem chain_succ (step : Nat) : chain (step + 1) = .hmac (chain step) (.text "ratchet") :=
  chainKeyAt_succ symbolic (.atom .chainKey) step

theorem messageKey_eq (step : Nat) : messageKey step = .hmac (chain step) (.text "message") := rfl

theorem chain_injective : Function.Injective chain := by
  intro left
  induction left with
  | zero =>
      intro right same
      cases right with
      | zero => rfl
      | succ right =>
          rw [chain_succ] at same
          cases same
  | succ left inductionHypothesis =>
      intro right same
      cases right with
      | zero =>
          rw [chain_succ] at same
          cases same
      | succ right =>
          rw [chain_succ, chain_succ] at same
          rw [inductionHypothesis (Term.hmac.inj same).1]

/-- A chain key is no message key: the labels differ. -/
theorem chain_ne_messageKey (step other : Nat) : chain step ≠ messageKey other := by
  intro same
  cases step with
  | zero => cases same
  | succ step =>
      rw [chain_succ, messageKey_eq] at same
      exact absurd (Term.hmac.inj same).2 (by simp)

/-! ### What the sender produces -/

section Produced

variable (keyIds : Nat → UInt32)

/-- The calls of the sender. -/
def sending (step : Nat) : Sending symbolic where
  keyId := keyIds step
  plaintext := .atom (.plaintext step)
  random := .ok ⟨.atom (.nonce step), rfl⟩

/-- The message of a step. -/
def message (step : Nat) : EncryptedMessage Symbol :=
  let ciphertext : Symbol :=
    .aead (messageKey step) (.atom (.nonce step)) (.atom (.plaintext step))
  { keyId := keyIds step
    ciphertext
    nonce := .atom (.nonce step)
    signature := .signature (.atom .signingKey) ciphertext }

/-- Every message that is ever produced on the chain. -/
def Produced (produced : EncryptedMessage Symbol) : Prop :=
  ∃ count sent last,
    encryptAll symbolic (.atom .signingKey) (.atom .chainKey)
      ((List.range count).map (sending keyIds)) = .ok (sent, last) ∧ produced ∈ sent

theorem encrypt_symbolic (step : Nat) :
    encrypt symbolic (chain step) (.atom .signingKey) (sending keyIds step).keyId
      (sending keyIds step).plaintext (sending keyIds step).random =
        .ok (message keyIds step, chain (step + 1)) := by
  rw [chain_succ]
  rfl

theorem encryptAll_symbolic (start count : Nat) :
    encryptAll symbolic (.atom .signingKey) (chain start)
      ((List.range' start count).map (sending keyIds)) =
        .ok ((List.range' start count).map (message keyIds), chain (start + count)) := by
  induction count generalizing start with
  | zero => rfl
  | succ count inductionHypothesis =>
      rw [List.range'_succ, List.map_cons, List.map_cons]
      refine encryptAll_cons_iff.mpr ⟨_, _, _, encrypt_symbolic keyIds start,
        ?_, rfl⟩
      rw [inductionHypothesis (start + 1), Nat.add_assoc, Nat.add_comm 1 count]

theorem produced_iff (produced : EncryptedMessage Symbol) :
    Produced keyIds produced ↔ ∃ step, produced = message keyIds step := by
  have encrypted : ∀ count, encryptAll symbolic (.atom .signingKey) (.atom .chainKey)
      ((List.range count).map (sending keyIds)) =
        .ok ((List.range count).map (message keyIds), chain count) := by
    intro count
    have whole := encryptAll_symbolic keyIds 0 count
    rwa [← List.range_eq_range', Nat.zero_add] at whole
  constructor
  · rintro ⟨count, sent, last, produces, member⟩
    rw [encrypted count] at produces
    cases produces
    obtain ⟨step, -, rfl⟩ := List.mem_map.mp member
    exact ⟨step, rfl⟩
  · rintro ⟨step, rfl⟩
    exact ⟨step + 1, _, _, encrypted (step + 1),
      List.mem_map.mpr ⟨step, List.mem_range.mpr (Nat.lt_succ_self step), rfl⟩⟩

/-- The attacker has one chain key, the public key, and every message with all
its fields. -/
inductive Knowledge (position : Nat) : Symbol → Prop where
  | chainKey : Knowledge position (chain position)
  | publicKey : Knowledge position (.atom .publicKey)
  | ciphertext {produced : EncryptedMessage Symbol} (member : Produced keyIds produced) :
      Knowledge position produced.ciphertext
  | nonce {produced : EncryptedMessage Symbol} (member : Produced keyIds produced) :
      Knowledge position produced.nonce
  | signature {produced : EncryptedMessage Symbol} (member : Produced keyIds produced) :
      Knowledge position produced.signature

end Produced

/-! ### Secrets -/

/-- The secrets at a position: the signing key, and every chain key, message key
and plaintext of an earlier step. -/
def Secret (position : Nat) (symbol : Symbol) : Prop :=
  symbol = .atom .signingKey ∨
    ∃ step < position, symbol = chain step ∨ symbol = messageKey step ∨
      symbol = .atom (.plaintext step)

/-- Every link of a chain is an atom or a hash. -/
theorem chain_cases (step : Nat) :
    chain step = .atom .chainKey ∨ ∃ earlier, step = earlier + 1 ∧
      chain step = .hmac (chain earlier) (.text "ratchet") := by
  cases step with
  | zero => exact .inl rfl
  | succ step => exact .inr ⟨step, rfl, chain_succ step⟩

theorem chain_eq_atom {step : Nat} {atom : Atom} (same : chain step = .atom atom) :
    atom = .chainKey := by
  rcases chain_cases step with first | ⟨_, -, later⟩
  · rw [first] at same
    exact (Term.atom.inj same).symm
  · rw [later] at same
    cases same

theorem chain_ne_aead (step : Nat) (key nonce plaintext : Symbol) :
    chain step ≠ .aead key nonce plaintext := by
  intro same
  rcases chain_cases step with first | ⟨_, -, later⟩
  · rw [first] at same
    cases same
  · rw [later] at same
    cases same

theorem secret_atom_or_hmac {position : Nat} {symbol : Symbol} (secret : Secret position symbol) :
    (∃ atom, symbol = .atom atom) ∨
      ∃ key label, symbol = .hmac key label ∧ Secret position key := by
  rcases secret with rfl | ⟨step, before, rfl | rfl | rfl⟩
  · exact .inl ⟨_, rfl⟩
  · rcases chain_cases step with first | ⟨earlier, rfl, later⟩
    · exact .inl ⟨_, first⟩
    · exact .inr ⟨_, _, later, .inr ⟨earlier, by omega, .inl rfl⟩⟩
  · exact .inr ⟨_, _, messageKey_eq step, .inr ⟨step, before, .inl rfl⟩⟩
  · exact .inl ⟨_, rfl⟩

theorem secret_guarded (position : Nat) : Guarded (Secret position) where
  text text secret := by
    rcases secret_atom_or_hmac secret with ⟨_, impossible⟩ | ⟨_, _, impossible, _⟩ <;>
      cases impossible
  hmac key label secret := by
    rcases secret_atom_or_hmac secret with ⟨_, impossible⟩ | ⟨other, _, same, keySecret⟩
    · cases impossible
    · rwa [(Term.hmac.inj same).1]
  aead key nonce plaintext secret := by
    rcases secret_atom_or_hmac secret with ⟨_, impossible⟩ | ⟨_, _, impossible, _⟩ <;>
      cases impossible
  signature key message secret := by
    rcases secret_atom_or_hmac secret with ⟨_, impossible⟩ | ⟨_, _, impossible, _⟩ <;>
      cases impossible

/-- The only secret atoms. -/
theorem secret_atom {position : Nat} {atom : Atom} (secret : Secret position (.atom atom)) :
    atom = .signingKey ∨ atom = .chainKey ∨ ∃ step < position, atom = .plaintext step := by
  rcases secret with same | ⟨step, before, same | same | same⟩
  · exact .inl (Term.atom.inj same)
  · exact .inr (.inl (chain_eq_atom same.symm))
  · cases same
  · exact .inr (.inr ⟨step, before, Term.atom.inj same⟩)

theorem chain_not_secret (position : Nat) : ¬Secret position (chain position) := by
  rintro (signing | ⟨step, before, same | same | same⟩)
  · exact nomatch chain_eq_atom signing
  · have equal := chain_injective same
    omega
  · exact chain_ne_messageKey position step same
  · exact nomatch chain_eq_atom same

/-- What the attacker starts from gives no secret away. A ciphertext of an
earlier step has a secret key, and a later one has no secret plaintext. -/
theorem knowledge_safe (keyIds : Nat → UInt32) (position : Nat) (symbol : Symbol)
    (known : Knowledge keyIds position symbol) : Safe (Secret position) symbol := by
  cases known with
  | chainKey => exact safe_of_not_secret (chain_ne_aead position) (chain_not_secret position)
  | publicKey =>
      intro secret
      simpa using secret_atom secret
  | ciphertext member =>
      obtain ⟨step, rfl⟩ := (produced_iff keyIds _).mp member
      refine ⟨(secret_guarded position).aead _ _ _, ?_⟩
      by_cases before : step < position
      · exact .inl (.inr ⟨step, before, .inr (.inl rfl)⟩)
      · right
        intro secret
        obtain ⟨other, otherBefore, same⟩ : ∃ other < position,
            Atom.plaintext step = .plaintext other := by simpa using secret_atom secret
        obtain rfl := Atom.plaintext.inj same
        exact before otherBefore
  | nonce member =>
      obtain ⟨step, rfl⟩ := (produced_iff keyIds _).mp member
      intro secret
      simpa using secret_atom secret
  | signature member =>
      obtain ⟨step, rfl⟩ := (produced_iff keyIds _).mp member
      exact (secret_guarded position).signature _ _

/-! ### What is derivable -/

/-- The chain can be followed forward. -/
theorem derives_chain (keyIds : Nat → UInt32) (position steps : Nat) :
    Derives (Knowledge keyIds position) (chain (position + steps)) := by
  induction steps with
  | zero => exact .known .chainKey
  | succ steps inductionHypothesis =>
      rw [← Nat.add_assoc, chain_succ]
      exact .hmac inductionHypothesis (.text "ratchet")

/-- **Main result.** An attacker who has the chain key of a position, the public
key and everything that is ever sent derives no chain key, message key or
plaintext of an earlier step, and the message key of every later one. -/
theorem forward_secrecy (keyIds : Nat → UInt32) (position : Nat) :
    (∀ step < position,
      ¬Derives (Knowledge keyIds position) (chainKeyAt symbolic (.atom .chainKey) step) ∧
      ¬Derives (Knowledge keyIds position) (messageKeyAt symbolic (.atom .chainKey) step) ∧
      ¬Derives (Knowledge keyIds position) (.atom (.plaintext step))) ∧
    ∀ step ≥ position,
      Derives (Knowledge keyIds position) (messageKeyAt symbolic (.atom .chainKey) step) := by
  have secrecy : ∀ symbol, Secret position symbol → ¬Derives (Knowledge keyIds position) symbol :=
    fun symbol => not_derives_of_secret (secret_guarded position) (knowledge_safe keyIds position)
  constructor
  · intro step before
    exact ⟨secrecy _ (.inr ⟨step, before, .inl rfl⟩),
      secrecy _ (.inr ⟨step, before, .inr (.inl rfl)⟩),
      secrecy _ (.inr ⟨step, before, .inr (.inr rfl)⟩)⟩
  · intro step after
    obtain ⟨steps, rfl⟩ := Nat.exists_eq_add_of_le after
    exact .hmac (derives_chain keyIds position steps) (.text "message")

/-- With the first step behind, its plaintext is safe and the next one is not. -/
theorem forward_secrecy_second_step :
    ¬Derives (Knowledge (fun _ => 1) 1) (.atom (.plaintext 0)) ∧
      Derives (Knowledge (fun _ => 1) 1) (.atom (.plaintext 1)) := by
  obtain ⟨earlier, later⟩ := forward_secrecy (fun _ => 1) 1
  have sent : Produced (fun _ => 1) (message (fun _ => 1) 1) :=
    (produced_iff _ _).mpr ⟨1, rfl⟩
  exact ⟨(earlier 0 (by decide)).2.2, .opened (later 1 (by decide)) (.known (.ciphertext sent))⟩

end FProto.SenderKeys

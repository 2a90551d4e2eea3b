import FProto.SenderKeys.Channel

/-!
Owns how `RatchetN` relates to `Ratchet`, `Encrypt` and `Decrypt`: it splits at every
point, and its list of message keys is the list of keys that successive calls use.

Of the primitives only the length of an HMAC is assumed.

**Main result.** `ratchetN_matches_calls`.
-/

namespace FProto.SenderKeys

open FProto.Foundation

variable {Data : Type}

/-! ### Calls along a chain -/

/-- A call of `Encrypt` or `Decrypt` without its chain key. What `rand.Read` gives to
`Encrypt` is an argument. -/
inductive ChainCall (primitives : Primitives Data) where
  | encrypt (signingKey : Data) (keyId : UInt32) (plaintext : Data)
      (random : Except String primitives.Nonce)
  | decrypt (publicKey : Data) (message : EncryptedMessage Data)

/-- What a call returns besides the next chain key. -/
inductive ChainAnswer (Data : Type) where
  | encrypted (message : EncryptedMessage Data)
  | decrypted (plaintext : Data)
deriving DecidableEq

/-- The call with a chain key. -/
def ChainCall.invoke {primitives : Primitives Data} (chainKey : Data) :
    ChainCall primitives → Except Failure (ChainAnswer Data × Data)
  | .encrypt signingKey keyId plaintext random => do
      let (message, next) ← SenderKeys.encrypt primitives chainKey signingKey keyId plaintext random
      return (.encrypted message, next)
  | .decrypt publicKey message => do
      let (plaintext, next) ← SenderKeys.decrypt primitives chainKey publicKey message
      return (.decrypted plaintext, next)

/-- Calls in a row, each with the chain key that the last one returned: what they
return and the last chain key, or the first failure. -/
def callInTurn (primitives : Primitives Data) (chainKey : Data) :
    List (ChainCall primitives) → Except Failure (List (ChainAnswer Data) × Data)
  | [] => .ok ([], chainKey)
  | call :: calls => do
      let (answer, next) ← call.invoke chainKey
      let (answers, last) ← callInTurn primitives next calls
      return (answer :: answers, last)

/-- The arguments have the lengths that the libraries accept, and the answer is made of
them with the message key: `Encrypt` seals under it and signs, `Decrypt` checks
the signature and opens under it. -/
def ChainCall.Yields {primitives : Primitives Data} (messageKey : Data) :
    ChainCall primitives → ChainAnswer Data → Prop
  | .encrypt signingKey keyId plaintext random, answer =>
      primitives.size signingKey = 64 ∧ primitives.size plaintext ≤ 1 <<< 38 - 64 ∧
        ∃ nonce, random = .ok nonce ∧
          answer = .encrypted
            { keyId
              ciphertext := primitives.aeadSeal messageKey nonce.1 plaintext
              nonce := nonce.1
              signature :=
                primitives.sign signingKey (primitives.aeadSeal messageKey nonce.1 plaintext) }
  | .decrypt publicKey message, answer =>
      primitives.size publicKey = 32 ∧
        primitives.verify publicKey message.ciphertext message.signature = true ∧
        primitives.size message.nonce = 12 ∧
        primitives.size message.ciphertext ≤ 1 <<< 38 - 48 ∧
        ∃ plaintext,
          primitives.aeadOpen messageKey message.nonce message.ciphertext = some plaintext ∧
          answer = .decrypted plaintext

/-- A computation that returns has returned at its first step. -/
theorem bind_eq_ok_iff {Error First Second : Type} {first : Except Error First}
    {rest : First → Except Error Second} {result : Second} :
    first >>= rest = .ok result ↔ ∃ value, first = .ok value ∧ rest value = .ok result := by
  cases first <;> simp [bind, Except.bind]

section Calls

variable (primitives : Primitives Data) (chainKey : Data)

section Invoke

variable {primitives chainKey}
  (hmacSize : ∀ key data, primitives.size (primitives.hmac key data) = 32)

include hmacSize

/-- A call returns exactly if its arguments have the right lengths and, for `Decrypt`, the
message verifies and opens; it has then used the message key of its chain key, and
returns the next chain key. -/
theorem invoke_ok_iff {call : ChainCall primitives} {answer : ChainAnswer Data} {next : Data} :
    call.invoke chainKey = .ok (answer, next) ↔
      next = (ratchet primitives chainKey).1 ∧
        call.Yields (ratchet primitives chainKey).2 answer := by
  have keySize : primitives.size (ratchet primitives chainKey).2 = 32 := hmacSize _ _
  cases call with
  | encrypt signingKey keyId plaintext random =>
      simp only [ChainCall.invoke, ChainCall.Yields, SenderKeys.encrypt, keySize, ne_eq,
        not_true_eq_false, if_false]
      -- The bound is a variable, so that it is not evaluated.
      generalize 1 <<< 38 - 64 = bound
      cases random with
      | error error => simp [bind, Except.bind]
      | ok nonce =>
          by_cases fits : primitives.size plaintext ≤ bound
          · by_cases signs : primitives.size signingKey = 64
            · simp [bind, Except.bind, pure, Except.pure, Nat.not_lt.mpr fits, fits, signs, eq_comm,
                and_comm]
            · simp [bind, Except.bind, Nat.not_lt.mpr fits, signs]
          · simp [bind, Except.bind, Nat.not_le.mp fits, fits]
  | decrypt publicKey message =>
      simp only [ChainCall.invoke, ChainCall.Yields, SenderKeys.decrypt, keySize, ne_eq,
        not_true_eq_false, if_false]
      generalize 1 <<< 38 - 48 = bound
      by_cases named : primitives.size publicKey = 32
      · by_cases verified : primitives.verify publicKey message.ciphertext message.signature
        · by_cases sized : primitives.size message.nonce = 12
          · by_cases fits : primitives.size message.ciphertext ≤ bound
            · cases opened : primitives.aeadOpen (ratchet primitives chainKey).2 message.nonce
                  message.ciphertext with
              | none => simp [bind, Except.bind, named, verified, sized, Nat.not_lt.mpr fits]
              | some plaintext =>
                  simp [bind, Except.bind, pure, Except.pure, named, verified, sized,
                    Nat.not_lt.mpr fits, fits, eq_comm, and_comm]
            · simp [bind, Except.bind, named, verified, sized, Nat.not_le.mp fits, fits]
          · simp [bind, Except.bind, named, verified, sized]
        · simp [bind, Except.bind, named, verified]
      · simp [bind, Except.bind, named]

end Invoke

theorem callInTurn_cons_iff {call : ChainCall primitives} {calls : List (ChainCall primitives)}
    {answers : List (ChainAnswer Data)} {last : Data} :
    callInTurn primitives chainKey (call :: calls) = .ok (answers, last) ↔
      ∃ answer next rest, call.invoke chainKey = .ok (answer, next) ∧
        callInTurn primitives next calls = .ok (rest, last) ∧ answers = answer :: rest := by
  simp only [callInTurn, bind_eq_ok_iff, Prod.exists, pure, Except.pure, Except.ok.injEq,
    Prod.mk.injEq]
  constructor
  · rintro ⟨answer, next, invoked, rest, final, later, rfl, rfl⟩
    exact ⟨answer, next, rest, invoked, later, rfl⟩
  · rintro ⟨answer, next, rest, invoked, later, rfl⟩
    exact ⟨answer, next, invoked, rest, last, later, rfl, rfl⟩

/-- **The run lemma.** Every call that returns moves the chain on by one step and uses the
message key of that step. -/
theorem callInTurn_ok_iff
    (hmacSize : ∀ key data, primitives.size (primitives.hmac key data) = 32)
    {calls : List (ChainCall primitives)} {answers : List (ChainAnswer Data)} {last : Data} :
    callInTurn primitives chainKey calls = .ok (answers, last) ↔
      last = chainKeyAt primitives chainKey calls.length ∧ answers.length = calls.length ∧
        ∀ (index : Nat) (call : ChainCall primitives) (answer : ChainAnswer Data),
          calls[index]? = some call → answers[index]? = some answer →
          call.Yields (messageKeyAt primitives chainKey index) answer := by
  induction calls generalizing chainKey answers with
  | nil =>
      simp only [callInTurn, Except.ok.injEq, Prod.mk.injEq, List.length_nil, chainKeyAt_zero,
        List.length_eq_zero_iff]
      constructor
      · rintro ⟨rfl, rfl⟩
        exact ⟨rfl, rfl, fun _ _ _ found => by simp at found⟩
      · rintro ⟨rfl, rfl, -⟩
        exact ⟨rfl, rfl⟩
  | cons call calls inductionHypothesis =>
      rw [callInTurn_cons_iff]
      constructor
      · rintro ⟨answer, next, rest, invoked, later, rfl⟩
        obtain ⟨rfl, yields⟩ := (invoke_ok_iff hmacSize).mp invoked
        obtain ⟨rfl, sameLength, eachYields⟩ := (inductionHypothesis _).mp later
        refine ⟨chainKeyAt_ratchet .., congrArg (· + 1) sameLength, ?_⟩
        intro index later found isFound isAnswer
        cases index with
        | zero =>
            cases isFound
            cases isAnswer
            exact yields
        | succ index =>
            rw [← messageKeyAt_ratchet]
            exact eachYields index later found isFound isAnswer
      · rintro ⟨rfl, sameLength, eachYields⟩
        cases answers with
        | nil => cases sameLength
        | cons answer rest =>
            have first : call.invoke chainKey = .ok (answer, (ratchet primitives chainKey).1) :=
              (invoke_ok_iff hmacSize).mpr ⟨rfl, eachYields 0 call answer rfl rfl⟩
            refine ⟨answer, _, rest, first, (inductionHypothesis _).mpr ⟨?_, ?_, ?_⟩, rfl⟩
            · exact (chainKeyAt_ratchet ..).symm
            · exact Nat.succ.inj sameLength
            · intro index later found isFound isAnswer
              rw [messageKeyAt_ratchet]
              exact eachYields (index + 1) later found isFound isAnswer

/-! ### Splitting a chain -/

theorem chainKeyAt_add (steps more : Nat) :
    chainKeyAt primitives (chainKeyAt primitives chainKey steps) more =
      chainKeyAt primitives chainKey (steps + more) := by
  rw [Nat.add_comm steps more]
  exact (Function.iterate_add_apply _ more steps chainKey).symm

theorem messageKeyAt_add (steps step : Nat) :
    messageKeyAt primitives (chainKeyAt primitives chainKey steps) step =
      messageKeyAt primitives chainKey (steps + step) := by
  rw [messageKeyAt, chainKeyAt_add, messageKeyAt]

theorem messageKeys_add (steps more : Nat) :
    (List.range (steps + more)).map (messageKeyAt primitives chainKey) =
      (List.range steps).map (messageKeyAt primitives chainKey) ++
        (List.range more).map
          (messageKeyAt primitives (chainKeyAt primitives chainKey steps)) := by
  rw [List.range_add, List.map_append, List.map_map]
  congr 1
  apply List.map_congr_left
  intro step _
  exact (messageKeyAt_add primitives chainKey steps step).symm

end Calls

/-- **`RatchetN` is iterated `Ratchet` and matches the calls.** It can be split at every
point, and its list has a key for every step. Calls of `Encrypt` and `Decrypt` in
a row, each with the chain key that the last one returned, return exactly when
every one of them has arguments of the right lengths and, for `Decrypt`, the
message verifies and opens under the key at its place in the list; every call then
returns what it makes of its arguments with that key, and the last chain key is
that of `RatchetN`. -/
theorem ratchetN_matches_calls (primitives : Primitives Data)
    (hmacSize : ∀ key data, primitives.size (primitives.hmac key data) = 32) (chainKey : Data) :
    (∀ first second : Nat, ∃ middle firstKeys final secondKeys,
      ratchetN primitives chainKey first = .ok (middle, firstKeys) ∧
      ratchetN primitives middle second = .ok (final, secondKeys) ∧
      ratchetN primitives chainKey (first + second : Nat) =
        .ok (final, firstKeys ++ secondKeys)) ∧
    ∀ steps : Nat, ∃ final messageKeys,
      ratchetN primitives chainKey steps = .ok (final, messageKeys) ∧
      messageKeys.length = steps ∧
      ∀ calls : List (ChainCall primitives), calls.length = steps → ∀ answers last,
        callInTurn primitives chainKey calls = .ok (answers, last) ↔
          last = final ∧ answers.length = steps ∧
            ∀ (index : Nat) (call : ChainCall primitives) (messageKey : Data)
              (answer : ChainAnswer Data), calls[index]? = some call →
              messageKeys[index]? = some messageKey → answers[index]? = some answer →
              call.Yields messageKey answer := by
  constructor
  · intro first second
    refine ⟨_, _, _, _, ratchetN_eq primitives chainKey first, ratchetN_eq primitives _ second, ?_⟩
    rw [ratchetN_eq, messageKeys_add, chainKeyAt_add]
  · intro steps
    refine ⟨_, _, ratchetN_eq primitives chainKey steps, by simp, ?_⟩
    rintro calls rfl answers last
    rw [callInTurn_ok_iff primitives chainKey hmacSize]
    -- The key at the place of a call is the message key of its step.
    have keys : ∀ (index : Nat) (call : ChainCall primitives), calls[index]? = some call →
        ((List.range calls.length).map (messageKeyAt primitives chainKey))[index]? =
          some (messageKeyAt primitives chainKey index) := by
      intro index call found
      rw [List.getElem?_map, List.getElem?_range (List.getElem?_eq_some_iff.mp found).1,
        Option.map_some]
    constructor
    · rintro ⟨isLast, sameLength, eachYields⟩
      refine ⟨isLast, sameLength, fun index call messageKey answer found isKey isAnswer => ?_⟩
      obtain rfl := Option.some.inj ((keys index call found).symm.trans isKey)
      exact eachYields index call answer found isAnswer
    · rintro ⟨isLast, sameLength, eachYields⟩
      exact ⟨isLast, sameLength, fun index call answer found isAnswer =>
        eachYields index call _ answer found (keys index call found) isAnswer⟩

/-- The two sample messages are encrypted, and one that was sealed under the key of the
third step is decrypted. -/
def sampleCalls : List (ChainCall samplePrimitives) :=
  let third := samplePrimitives.aeadSeal (messageKeyAt samplePrimitives sampleChainKey 2)
    (List.replicate 12 5) [30]
  sampleSendings.map (fun sending =>
      .encrypt sampleSigningKey sending.keyId sending.plaintext sending.random) ++
    [.decrypt samplePublicKey
      { keyId := 1, ciphertext := third, nonce := List.replicate 12 5, signature := third }]

theorem ratchetN_matches_calls_sample :
    ∃ final messageKeys answers,
      ratchetN samplePrimitives sampleChainKey 3 = .ok (final, messageKeys) ∧
      callInTurn samplePrimitives sampleChainKey sampleCalls = .ok (answers, final) ∧
      answers[2]? = some (.decrypted [30]) ∧
      ∀ (index : Nat) (call : ChainCall samplePrimitives) (messageKey : Bytes)
        (answer : ChainAnswer Bytes), sampleCalls[index]? = some call →
        messageKeys[index]? = some messageKey → answers[index]? = some answer →
        call.Yields messageKey answer := by
  obtain ⟨final, messageKeys, isRatchetN, -, calls⟩ :=
    (ratchetN_matches_calls samplePrimitives sample_assumptions.hmac_size sampleChainKey).2 3
  obtain ⟨answers, last, returned, third⟩ : ∃ answers last,
      callInTurn samplePrimitives sampleChainKey sampleCalls = .ok (answers, last) ∧
        answers[2]? = some (.decrypted [30]) := ⟨_, _, rfl, rfl⟩
  obtain ⟨rfl, -, yields⟩ := (calls sampleCalls rfl answers last).mp returned
  exact ⟨last, messageKeys, answers, isRatchetN, returned, third, yields⟩

end FProto.SenderKeys

import FProto.Foundation.Bytes
import FProto.Foundation.Run
import FProto.SenderKeys.Ratchet

/-!
Owns the channel between a sender that encrypts along its chain and a receiver
that decrypts along its own: messages may be dropped, repeated and reordered.

**Main result.** The receiver obtains a prefix of what was sent, and its chain
key is the sender's after as many messages: `received_prefix_of_sent`.
-/

namespace FProto.SenderKeys

open FProto.Foundation

variable {Data : Type}

/-! ### Both ends -/

/-- The arguments of one call to `Encrypt`, and the randomness it gets. -/
structure Sending (primitives : Primitives Data) where
  keyId : UInt32
  plaintext : Data
  random : Except String primitives.Nonce

/-- The sender: every call uses the chain key the last one returned. -/
def encryptAll (primitives : Primitives Data) (signingKey : Data) (chainKey : Data) :
    List (Sending primitives) → Except Failure (List (EncryptedMessage Data) × Data)
  | [] => .ok ([], chainKey)
  | sending :: rest => do
      let (message, next) ←
        encrypt primitives chainKey signingKey sending.keyId sending.plaintext sending.random
      let (messages, last) ← encryptAll primitives signingKey next rest
      return (message :: messages, last)

/-- The receiver's chain key and what it has obtained. -/
structure Receiver (Data : Type) where
  chainKey : Data
  received : List Data
deriving DecidableEq

/-- The receiver keeps its chain key on an error. A panic stops it. -/
def receive (primitives : Primitives Data) (publicKey : Data) (receiver : Receiver Data)
    (message : EncryptedMessage Data) : Option (Receiver Data) :=
  match decrypt primitives receiver.chainKey publicKey message with
  | .error (.panicked _) => none
  | .error (.error _) => some receiver
  | .ok (plaintext, next) =>
      some { chainKey := next, received := receiver.received ++ [plaintext] }

/-- What is assumed of the primitives, for one pair of signing keys and the first
steps of one chain. -/
structure Assumptions (primitives : Primitives Data) (signingKey publicKey chainKey : Data)
    (steps : Nat) : Prop where
  /-- Ed25519 verifies what it signed, under a key of the right length. -/
  publicKey_size : primitives.size publicKey = 32
  verifies : ∀ message, primitives.verify publicKey message (primitives.sign signingKey message)
  hmac_size : ∀ key data, primitives.size (primitives.hmac key data) = 32
  /-- ChaCha20-Poly1305 adds a tag and opens what it sealed. -/
  seal_size : ∀ key nonce plaintext,
    primitives.size (primitives.aeadSeal key nonce plaintext) = primitives.size plaintext + 16
  open_seal : ∀ key nonce plaintext, primitives.size key = 32 → primitives.size nonce = 12 →
    primitives.aeadOpen key nonce (primitives.aeadSeal key nonce plaintext) = some plaintext
  /-- It opens nothing that another message key of the chain sealed. -/
  opens_only : ∀ i j nonce plaintext opened, i ≤ steps → j ≤ steps →
    primitives.aeadOpen (messageKeyAt primitives chainKey i) nonce
      (primitives.aeadSeal (messageKeyAt primitives chainKey j) nonce plaintext) = some opened →
    messageKeyAt primitives chainKey i = messageKeyAt primitives chainKey j
  /-- Distinct steps have distinct message keys. -/
  distinct : ∀ i j, i ≤ steps → j ≤ steps →
    messageKeyAt primitives chainKey i = messageKeyAt primitives chainKey j → i = j

/-! ### The sender -/

section Sender

variable {primitives : Primitives Data} {signingKey chainKey last : Data}
  {sendings : List (Sending primitives)} {sent : List (EncryptedMessage Data)}

theorem encryptAll_cons_iff {sending : Sending primitives} :
    encryptAll primitives signingKey chainKey (sending :: sendings) = .ok (sent, last) ↔
      ∃ message next rest,
        encrypt primitives chainKey signingKey sending.keyId sending.plaintext sending.random =
          .ok (message, next) ∧
        encryptAll primitives signingKey next sendings = .ok (rest, last) ∧
        sent = message :: rest := by
  rw [encryptAll]
  cases encrypt primitives chainKey signingKey sending.keyId sending.plaintext sending.random with
  | error failure => simp [bind, Except.bind]
  | ok result =>
      obtain ⟨message, next⟩ := result
      cases others : encryptAll primitives signingKey next sendings with
      | error failure => simp [bind, Except.bind, others]
      | ok after =>
          obtain ⟨rest, final⟩ := after
          simp only [bind, Except.bind, others, pure, Except.pure, Except.ok.injEq, Prod.mk.injEq]
          constructor
          · rintro ⟨rfl, rfl⟩
            exact ⟨message, next, rest, ⟨rfl, rfl⟩, by rw [others], rfl⟩
          · rintro ⟨_, _, others', ⟨rfl, rfl⟩, encrypted, rfl⟩
            rw [others] at encrypted
            cases encrypted
            exact ⟨rfl, rfl⟩

/-- Every message was sealed under the message key of its step. -/
theorem sealed_of_encryptAll
    (encrypted : encryptAll primitives signingKey chainKey sendings = .ok (sent, last))
    {message : EncryptedMessage Data} (member : message ∈ sent) :
    ∃ step sending, sendings[step]? = some sending ∧
      Sealed primitives signingKey (messageKeyAt primitives chainKey step) sending.plaintext
        message := by
  induction sendings generalizing chainKey sent with
  | nil =>
      cases encrypted
      cases member
  | cons sending rest inductionHypothesis =>
      obtain ⟨first, next, others, encryptedFirst, encryptedRest, rfl⟩ :=
        encryptAll_cons_iff.mp encrypted
      obtain ⟨rfl, made⟩ := encrypt_ok encryptedFirst
      rcases List.mem_cons.mp member with rfl | later
      · exact ⟨0, sending, rfl, made⟩
      · obtain ⟨step, found, at_step, madeLater⟩ := inductionHypothesis encryptedRest later
        rw [messageKeyAt_ratchet] at madeLater
        exact ⟨step + 1, found, at_step, madeLater⟩

/-- The sender's chain key after the first encryptions. -/
theorem encryptAll_take
    (encrypted : encryptAll primitives signingKey chainKey sendings = .ok (sent, last))
    {count : Nat} (within : count ≤ sendings.length) :
    ∃ messages, encryptAll primitives signingKey chainKey (sendings.take count) =
      .ok (messages, chainKeyAt primitives chainKey count) := by
  induction count generalizing chainKey sendings sent with
  | zero => exact ⟨[], rfl⟩
  | succ count inductionHypothesis =>
      cases sendings with
      | nil => simp at within
      | cons sending rest =>
          obtain ⟨first, next, others, encryptedFirst, encryptedRest, -⟩ :=
            encryptAll_cons_iff.mp encrypted
          obtain ⟨messages, taken⟩ := inductionHypothesis encryptedRest (by simpa using within)
          obtain ⟨rfl, -⟩ := encrypt_ok encryptedFirst
          rw [chainKeyAt_ratchet] at taken
          exact ⟨first :: messages, encryptAll_cons_iff.mpr ⟨first, _, messages, encryptedFirst,
            taken, rfl⟩⟩

end Sender

/-! ### The receiver -/

section Receiver

variable {primitives : Primitives Data} {signingKey publicKey chainKey : Data} {steps : Nat}
  (assumed : Assumptions primitives signingKey publicKey chainKey steps)
include assumed

/-- What `Decrypt` does with a message that was sealed under some key: the
signature and all lengths are right, so it comes to the tag. -/
theorem decrypt_sealed {current messageKey plaintext : Data} {message : EncryptedMessage Data}
    (made : Sealed primitives signingKey messageKey plaintext message) :
    decrypt primitives current publicKey message =
      (primitives.aeadOpen (ratchet primitives current).2 message.nonce message.ciphertext).elim
        (.error (.error "decrypt: chacha20poly1305: message authentication failed"))
        fun opened => .ok (opened, (ratchet primitives current).1) := by
  obtain ⟨nonceSize, fits, ciphertext, signature⟩ := made
  have verified : primitives.verify publicKey message.ciphertext message.signature := by
    rw [signature]
    exact assumed.verifies message.ciphertext
  have keySize : primitives.size (ratchet primitives current).2 = 32 := assumed.hmac_size _ _
  have tagged : ¬1 <<< 38 - 48 < primitives.size message.ciphertext := by
    rw [ciphertext, assumed.seal_size]
    omega
  unfold decrypt
  dsimp only
  rw [if_neg (by simp [assumed.publicKey_size]), if_neg (by simp [verified]),
    if_neg (by simp [keySize]), if_neg (by simp [nonceSize]), if_neg tagged]
  cases primitives.aeadOpen (ratchet primitives current).2 message.nonce message.ciphertext with
  | none => rfl
  | some opened => rfl

/-- The message of the receiver's own step is accepted. -/
theorem receive_current {receiver : Receiver Data} {plaintext : Data}
    {message : EncryptedMessage Data}
    (made : Sealed primitives signingKey (ratchet primitives receiver.chainKey).2 plaintext
      message) :
    receive primitives publicKey receiver message =
      some ⟨(ratchet primitives receiver.chainKey).1, receiver.received ++ [plaintext]⟩ := by
  have opened : primitives.aeadOpen (ratchet primitives receiver.chainKey).2 message.nonce
      message.ciphertext = some plaintext := by
    rw [made.2.2.1]
    exact assumed.open_seal _ _ _ (assumed.hmac_size _ _) made.1
  rw [receive, decrypt_sealed assumed made, opened, Option.elim_some]

/-- The message of another step is refused. -/
theorem receive_other {receiver : Receiver Data} {plaintext : Data}
    {message : EncryptedMessage Data} {current step : Nat} (currentWithin : current ≤ steps)
    (stepWithin : step ≤ steps)
    (position : receiver.chainKey = chainKeyAt primitives chainKey current)
    (made : Sealed primitives signingKey (messageKeyAt primitives chainKey step) plaintext message)
    (other : current ≠ step) :
    receive primitives publicKey receiver message = some receiver := by
  have refused : primitives.aeadOpen (ratchet primitives receiver.chainKey).2 message.nonce
      message.ciphertext = none := by
    by_contra opens
    obtain ⟨opened, found⟩ := Option.ne_none_iff_exists'.mp opens
    rw [position, made.2.2.1] at found
    have sameKey := assumed.opens_only current step _ _ _ currentWithin stepWithin found
    exact other (assumed.distinct current step currentWithin stepWithin sameKey)
  rw [receive, decrypt_sealed assumed made, refused, Option.elim_none]

/-- Delivery of everything in order, from any position. -/
theorem run_receive_in_order {current last : Data} {sendings : List (Sending primitives)}
    {sent : List (EncryptedMessage Data)}
    (encrypted : encryptAll primitives signingKey current sendings = .ok (sent, last))
    (received : List Data) :
    run (receive primitives publicKey) ⟨current, received⟩ sent =
      some ⟨last, received ++ sendings.map Sending.plaintext⟩ := by
  induction sendings generalizing current sent received with
  | nil =>
      cases encrypted
      simp
  | cons sending rest inductionHypothesis =>
      obtain ⟨message, next, others, encryptedFirst, encryptedRest, rfl⟩ :=
        encryptAll_cons_iff.mp encrypted
      obtain ⟨rfl, made⟩ := encrypt_ok encryptedFirst
      have accepted : receive primitives publicKey ⟨current, received⟩ message =
          some ⟨(ratchet primitives current).1, received ++ [sending.plaintext]⟩ :=
        receive_current assumed made
      rw [run_cons_of_next accepted, inductionHypothesis encryptedRest]
      simp

end Receiver

/-- The receiver has obtained the first plaintexts and stands at the step after
them. -/
def InStep (primitives : Primitives Data) (chainKey : Data) (plaintexts : List Data)
    (receiver : Receiver Data) : Prop :=
  receiver.received <+: plaintexts ∧
    receiver.chainKey = chainKeyAt primitives chainKey receiver.received.length

/-- A prefix grows by the next element. -/
theorem prefix_concat {taken whole : List Data} {next : Data} (obtained : taken <+: whole)
    (found : whole[taken.length]? = some next) : taken ++ [next] <+: whole := by
  obtain ⟨rest, rfl⟩ := obtained
  cases rest with
  | nil => simp at found
  | cons head rest =>
      obtain rfl : head = next := by simpa using found
      exact ⟨rest, by simp⟩

section Channel

variable {primitives : Primitives Data} {signingKey publicKey chainKey last : Data}
  {sendings : List (Sending primitives)} {sent : List (EncryptedMessage Data)}
  (assumed : Assumptions primitives signingKey publicKey chainKey sendings.length)
  (encrypted : encryptAll primitives signingKey chainKey sendings = .ok (sent, last))
include assumed encrypted

/-- One delivery, in any state that is in step. -/
theorem receive_inStep {receiver : Receiver Data} {message : EncryptedMessage Data}
    (inStep : InStep primitives chainKey (sendings.map Sending.plaintext) receiver)
    (member : message ∈ sent) :
    ∃ after, receive primitives publicKey receiver message = some after ∧
      InStep primitives chainKey (sendings.map Sending.plaintext) after := by
  obtain ⟨obtained, position⟩ := inStep
  obtain ⟨step, sending, at_step, made⟩ := sealed_of_encryptAll encrypted member
  have currentWithin : receiver.received.length ≤ sendings.length := by
    simpa using obtained.length_le
  have stepWithin : step < sendings.length := (List.getElem?_eq_some_iff.mp at_step).1
  by_cases same : receiver.received.length = step
  · subst same
    have current : Sealed primitives signingKey (ratchet primitives receiver.chainKey).2
        sending.plaintext message := by
      rw [position]
      exact made
    have next : (sendings.map Sending.plaintext)[receiver.received.length]? =
        some sending.plaintext := by
      rw [List.getElem?_map, at_step]
      rfl
    refine ⟨_, receive_current assumed current, prefix_concat obtained next, ?_⟩
    rw [List.length_append, List.length_singleton, chainKeyAt_succ, position]
  · exact ⟨receiver, receive_other assumed currentWithin (Nat.le_of_lt stepWithin) position made
      same, obtained, position⟩

/-- Any deliveries of messages that were sent. -/
theorem run_receive_inStep {delivered : List (EncryptedMessage Data)}
    (copies : ∀ message ∈ delivered, message ∈ sent) {receiver : Receiver Data}
    (inStep : InStep primitives chainKey (sendings.map Sending.plaintext) receiver) :
    ∃ final, run (receive primitives publicKey) receiver delivered = some final ∧
      InStep primitives chainKey (sendings.map Sending.plaintext) final := by
  induction delivered generalizing receiver with
  | nil => exact ⟨receiver, rfl, inStep⟩
  | cons message rest inductionHypothesis =>
      obtain ⟨after, received, inStepAfter⟩ :=
        receive_inStep assumed encrypted inStep (copies message List.mem_cons_self)
      rw [run_cons_of_next received]
      exact inductionHypothesis (fun other member => copies other (List.mem_cons_of_mem _ member))
        inStepAfter

end Channel

/-- **Main result.** Whatever is dropped, repeated or reordered, the receiver
obtains a prefix of the plaintexts, and its chain key is the sender's after as
many encryptions. Delivery of everything in order yields all plaintexts. -/
theorem received_prefix_of_sent (primitives : Primitives Data)
    (signingKey publicKey chainKey last : Data) (sendings : List (Sending primitives))
    (sent : List (EncryptedMessage Data))
    (assumed : Assumptions primitives signingKey publicKey chainKey sendings.length)
    (encrypted : encryptAll primitives signingKey chainKey sendings = .ok (sent, last)) :
    (∀ delivered : List (EncryptedMessage Data), (∀ message ∈ delivered, message ∈ sent) →
      ∃ final, run (receive primitives publicKey) ⟨chainKey, []⟩ delivered = some final ∧
        final.received <+: sendings.map Sending.plaintext ∧
        ∃ sentSoFar, encryptAll primitives signingKey chainKey
          (sendings.take final.received.length) = .ok (sentSoFar, final.chainKey)) ∧
    run (receive primitives publicKey) ⟨chainKey, []⟩ sent =
      some ⟨last, sendings.map Sending.plaintext⟩ := by
  constructor
  · intro delivered copies
    have start : InStep primitives chainKey (sendings.map Sending.plaintext) ⟨chainKey, []⟩ :=
      ⟨List.nil_prefix, rfl⟩
    obtain ⟨final, ran, obtained, position⟩ := run_receive_inStep assumed encrypted copies start
    have within : final.received.length ≤ sendings.length := by
      simpa using obtained.length_le
    obtain ⟨sentSoFar, taken⟩ := encryptAll_take encrypted within
    rw [← position] at taken
    exact ⟨final, ran, obtained, sentSoFar, taken⟩
  · exact run_receive_in_order assumed encrypted []

/-! Two messages, under primitives that tag a ciphertext with its key. -/

def sampleTag (key : Bytes) : Bytes := (key ++ List.replicate 16 0).take 16

/-- A chain key counts its steps in the first byte. -/
def samplePrimitives : Primitives Bytes where
  size := List.length
  text := utf8
  hmac key data :=
    if data = utf8 "ratchet" then (key.headD 0 + 1) :: List.replicate 31 0
    else key.headD 0 :: List.replicate 31 1
  aeadSeal key _ plaintext := sampleTag key ++ plaintext
  aeadOpen key _ ciphertext :=
    if ciphertext.take 16 = sampleTag key then some (ciphertext.drop 16) else none
  sign _ message := message
  verify _ message signature := message = signature

def sampleChainKey : Bytes := List.replicate 32 0

def sampleSigningKey : Bytes := List.replicate 64 7

def samplePublicKey : Bytes := List.replicate 32 7

def sampleSendings : List (Sending samplePrimitives) :=
  [⟨1, [10], .ok ⟨List.replicate 12 3, rfl⟩⟩, ⟨1, [20], .ok ⟨List.replicate 12 4, rfl⟩⟩]

theorem sampleTag_length (key : Bytes) : (sampleTag key).length = 16 := by
  simp [sampleTag]

theorem sample_open_seal (key sealing nonce plaintext : Bytes) :
    samplePrimitives.aeadOpen key nonce (samplePrimitives.aeadSeal sealing nonce plaintext) =
      if sampleTag sealing = sampleTag key then some plaintext else none := by
  have taken : (sampleTag sealing ++ plaintext).take 16 = sampleTag sealing :=
    List.take_left' (sampleTag_length sealing)
  have dropped : (sampleTag sealing ++ plaintext).drop 16 = plaintext :=
    List.drop_left' (sampleTag_length sealing)
  simp only [samplePrimitives, taken, dropped]

theorem sample_assumptions :
    Assumptions samplePrimitives sampleSigningKey samplePublicKey sampleChainKey 2 where
  publicKey_size := rfl
  verifies message := decide_eq_true rfl
  hmac_size key data := by
    simp only [samplePrimitives]
    split <;> simp
  seal_size key nonce plaintext := by
    simp only [samplePrimitives, List.length_append, sampleTag_length]
    omega
  open_seal key nonce plaintext _ _ := by
    rw [sample_open_seal, if_pos rfl]
  opens_only := by
    have keys : ∀ i ≤ 2, ∀ j ≤ 2,
        sampleTag (messageKeyAt samplePrimitives sampleChainKey j) =
          sampleTag (messageKeyAt samplePrimitives sampleChainKey i) →
        messageKeyAt samplePrimitives sampleChainKey i =
          messageKeyAt samplePrimitives sampleChainKey j := by
      decide +kernel
    intro i j nonce plaintext opened iWithin jWithin opens
    rw [sample_open_seal] at opens
    split at opens
    · next sameTag => exact keys i iWithin j jWithin sameTag
    · cases opens
  distinct := by
    have keys : ∀ i ≤ 2, ∀ j ≤ 2, messageKeyAt samplePrimitives sampleChainKey i =
        messageKeyAt samplePrimitives sampleChainKey j → i = j := by
      decide +kernel
    exact fun i j iWithin jWithin => keys i iWithin j jWithin

theorem received_prefix_of_sent_two_messages :
    ∃ sent last,
      encryptAll samplePrimitives sampleSigningKey sampleChainKey sampleSendings =
        .ok (sent, last) ∧
      (∀ delivered : List (EncryptedMessage Bytes), (∀ message ∈ delivered, message ∈ sent) →
        ∃ final, run (receive samplePrimitives samplePublicKey) ⟨sampleChainKey, []⟩ delivered =
          some final ∧ final.received <+: [[10], [20]] ∧
          ∃ sentSoFar, encryptAll samplePrimitives sampleSigningKey sampleChainKey
            (sampleSendings.take final.received.length) = .ok (sentSoFar, final.chainKey)) ∧
      run (receive samplePrimitives samplePublicKey) ⟨sampleChainKey, []⟩ sent =
        some ⟨last, [[10], [20]]⟩ := by
  obtain ⟨⟨sent, last⟩, encrypted⟩ : ∃ result,
      encryptAll samplePrimitives sampleSigningKey sampleChainKey sampleSendings = .ok result :=
    ⟨_, rfl⟩
  exact ⟨sent, last, encrypted, received_prefix_of_sent samplePrimitives sampleSigningKey
    samplePublicKey sampleChainKey last sampleSendings sent sample_assumptions encrypted⟩

end FProto.SenderKeys

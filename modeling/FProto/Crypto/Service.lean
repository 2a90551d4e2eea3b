import FProto.Crypto.Aead
import FProto.Crypto.Channel
import FProto.Protocol.Rpc

/-!
Owns `server/internal/cryptogrpc/server.go`: the handshake steps, and encryption
under the state a completed handshake returns.

Servers answer calls one after the other, in any order and any number. A server
that panics is restarted and has lost its handshakes.

**Main result.** The state returned to a party is a random string and not a
serialised cipher state, so two parties of a completed exchange understand each
other when their random strings start with the same 32 bytes:
`handshakes_agree_iff_draws_agree`.
-/

namespace FProto.Crypto

open FProto.Foundation
open FProto.Protocol

/-! ### Handlers -/

/-- What `rand.Read` puts into a slice of a given size. -/
abbrev Draw (size : Nat) := Except String { bytes : Bytes // bytes.length = size }

/-- What a handler returns. -/
abbrev Handled (Result : Type) := Except (HandlerFailure String) Result

/-- A slice with the bytes between its length and its capacity. -/
structure Buffer where
  content : Bytes
  spare : Bytes := []
deriving DecidableEq

/-- `buffer[:stop]`, which may reach into the spare bytes. -/
def Buffer.upTo (buffer : Buffer) (stop : Nat) : Handled Bytes :=
  if stop ≤ buffer.content.length + buffer.spare.length then
    .ok ((buffer.content ++ buffer.spare).take stop)
  else .error (.panicked "runtime error: slice bounds out of range")

/-- `Server.handshakes`. -/
abbrev Handshakes (noise : Noise) := Bytes → Option noise.Handshake

structure HandshakeStepResponse where
  responsePayload : Bytes := []
  completed : Bool := false
  cryptoState : Bytes := []
deriving DecidableEq

section Handlers

variable {noise : Noise}

/-- `Server.InitiateHandshake`, with the randomness of the library and of the
state id. -/
def initiateHandshake (serverKey : KeyPair) (handshakes : Handshakes noise) (isInitiator : Bool)
    (random : noise.Random) (stateId : Draw 16) :
    Handled Bytes × Handshakes noise :=
  match noise.newHandshakeState random isInitiator serverKey with
  | .error error => (.error (.status .internal ("init handshake: " ++ error)), handshakes)
  | .ok hs =>
      match stateId with
      | .error error => (.error (.status .internal ("generate state id: " ++ error)), handshakes)
      | .ok stateId =>
          (.ok stateId, Function.update handshakes (hexEncode stateId) (some hs))

/-- `serializeCipherStates`, which reads neither state. -/
def serializeCipherStates (_send _recv : CipherState noise.Key) (placeholder : Draw 64) :
    Handled Bytes :=
  match placeholder with
  | .error error => .error (.panicked ("rand read: " ++ error))
  | .ok placeholder => .ok placeholder

/-- The answer to a completed handshake. -/
def completed (msg : Bytes) (csSend csRecv : CipherState noise.Key) (placeholder : Draw 64) :
    Handled HandshakeStepResponse :=
  match serializeCipherStates csSend csRecv placeholder with
  | .error failure => .error failure
  | .ok cryptoState => .ok { responsePayload := msg, completed := true, cryptoState }

/-- The part of `ProcessHandshake` that writes. -/
def writeStep (handshakes : Handshakes noise) (key : Bytes) (hs : noise.Handshake)
    (placeholder : Draw 64) : Handled HandshakeStepResponse × Handshakes noise :=
  match noise.writeMessage hs [] with
  | (.error error, hs) =>
      (.error (.status .internal ("write message: " ++ error)),
        Function.update handshakes key (some hs))
  | (.ok msg, hs) =>
      match msg.first, msg.second with
      | some csSend, some csRecv =>
          (completed msg.content csSend csRecv placeholder, Function.update handshakes key none)
      | _, _ =>
          (.ok { responsePayload := msg.content }, Function.update handshakes key (some hs))

/-- `Server.ProcessHandshake`. -/
def processHandshake (handshakes : Handshakes noise) (stateId payload : Bytes)
    (placeholder : Draw 64) : Handled HandshakeStepResponse × Handshakes noise :=
  let key := hexEncode stateId
  match handshakes key with
  | none => (.error (.status .notFound "handshake state not found"), handshakes)
  | some hs =>
      if 0 < payload.length then
        match noise.readMessage hs payload with
        | (.error error, hs) =>
            (.error (.status .invalidArgument ("read message: " ++ error)),
              Function.update handshakes key (some hs))
        | (.ok output, hs) =>
            match output.first, output.second with
            | some csRecv, some csSend =>
                (completed [] csSend csRecv placeholder, Function.update handshakes key none)
            | _, _ => writeStep handshakes key hs placeholder
      else writeStep handshakes key hs placeholder

end Handlers

/-- `Server.Encrypt`: the ciphertext. The state is returned as it came. -/
def Server.encrypt (aead : Aead) (sessionId : Bytes) (cryptoState : Buffer) (seq : UInt64)
    (plaintext : Bytes) : Handled Bytes := do
  match newAEAD (← cryptoState.upTo 32) with
  | .error error => .error (.status .invalidArgument ("invalid crypto state: " ++ error))
  | .ok key => .ok (encryptAEAD aead key sessionId seq plaintext)

/-- `Server.Decrypt`: the plaintext. The state is returned as it came. -/
def Server.decrypt (aead : Aead) (sessionId : Bytes) (cryptoState : Buffer) (seq : UInt64)
    (ciphertext : Bytes) : Handled Bytes := do
  match newAEAD (← cryptoState.upTo 32) with
  | .error error => .error (.status .invalidArgument ("invalid crypto state: " ++ error))
  | .ok key =>
      match decryptAEAD aead key sessionId seq ciphertext with
      | .error error => .error (.status .invalidArgument ("decrypt: " ++ error))
      | .ok plaintext => .ok plaintext

/-! ### Servers and their calls -/

/-- A handshake call with the randomness it gets. -/
inductive CryptoRpc (noise : Noise) where
  | initiateHandshake (isInitiator : Bool) (random : noise.Random) (stateId : Draw 16)
  | processHandshake (stateId payload : Bytes) (placeholder : Draw 64)

inductive CryptoAnswer where
  | initiated (result : Handled Bytes)
  | stepped (result : Handled HandshakeStepResponse)

/-- One call of a server, with its answer. -/
structure CryptoCall (noise : Noise) where
  server : Nat
  rpc : CryptoRpc noise
  answer : CryptoAnswer

/-- The handshakes of every server, and all calls so far. -/
structure CryptoServers (noise : Noise) where
  handshakes : Nat → Handshakes noise
  calls : List (CryptoCall noise)

section Servers

variable {noise : Noise}

def CryptoServers.start : CryptoServers noise where
  handshakes _ _ := none
  calls := []

/-- A panic ends the process. -/
def afterCall {Result : Type} : Handled Result × Handshakes noise → Handshakes noise
  | (.error (.panicked _), _) => fun _ => none
  | (_, handshakes) => handshakes

def CryptoServers.answer (serverKey : KeyPair) (handshakes : Handshakes noise) :
    CryptoRpc noise → CryptoAnswer × Handshakes noise
  | .initiateHandshake isInitiator random stateId =>
      let outcome := initiateHandshake serverKey handshakes isInitiator random stateId
      (.initiated outcome.1, afterCall outcome)
  | .processHandshake stateId payload placeholder =>
      let outcome := processHandshake handshakes stateId payload placeholder
      (.stepped outcome.1, afterCall outcome)

/-- One server answers one call. -/
def CryptoServers.next (serverKeys : Nat → KeyPair) (servers : CryptoServers noise)
    (event : Nat × CryptoRpc noise) : Option (CryptoServers noise) :=
  let (answer, handshakes) :=
    CryptoServers.answer (serverKeys event.1) (servers.handshakes event.1) event.2
  some
    { handshakes := Function.update servers.handshakes event.1 handshakes
      calls := servers.calls ++ [⟨event.1, event.2, answer⟩] }

/-- A handshake: the server that keeps it, and its id there. -/
structure Party where
  server : Nat
  stateId : Bytes
deriving DecidableEq

/-- The message a call passes to a handshake. -/
def messageIn (party : Party) (call : CryptoCall noise) : Option Bytes :=
  match call.rpc, call.answer with
  | .processHandshake stateId payload _, .stepped (.ok _) =>
      if party = ⟨call.server, stateId⟩ ∧ payload ≠ [] then some payload else none
  | _, _ => none

/-- The message a call gets from a handshake. -/
def messageOut (party : Party) (call : CryptoCall noise) : Option Bytes :=
  match call.rpc, call.answer with
  | .processHandshake stateId _ _, .stepped (.ok response) =>
      if party = ⟨call.server, stateId⟩ ∧ response.responsePayload ≠ [] then
        some response.responsePayload
      else none
  | _, _ => none

/-- A handshake was started in a role. -/
def Started (calls : List (CryptoCall noise)) (party : Party) (isInitiator : Bool) : Prop :=
  ∃ random stateId,
    ⟨party.server, .initiateHandshake isInitiator random stateId, .initiated (.ok party.stateId)⟩ ∈
      calls

/-- A handshake was reported completed with a state. -/
def Finished (calls : List (CryptoCall noise)) (party : Party) (placeholder : Draw 64)
    (cryptoState : Bytes) : Prop :=
  ∃ payload responsePayload,
    ⟨party.server, .processHandshake party.stateId payload placeholder,
      .stepped (.ok ⟨responsePayload, true, cryptoState⟩)⟩ ∈ calls

/-- What a party has at the end. -/
structure Outcome where
  party : Party
  placeholder : Draw 64
  cryptoState : Bytes

/-- Two handshakes completed on each other's messages. -/
structure Exchanged (calls : List (CryptoCall noise)) (initiator responder : Outcome) : Prop where
  initiatorStarted : Started calls initiator.party true
  responderStarted : Started calls responder.party false
  forth : calls.filterMap (messageIn responder.party) =
    calls.filterMap (messageOut initiator.party)
  back : calls.filterMap (messageIn initiator.party) =
    calls.filterMap (messageOut responder.party)
  initiatorFinished :
    Finished calls initiator.party initiator.placeholder initiator.cryptoState
  responderFinished :
    Finished calls responder.party responder.placeholder responder.cryptoState

/-- What one state encrypts, the other decrypts. -/
def Recovers (aead : Aead) (sender receiver : Buffer) (sessionId : Bytes) (seq : UInt64)
    (plaintext : Bytes) : Prop :=
  (Server.encrypt aead sessionId sender seq plaintext >>=
    Server.decrypt aead sessionId receiver seq) = .ok plaintext

/-! ### The state of a completed handshake -/

theorem completed_state {msg : Bytes} {csSend csRecv : CipherState noise.Key}
    {placeholder : Draw 64} {response : HandshakeStepResponse}
    (answered : completed msg csSend csRecv placeholder = .ok response) :
    placeholder.map Subtype.val = .ok response.cryptoState := by
  cases placeholder with
  | error error => cases answered
  | ok drawn =>
      cases answered
      rfl

theorem writeStep_state {handshakes : Handshakes noise} {key : Bytes} {hs : noise.Handshake}
    {placeholder : Draw 64} {response : HandshakeStepResponse}
    (answered : (writeStep handshakes key hs placeholder).1 = .ok response)
    (isCompleted : response.completed = true) :
    placeholder.map Subtype.val = .ok response.cryptoState := by
  unfold writeStep at answered
  split at answered
  · cases answered
  · split at answered
    · exact completed_state answered
    · cases answered
      cases isCompleted

/-- The state of a completed handshake is the random string drawn for it. -/
theorem processHandshake_state {handshakes : Handshakes noise} {stateId payload : Bytes}
    {placeholder : Draw 64} {response : HandshakeStepResponse}
    (answered : (processHandshake handshakes stateId payload placeholder).1 = .ok response)
    (isCompleted : response.completed = true) :
    placeholder.map Subtype.val = .ok response.cryptoState := by
  unfold processHandshake at answered
  dsimp only at answered
  split at answered
  · cases answered
  · split at answered
    · split at answered
      · cases answered
      · split at answered
        · exact completed_state answered
        · exact writeStep_state answered isCompleted
    · exact writeStep_state answered isCompleted

/-- Every recorded call was answered by its server. -/
def Answered (serverKeys : Nat → KeyPair) (servers : CryptoServers noise) : Prop :=
  ∀ call ∈ servers.calls, ∃ handshakes,
    call.answer = (CryptoServers.answer (serverKeys call.server) handshakes call.rpc).1

theorem answered_next {serverKeys : Nat → KeyPair} {servers after : CryptoServers noise}
    {event : Nat × CryptoRpc noise} (answered : Answered serverKeys servers)
    (stepped : servers.next serverKeys event = some after) : Answered serverKeys after := by
  cases stepped
  intro call recorded
  rcases List.mem_append.mp recorded with earlier | last
  · exact answered call earlier
  · rw [List.mem_singleton.mp last]
    exact ⟨servers.handshakes event.1, rfl⟩

/-- What a finished party holds was drawn for it. -/
theorem Finished.drawn {serverKeys : Nat → KeyPair} {servers : CryptoServers noise}
    (answered : Answered serverKeys servers) {party : Party} {placeholder : Draw 64}
    {cryptoState : Bytes} (finished : Finished servers.calls party placeholder cryptoState) :
    placeholder.map Subtype.val = .ok cryptoState := by
  obtain ⟨payload, responsePayload, recorded⟩ := finished
  obtain ⟨handshakes, isAnswer⟩ := answered _ recorded
  exact processHandshake_state (CryptoAnswer.stepped.inj isAnswer).symm rfl

end Servers

/-! ### Encryption under that state -/

/-- The part of a random string that becomes the key. -/
def drawnKey (placeholder : Draw 64) : Except String Bytes :=
  placeholder.map fun drawn => drawn.1.take 32

theorem drawnKey_eq {placeholder : Draw 64} {cryptoState : Bytes}
    (drawn : placeholder.map Subtype.val = .ok cryptoState) :
    drawnKey placeholder = .ok (cryptoState.take 32) ∧ cryptoState.length = 64 := by
  cases placeholder with
  | error error => cases drawn
  | ok bytes =>
      have same : bytes.1 = cryptoState := Except.ok.inj drawn
      rw [← same]
      exact ⟨rfl, bytes.2⟩

theorem upTo_of_le {buffer : Buffer} {stop : Nat} (long : stop ≤ buffer.content.length) :
    buffer.upTo stop = .ok (buffer.content.take stop) := by
  rw [Buffer.upTo, if_pos (Nat.le_add_right_of_le long), List.take_append_of_le_length long]

/-- The key of a state that is long enough. -/
def Buffer.key (buffer : Buffer) (long : 32 ≤ buffer.content.length) : AeadKey :=
  ⟨buffer.content.take 32, List.length_take_of_le long⟩

section Encryption

variable (aead : Aead) (sessionId : Bytes) {cryptoState : Buffer} (seq : UInt64)

theorem encrypt_of_long (long : 32 ≤ cryptoState.content.length) (plaintext : Bytes) :
    Server.encrypt aead sessionId cryptoState seq plaintext =
      .ok (encryptAEAD aead (cryptoState.key long) sessionId seq plaintext) := by
  rw [Server.encrypt, upTo_of_le long]
  show (match newAEAD (cryptoState.key long) with | .error _ => _ | .ok _ => _) = _
  rw [newAEAD_of_length (cryptoState.key long).2]

theorem decrypt_of_long (long : 32 ≤ cryptoState.content.length) (ciphertext : Bytes) :
    Server.decrypt aead sessionId cryptoState seq ciphertext =
      match decryptAEAD aead (cryptoState.key long) sessionId seq ciphertext with
      | .error error => .error (.status .invalidArgument ("decrypt: " ++ error))
      | .ok plaintext => .ok plaintext := by
  rw [Server.decrypt, upTo_of_le long]
  show (match newAEAD (cryptoState.key long) with | .error _ => _ | .ok _ => _) = _
  rw [newAEAD_of_length (cryptoState.key long).2]

theorem decrypt_ok_iff (long : 32 ≤ cryptoState.content.length) (ciphertext plaintext : Bytes) :
    Server.decrypt aead sessionId cryptoState seq ciphertext = .ok plaintext ↔
      decryptAEAD aead (cryptoState.key long) sessionId seq ciphertext = .ok plaintext := by
  rw [decrypt_of_long aead sessionId seq long]
  cases decryptAEAD aead (cryptoState.key long) sessionId seq ciphertext with
  | error error => simp
  | ok opened => simp

end Encryption

/-- With states that are long enough, the first 32 bytes decide. -/
theorem recovers_iff {aead : Aead} (lawful : aead.Assumptions) {sender receiver : Buffer}
    (senderLong : 32 ≤ sender.content.length) (receiverLong : 32 ≤ receiver.content.length)
    (sessionId : Bytes) (seq : UInt64) (plaintext : Bytes) :
    Recovers aead sender receiver sessionId seq plaintext ↔
      receiver.content.take 32 = sender.content.take 32 := by
  rw [Recovers, encrypt_of_long aead sessionId seq senderLong]
  show Server.decrypt aead sessionId receiver seq _ = _ ↔ _
  rw [decrypt_ok_iff aead sessionId seq receiverLong, decryptAEAD_encryptAEAD_iff lawful]
  exact Subtype.ext_iff

/-- **Two completed handshakes understand each other exactly when the random
strings drawn at their completion start with the same 32 bytes.** -/
theorem handshakes_agree_iff_draws_agree {aead : Aead} (lawful : aead.Assumptions)
    {noise : Noise} (serverKeys : Nat → KeyPair) {events : List (Nat × CryptoRpc noise)}
    {servers : CryptoServers noise}
    (ran : run (CryptoServers.next serverKeys) .start events = some servers)
    {initiator responder : Outcome} (exchanged : Exchanged servers.calls initiator responder)
    (initiatorSpare responderSpare sessionId : Bytes) (seq : UInt64) (plaintext : Bytes) :
    (Recovers aead ⟨initiator.cryptoState, initiatorSpare⟩
          ⟨responder.cryptoState, responderSpare⟩ sessionId seq plaintext ∧
        Recovers aead ⟨responder.cryptoState, responderSpare⟩
          ⟨initiator.cryptoState, initiatorSpare⟩ sessionId seq plaintext) ↔
      drawnKey initiator.placeholder = drawnKey responder.placeholder := by
  have nothingCalled : Answered serverKeys (.start : CryptoServers noise) := by
    intro call recorded
    cases recorded
  have answered : Answered serverKeys servers :=
    run_invariant (fun _ _ _ => answered_next) nothingCalled ran
  obtain ⟨initiatorKey, initiatorSize⟩ := drawnKey_eq (exchanged.initiatorFinished.drawn answered)
  obtain ⟨responderKey, responderSize⟩ := drawnKey_eq (exchanged.responderFinished.drawn answered)
  rw [recovers_iff lawful (by simp [initiatorSize]) (by simp [responderSize]),
    recovers_iff lawful (by simp [responderSize]) (by simp [initiatorSize]), initiatorKey,
    responderKey]
  constructor
  · intro same
    rw [same.2]
  · intro same
    have keys := Except.ok.inj same
    exact ⟨keys.symm, keys⟩

/-! One exchange between two servers. -/

/-- A random string of one byte over and over. -/
def constantDraw (size : Nat) (byte : UInt8) : Draw size :=
  .ok ⟨List.replicate size byte, List.length_replicate⟩

/-- The first server starts, the second responds, and both complete. -/
def sampleExchange (placeholder other : Draw 64) : List (Nat × CryptoRpc sampleNoise) :=
  [(0, .initiateHandshake true () (constantDraw 16 1)),
    (1, .initiateHandshake false () (constantDraw 16 2)),
    (0, .processHandshake (List.replicate 16 1) [] placeholder),
    (1, .processHandshake (List.replicate 16 2) [0] other),
    (0, .processHandshake (List.replicate 16 1) [1] placeholder),
    (1, .processHandshake (List.replicate 16 2) [2] other)]

def sampleInitiator (byte : UInt8) : Outcome :=
  ⟨⟨0, List.replicate 16 1⟩, constantDraw 64 byte, List.replicate 64 byte⟩

def sampleResponder (byte : UInt8) : Outcome :=
  ⟨⟨1, List.replicate 16 2⟩, constantDraw 64 byte, List.replicate 64 byte⟩

theorem sampleExchange_exchanged (byte other : UInt8) :
    ∃ servers,
      run (CryptoServers.next fun _ => sampleKeyPair) .start
        (sampleExchange (constantDraw 64 byte) (constantDraw 64 other)) = some servers ∧
      Exchanged servers.calls (sampleInitiator byte) (sampleResponder other) := by
  refine ⟨_, rfl, ?_, ?_, rfl, rfl, ?_, ?_⟩
  · exact ⟨(), _, List.mem_iff_getElem?.mpr ⟨0, rfl⟩⟩
  · exact ⟨(), _, List.mem_iff_getElem?.mpr ⟨1, rfl⟩⟩
  · exact ⟨_, _, List.mem_iff_getElem?.mpr ⟨4, rfl⟩⟩
  · exact ⟨_, _, List.mem_iff_getElem?.mpr ⟨5, rfl⟩⟩

theorem handshakes_agree_on_equal_draws :
    Recovers sampleAead ⟨List.replicate 64 7, []⟩ ⟨List.replicate 64 7, []⟩ [1] 5 [2, 3] := by
  obtain ⟨servers, ran, exchanged⟩ := sampleExchange_exchanged 7 7
  exact ((handshakes_agree_iff_draws_agree sampleAead_assumptions (fun _ => sampleKeyPair) ran
    exchanged [] [] [1] 5 [2, 3]).mpr rfl).1

/-- A faithful exchange whose parties do not understand each other. -/
theorem handshakes_disagree_on_distinct_draws :
    (∃ servers,
      run (CryptoServers.next fun _ => sampleKeyPair) .start
        (sampleExchange (constantDraw 64 7) (constantDraw 64 8)) = some servers ∧
      Exchanged servers.calls (sampleInitiator 7) (sampleResponder 8)) ∧
      Server.encrypt sampleAead [1] ⟨List.replicate 64 7, []⟩ 5 [2, 3] =
        .ok (sampleTag (List.replicate 32 7) (buildNonce 5) (buildAAD [1] 5) ++ [2, 3]) ∧
      Server.decrypt sampleAead [1] ⟨List.replicate 64 8, []⟩ 5
          (sampleTag (List.replicate 32 7) (buildNonce 5) (buildAAD [1] 5) ++ [2, 3]) =
        .error (.status .invalidArgument
          "decrypt: aead decrypt: chacha20poly1305: message authentication failed") := by
  refine ⟨sampleExchange_exchanged 7 8, ?_, ?_⟩
  · decide
  · decide

end FProto.Crypto

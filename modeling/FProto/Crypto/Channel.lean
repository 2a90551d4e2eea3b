import FProto.Crypto.Noise
import Mathlib.Logic.Function.Basic

/-!
Owns the encrypted channel between a client and a server that completed a
handshake with each other: both directions, with calls of `Encrypt` and
`Decrypt` in any order.

The client takes the pair of cipher states from `WriteMessage` and the server
from `ReadMessage`, in different positions. What they hold afterwards is one key
for each direction, and the four counters count messages.

**Main result.** Every ciphertext that is delivered in order decrypts to its
plaintext, and none decrypts on the side that produced it:
`channel_delivers_in_order`.
-/

namespace FProto.Crypto

open FProto.Foundation

/-! ### Handshakes that complete with each other -/

/-- The peer and the connection decide what a call returns. -/
def connExec : (command : ConnCommand) → Except String Bytes → Unit →
    Option (ConnReply command × Unit)
  | .read, choice, _ => some (choice, ())
  | .write _, choice, _ => some (choice.map fun _ => (), ())

abbrev ConnLog := List (Executed ConnCommand ConnReply)

/-- The messages a handshake read. -/
def received : ConnLog → List Bytes
  | ⟨.read, .ok message⟩ :: log => message :: received log
  | _ :: log => received log
  | [] => []

/-- The messages a handshake wrote. -/
def written : ConnLog → List Bytes
  | ⟨.write message, .ok _⟩ :: log => message :: written log
  | _ :: log => written log
  | [] => []

/-- Both handshakes return a session, and each reads what the other wrote. -/
def CompleteWith (package : Package) (noise : Noise) (client server : NoiseSession noise) : Prop :=
  ∃ clientRandom clientKey serverRandom serverKey clientLog serverLog,
    Executes connExec (clientHandshake package noise clientRandom clientKey) () clientLog
      (.ok client) () ∧
    Executes connExec (serverHandshake noise serverRandom serverKey) () serverLog
      (.ok server) () ∧
    received serverLog = written clientLog ∧ received clientLog = written serverLog

/-- The three messages of the pattern XX, as the library processes them at both
ends, and what it returns with the last one. -/
inductive Noise.Completes (noise : Noise) :
    HandshakeOutput noise.Key → HandshakeOutput noise.Key → Prop
  | intro {initiatorRandom responderRandom : noise.Random} {initiatorKey responderKey : KeyPair}
      {initiator₀ initiator₁ initiator₂ initiator₃ : noise.Handshake}
      {responder₀ responder₁ responder₂ responder₃ : noise.Handshake}
      {init response finish initRead responseRead finishRead : HandshakeOutput noise.Key}
      (newInitiator : noise.newHandshakeState initiatorRandom true initiatorKey = .ok initiator₀)
      (newResponder : noise.newHandshakeState responderRandom false responderKey = .ok responder₀)
      (writeInit : noise.writeMessage initiator₀ [] = (.ok init, initiator₁))
      (readInit : noise.readMessage responder₀ init.content = (.ok initRead, responder₁))
      (writeResponse : noise.writeMessage responder₁ [] = (.ok response, responder₂))
      (readResponse : noise.readMessage initiator₁ response.content =
        (.ok responseRead, initiator₂))
      (writeFinish : noise.writeMessage initiator₂ [] = (.ok finish, initiator₃))
      (readFinish : noise.readMessage responder₂ finish.content = (.ok finishRead, responder₃)) :
      Noise.Completes noise finish finishRead

/-- What is assumed of the library. -/
structure Noise.Assumptions (noise : Noise) : Prop where
  /-- Both ends of a completed handshake get the same ordered pair of fresh cipher
  states: from the initiator to the responder, and back. -/
  pair : ∀ initiator responder, noise.Completes initiator responder →
    ∃ forth back, forth ≠ back ∧
      initiator.first = some ⟨forth, 0⟩ ∧ initiator.second = some ⟨back, 0⟩ ∧
      responder.first = some ⟨forth, 0⟩ ∧ responder.second = some ⟨back, 0⟩
  /-- A ciphertext opens with the key and counter that sealed it. -/
  opens : ∀ key counter plaintext,
    noise.openWith key counter (noise.sealWith key counter plaintext) = .ok plaintext
  /-- It opens with no other. -/
  opensOnly : ∀ key counter plaintext other position,
    ¬(other = key ∧ position = counter) →
    ∃ error, noise.openWith other position (noise.sealWith key counter plaintext) = .error error

section Handshakes

variable {noise : Noise} {random : noise.Random} {key : KeyPair} {log : ConnLog}
  {session : NoiseSession noise}

/-- A call that goes on had no error. -/
theorem orFail_ok {Value Result : Type} {package : Package} {label : String}
    {result : Except String Value} {rest : Value → ConnCode (Except String Result)} {value : Result}
    (executes : Executes connExec (package.orFail label result rest) () log (.ok value) ()) :
    ∃ found, result = .ok found ∧ Executes connExec (rest found) () log (.ok value) () := by
  cases result with
  | error error => cases executes
  | ok found => exact ⟨found, rfl, executes⟩

section Calls

variable {Result : Type} {package : Package} {label : String} {value : Result}

theorem read_ok {rest : Bytes → ConnCode (Except String Result)}
    (executes : Executes connExec (Conn.read >>= fun found => package.orFail label found rest) ()
      log (.ok value) ()) :
    ∃ message later, log = ⟨.read, .ok message⟩ :: later ∧
      Executes connExec (rest message) () later (.ok value) () := by
  obtain ⟨found, _, early, later, split, reading, continued⟩ := executes.bind_inv
  obtain ⟨isEarly, -⟩ := reading.issue_inv
  obtain ⟨message, isOk, following⟩ := orFail_ok continued
  refine ⟨message, later, ?_, following⟩
  rw [split, isEarly, isOk, List.singleton_append]

theorem write_ok {message : Bytes} {rest : Unit → ConnCode (Except String Result)}
    (executes : Executes connExec
      (Conn.write message >>= fun sent => package.orFail label sent rest) () log (.ok value) ()) :
    ∃ later, log = ⟨.write message, .ok ()⟩ :: later ∧
      Executes connExec (rest ()) () later (.ok value) () := by
  obtain ⟨sent, _, early, later, split, writing, continued⟩ := executes.bind_inv
  obtain ⟨isEarly, -⟩ := writing.issue_inv
  obtain ⟨_, isOk, following⟩ := orFail_ok continued
  refine ⟨later, ?_, following⟩
  rw [split, isEarly, isOk, List.singleton_append]

end Calls

/-- What a client did to get its session. -/
theorem clientHandshake_ok {package : Package}
    (executes : Executes connExec (clientHandshake package noise random key) () log
      (.ok session) ()) :
    ∃ hs₀ hs₁ hs₂ hs₃ init response responseRead finish,
      noise.newHandshakeState random true key = .ok hs₀ ∧
      noise.writeMessage hs₀ [] = (.ok init, hs₁) ∧
      noise.readMessage hs₁ response = (.ok responseRead, hs₂) ∧
      noise.writeMessage hs₂ [] = (.ok finish, hs₃) ∧
      finish.first = some session.send ∧ finish.second = some session.recv ∧
      written log = [init.content, finish.content] ∧ received log = [response] := by
  unfold clientHandshake at executes
  obtain ⟨hs₀, created, executes⟩ := orFail_ok executes
  obtain ⟨init, writeInit, executes⟩ := orFail_ok executes
  obtain ⟨later, logged, executes⟩ := write_ok executes
  obtain ⟨response, later, loggedRead, executes⟩ := read_ok executes
  obtain ⟨responseRead, readResponse, executes⟩ := orFail_ok executes
  obtain ⟨finish, writeFinish, executes⟩ := orFail_ok executes
  obtain ⟨later, loggedLast, executes⟩ := write_ok executes
  refine ⟨hs₀, _, _, _, init, response, responseRead, finish, created,
    Prod.ext writeInit rfl, Prod.ext readResponse rfl, Prod.ext writeFinish rfl, ?_⟩
  split at executes
  · next csSend csRecv first second =>
    cases executes
    rw [logged, loggedRead, loggedLast]
    exact ⟨first, second, rfl, rfl⟩
  · cases executes

/-- What a server did to get its session: the pair comes in the other order. -/
theorem serverHandshake_ok
    (executes : Executes connExec (serverHandshake noise random key) () log (.ok session) ()) :
    ∃ hs₀ hs₁ hs₂ hs₃ init initRead response finish finishRead,
      noise.newHandshakeState random false key = .ok hs₀ ∧
      noise.readMessage hs₀ init = (.ok initRead, hs₁) ∧
      noise.writeMessage hs₁ [] = (.ok response, hs₂) ∧
      noise.readMessage hs₂ finish = (.ok finishRead, hs₃) ∧
      finishRead.first = some session.recv ∧ finishRead.second = some session.send ∧
      received log = [init, finish] ∧ written log = [response.content] := by
  unfold serverHandshake at executes
  obtain ⟨hs₀, created, executes⟩ := orFail_ok executes
  obtain ⟨init, later, logged, executes⟩ := read_ok executes
  obtain ⟨initRead, readInit, executes⟩ := orFail_ok executes
  obtain ⟨response, writeResponse, executes⟩ := orFail_ok executes
  obtain ⟨later, loggedWrite, executes⟩ := write_ok executes
  obtain ⟨finish, later, loggedLast, executes⟩ := read_ok executes
  obtain ⟨finishRead, readFinish, executes⟩ := orFail_ok executes
  refine ⟨hs₀, _, _, _, init, initRead, response, finish, finishRead, created,
    Prod.ext readInit rfl, Prod.ext writeResponse rfl, Prod.ext readFinish rfl, ?_⟩
  split at executes
  · next csRecv csSend first second =>
    cases executes
    rw [logged, loggedWrite, loggedLast]
    exact ⟨first, second, rfl, rfl⟩
  · cases executes

/-- **The wiring.** What one side sends with is what the other receives with. -/
theorem CompleteWith.keys {package : Package} {client server : NoiseSession noise}
    (assumptions : noise.Assumptions) (complete : CompleteWith package noise client server) :
    ∃ forth back, forth ≠ back ∧ client.send = ⟨forth, 0⟩ ∧ client.recv = ⟨back, 0⟩ ∧
      server.recv = ⟨forth, 0⟩ ∧ server.send = ⟨back, 0⟩ := by
  obtain ⟨_, _, _, _, clientLog, serverLog, clientRan, serverRan, toServer, toClient⟩ := complete
  obtain ⟨_, _, _, _, init, response, _, finish, newClient, writeInit, readResponse, writeFinish,
    clientSend, clientRecv, clientWritten, clientReceived⟩ := clientHandshake_ok clientRan
  obtain ⟨_, _, _, _, initSeen, _, responseSent, finishSeen, finishRead, newServer, readInit,
    writeResponse, readFinish, serverRecv, serverSend, serverReceived, serverWritten⟩ :=
      serverHandshake_ok serverRan
  rw [serverReceived, clientWritten] at toServer
  rw [clientReceived, serverWritten] at toClient
  obtain ⟨rfl, rfl⟩ : initSeen = init.content ∧ finishSeen = finish.content := by
    simpa using toServer
  obtain rfl : response = responseSent.content := by simpa using toClient
  obtain ⟨forth, back, different, first, second, firstRead, secondRead⟩ :=
    assumptions.pair finish finishRead
      (.intro newClient newServer writeInit readInit writeResponse readResponse writeFinish
        readFinish)
  refine ⟨forth, back, different, ?_, ?_, ?_, ?_⟩
  · exact Option.some.inj (clientSend.symm.trans first)
  · exact Option.some.inj (clientRecv.symm.trans second)
  · exact Option.some.inj (serverRecv.symm.trans firstRead)
  · exact Option.some.inj (serverSend.symm.trans secondRead)

end Handshakes

/-! ### The channel -/

inductive Side where
  | client
  | server
deriving DecidableEq

def Side.peer : Side → Side
  | .client => .server
  | .server => .client

@[simp] theorem Side.peer_peer (side : Side) : side.peer.peer = side := by
  cases side <;> rfl

theorem Side.peer_ne (side : Side) : side.peer ≠ side := by
  cases side <;> decide

/-- The package whose code runs on a side. -/
def Side.package (client : Package) : Side → Package
  | .client => client
  | .server => .protoCore

/-- One direction: every plaintext with its ciphertext, and what the peer's calls of
`Decrypt` returned for the ciphertexts that were delivered. -/
structure Traffic where
  sent : List (Bytes × Bytes) := []
  results : List (Except String Bytes) := []

/-- Both sessions, and the traffic from each side. -/
structure Endpoints (noise : Noise) where
  sessions : Side → NoiseSession noise
  traffic : Side → Traffic := fun _ => {}

inductive ChannelEvent where
  | encrypt (side : Side) (plaintext : Bytes)
  /-- `Decrypt` of the next ciphertext of the peer. -/
  | decrypt (side : Side)
  /-- `Decrypt` of a ciphertext of the side itself. -/
  | reflect (side : Side) (position : Nat)

def Endpoints.start {noise : Noise} (client server : NoiseSession noise) : Endpoints noise where
  sessions
    | .client => client
    | .server => server

def Endpoints.next {noise : Noise} (package : Package) (ends : Endpoints noise) :
    ChannelEvent → Option (Endpoints noise)
  | .encrypt side plaintext =>
      let (result, session) := (ends.sessions side).encrypt plaintext
      let traffic := ends.traffic side
      some
        { sessions := Function.update ends.sessions side session
          traffic := match result with
            | .error _ => ends.traffic
            | .ok ciphertext => Function.update ends.traffic side
                { traffic with sent := traffic.sent ++ [(plaintext, ciphertext)] } }
  | .decrypt side =>
      let traffic := ends.traffic side.peer
      match traffic.sent[traffic.results.length]? with
      | none => none
      | some (_, ciphertext) =>
          let (result, session) := (ends.sessions side).decrypt (side.package package) ciphertext
          some
            { sessions := Function.update ends.sessions side session
              traffic := Function.update ends.traffic side.peer
                { traffic with results := traffic.results ++ [result] } }
  | .reflect side position =>
      match (ends.traffic side).sent[position]? with
      | none => none
      | some (_, ciphertext) =>
          let (_, session) := (ends.sessions side).decrypt (side.package package) ciphertext
          some { ends with sessions := Function.update ends.sessions side session }

/-- The counter that a call uses is not exhausted. -/
def NotExhausted {noise : Noise} (ends : Endpoints noise) : ChannelEvent → Prop
  | .encrypt side _ => (ends.sessions side).send.counter ≤ maxNonce
  | .decrypt side => (ends.sessions side).recv.counter ≤ maxNonce
  | .reflect _ _ => True

/-- Every delivered ciphertext gave its plaintext, in order, and no ciphertext
decrypts on its own side. -/
structure Delivers {noise : Noise} (package : Package) (ends : Endpoints noise) : Prop where
  inOrder : ∀ side, (ends.traffic side).results =
    ((ends.traffic side).sent.take (ends.traffic side).results.length).map fun message =>
      .ok message.1
  own : ∀ side, ∀ message ∈ (ends.traffic side).sent, ∃ error,
    ((ends.sessions side).decrypt (side.package package) message.2).1 = .error error

/-! ### One direction -/

/-- The counters of both ends are the numbers of messages sealed and opened, and
every message was sealed with its position. -/
structure Flow {noise : Noise} (key : noise.Key) (traffic : Traffic)
    (sender receiver : CipherState noise.Key) : Prop where
  sender : sender = ⟨key, traffic.sent.length⟩
  receiver : receiver = ⟨key, traffic.results.length⟩
  sealed : ∀ position message, traffic.sent[position]? = some message →
    message.2 = noise.sealWith key position message.1
  opened : traffic.results = (traffic.sent.take traffic.results.length).map fun message =>
    .ok message.1

section Flows

variable {noise : Noise} {key : noise.Key} {traffic : Traffic}
  {sender receiver : CipherState noise.Key}

theorem Flow.results_le (flow : Flow key traffic sender receiver) :
    traffic.results.length ≤ traffic.sent.length := by
  have length := congrArg List.length flow.opened
  rw [List.length_map, List.length_take] at length
  omega

theorem flow_start (key : noise.Key) : Flow key {} ⟨key, 0⟩ ⟨key, 0⟩ := by
  refine ⟨rfl, rfl, fun position message found => ?_, rfl⟩
  simp at found

/-- One more message is sealed. -/
theorem Flow.seal (flow : Flow key traffic sender receiver) (plaintext : Bytes) :
    Flow key
      { traffic with
        sent := traffic.sent ++
          [(plaintext, noise.sealWith sender.key sender.counter plaintext)] }
      { sender with counter := sender.counter + 1 } receiver := by
  refine ⟨?_, flow.receiver, fun position message found => ?_, ?_⟩
  · rw [flow.sender, List.length_append, List.length_singleton]
  · simp only [List.getElem?_append, List.getElem?_singleton] at found
    split at found
    · exact flow.sealed position message found
    · split at found
      · cases found
        have isLast : position = traffic.sent.length := by omega
        rw [flow.sender, isLast]
      · cases found
  · dsimp only
    rw [List.take_append_of_le_length flow.results_le]
    exact flow.opened

/-- The next message is opened. -/
theorem Flow.open (flow : Flow key traffic sender receiver) {message : Bytes × Bytes}
    (next : traffic.sent[traffic.results.length]? = some message) :
    Flow key { traffic with results := traffic.results ++ [.ok message.1] } sender
      { receiver with counter := receiver.counter + 1 } := by
  refine ⟨flow.sender, ?_, flow.sealed, ?_⟩
  · rw [flow.receiver, List.length_append, List.length_singleton]
  · dsimp only
    rw [List.length_append, List.length_singleton, List.take_add_one, next, List.map_append,
      ← flow.opened]
    rfl

end Flows

/-! ### Both directions -/

section Steps

variable {noise : Noise} {package : Package} {keys : Side → noise.Key} {ends after : Endpoints noise}

/-- The invariant. -/
def Counts (keys : Side → noise.Key) (ends : Endpoints noise) : Prop :=
  ∀ side, Flow (keys side) (ends.traffic side) (ends.sessions side).send
    (ends.sessions side.peer).recv

/-- Below the last counter `Encrypt` seals. -/
theorem encrypt_of_le {session : NoiseSession noise} (left : session.send.counter ≤ maxNonce)
    (plaintext : Bytes) :
    session.encrypt plaintext =
      (.ok (noise.sealWith session.send.key session.send.counter plaintext),
        { session with send := { session.send with counter := session.send.counter + 1 } }) := by
  rw [NoiseSession.encrypt, CipherState.encrypt, if_neg (Nat.not_lt.mpr left)]

/-- A ciphertext opens at its key and position. -/
theorem decrypt_sealed (assumptions : noise.Assumptions) {session : NoiseSession noise}
    (left : session.recv.counter ≤ maxNonce) (plaintext : Bytes) :
    session.decrypt package
        (noise.sealWith session.recv.key session.recv.counter plaintext) =
      (.ok plaintext,
        { session with recv := { session.recv with counter := session.recv.counter + 1 } }) := by
  have opened := assumptions.opens session.recv.key session.recv.counter plaintext
  rw [NoiseSession.decrypt, CipherState.decrypt, if_neg (Nat.not_lt.mpr left), opened]

/-- It does not open under another key, and the session stays as it is. -/
theorem decrypt_foreign (assumptions : noise.Assumptions) {session : NoiseSession noise}
    {key : noise.Key} (foreign : session.recv.key ≠ key) (position : Nat) (plaintext : Bytes) :
    ∃ error, session.decrypt package (noise.sealWith key position plaintext) =
      (.error error, session) := by
  obtain ⟨error, refused⟩ := assumptions.opensOnly key position plaintext session.recv.key
    session.recv.counter fun same => foreign same.1
  rw [NoiseSession.decrypt, CipherState.decrypt, refused]
  by_cases exhausted : maxNonce < session.recv.counter
  · rw [if_pos exhausted]
    exact ⟨_, rfl⟩
  · rw [if_neg exhausted]
    exact ⟨_, rfl⟩

/-- A ciphertext that comes back to its own side is refused. -/
theorem Counts.refuses_own (counts : Counts keys ends) (assumptions : noise.Assumptions)
    (different : keys .client ≠ keys .server) {side : Side} {position : Nat}
    {message : Bytes × Bytes} (found : (ends.traffic side).sent[position]? = some message) :
    ∃ error, (ends.sessions side).decrypt (side.package package) message.2 =
      (.error error, ends.sessions side) := by
  have receives := (counts side.peer).receiver
  have foreign : (ends.sessions side).recv.key ≠ keys side := by
    rw [Side.peer_peer] at receives
    rw [receives]
    cases side with
    | client => exact different.symm
    | server => exact different
  rw [(counts side).sealed position message found]
  exact decrypt_foreign assumptions foreign position message.1

theorem Counts.delivers (counts : Counts keys ends) (assumptions : noise.Assumptions)
    (different : keys .client ≠ keys .server) : Delivers package ends := by
  refine ⟨fun side => (counts side).opened, fun side message member => ?_⟩
  obtain ⟨position, found⟩ := List.getElem?_of_mem member
  obtain ⟨error, refused⟩ := counts.refuses_own assumptions different found
  exact ⟨error, by rw [refused]⟩

theorem Counts.encrypt (counts : Counts keys ends) {side : Side} {plaintext : Bytes}
    (left : (ends.sessions side).send.counter ≤ maxNonce)
    (stepped : ends.next package (.encrypt side plaintext) = some after) : Counts keys after := by
  simp only [Endpoints.next, encrypt_of_le left, Option.some.injEq] at stepped
  obtain rfl := stepped
  have sealing := (counts side).seal plaintext
  intro other
  by_cases same : other = side
  · subst same
    simpa [Function.update_of_ne other.peer_ne] using sealing
  · have isPeer : other.peer = side := by
      cases other <;> cases side <;> first | rfl | exact absurd rfl same
    have kept := counts other
    rw [isPeer] at kept
    simpa [same, isPeer] using kept

theorem Counts.decrypt (counts : Counts keys ends) (assumptions : noise.Assumptions) {side : Side}
    (left : (ends.sessions side).recv.counter ≤ maxNonce)
    (stepped : ends.next package (.decrypt side) = some after) : Counts keys after := by
  have flow := counts side.peer
  rw [Side.peer_peer] at flow
  simp only [Endpoints.next] at stepped
  split at stepped
  · cases stepped
  · next plaintext ciphertext found =>
    -- The ciphertext was sealed with the key and the position that the session expects.
    have sealed : ciphertext = noise.sealWith (ends.sessions side).recv.key
        (ends.sessions side).recv.counter plaintext := by
      rw [flow.receiver]
      exact flow.sealed _ _ found
    rw [sealed, decrypt_sealed assumptions left] at stepped
    obtain rfl := Option.some.inj stepped
    have opening := flow.open found
    intro other
    by_cases same : other = side.peer
    · subst same
      simpa [Function.update_of_ne side.peer_ne] using opening
    · have isSide : other = side := by
        cases other <;> cases side <;> first | rfl | exact absurd rfl same
      subst isSide
      simpa [Function.update_of_ne other.peer_ne, Ne.symm other.peer_ne] using counts other

theorem Counts.reflect (counts : Counts keys ends) (assumptions : noise.Assumptions)
    (different : keys .client ≠ keys .server) {side : Side} {position : Nat}
    (stepped : ends.next package (.reflect side position) = some after) : Counts keys after := by
  simp only [Endpoints.next] at stepped
  split at stepped
  · cases stepped
  · next message plaintext ciphertext found =>
    have refuses : ∃ error, (ends.sessions side).decrypt (side.package package) ciphertext =
        (.error error, ends.sessions side) := counts.refuses_own assumptions different found
    obtain ⟨error, refused⟩ := refuses
    rw [refused, Function.update_eq_self] at stepped
    obtain rfl := Option.some.inj stepped
    exact counts

/-- **The step lemma.** -/
theorem Counts.next (counts : Counts keys ends) (assumptions : noise.Assumptions)
    (different : keys .client ≠ keys .server) {event : ChannelEvent}
    (left : NotExhausted ends event) (stepped : ends.next package event = some after) :
    Counts keys after := by
  cases event with
  | encrypt side plaintext => exact counts.encrypt left stepped
  | decrypt side => exact counts.decrypt assumptions left stepped
  | reflect side position => exact counts.reflect assumptions different stepped

end Steps

/-- **The channel delivers in order.** For every client and server that complete a
handshake with each other, all along every run of calls in both directions: the
results of the ciphertexts delivered so far are the plaintexts that were
encrypted, from the first one on, and no ciphertext decrypts on the side that
produced it. -/
theorem channel_delivers_in_order (package : Package) (noise : Noise)
    (assumptions : noise.Assumptions) {client server : NoiseSession noise}
    (complete : CompleteWith package noise client server) (events : List ChannelEvent)
    (notExhausted : EachStep (Endpoints.next package) (.start client server) events
      NotExhausted) :
    Always (Endpoints.next package) (.start client server) events (Delivers package) := by
  obtain ⟨forth, back, different, clientSend, clientRecv, serverRecv, serverSend⟩ :=
    complete.keys assumptions
  let keys : Side → noise.Key
    | .client => forth
    | .server => back
  have start : Counts keys (.start client server) := by
    intro side
    cases side with
    | client =>
        show Flow forth {} client.send server.recv
        rw [clientSend, serverRecv]
        exact flow_start forth
    | server =>
        show Flow back {} server.send client.recv
        rw [serverSend, clientRecv]
        exact flow_start back
  have counts := always_of_eachStep start
    (fun _ _ _ counts left stepped => counts.next assumptions different left stepped) notExhausted
  intro past middle isPast ran
  exact (counts past middle isPast ran).delivers assumptions different

/-! A library with one key for each direction: the messages of a handshake are
numbered, and a ciphertext carries its key and position in clear. -/

/-- The position in the pattern, with the role. -/
structure SampleHandshake where
  initiator : Bool
  position : UInt8
deriving DecidableEq

/-- The third message completes the handshake. -/
def sampleOutput (position : UInt8) : HandshakeOutput Bool where
  content := [position]
  first := if position = 2 then some ⟨true, 0⟩ else none
  second := if position = 2 then some ⟨false, 0⟩ else none

def sampleHeader (key : Bool) (counter : Nat) : Bytes :=
  (if key then 1 else 0) :: (List.replicate counter 0 ++ [1])

def sampleNoise : Noise where
  Handshake := SampleHandshake
  Random := Unit
  Key := Bool
  newHandshakeState _ initiator _ := .ok ⟨initiator, 0⟩
  writeMessage hs _ := (.ok (sampleOutput hs.position), { hs with position := hs.position + 1 })
  readMessage hs message :=
    if message = [hs.position] then
      (.ok (sampleOutput hs.position), { hs with position := hs.position + 1 })
    else (.error "noise: message is too short", hs)
  sealWith key counter plaintext := sampleHeader key counter ++ plaintext
  openWith key counter ciphertext :=
    if ciphertext.take (counter + 2) = sampleHeader key counter then
      .ok (ciphertext.drop (counter + 2))
    else .error "chacha20poly1305: message authentication failed"

theorem length_sampleHeader (key : Bool) (counter : Nat) :
    (sampleHeader key counter).length = counter + 2 := by
  simp [sampleHeader]

/-- Headers of different keys or positions do not meet. -/
theorem sampleHeader_take {key other : Bool} {counter position : Nat} {plaintext : Bytes}
    (same : (sampleHeader key counter ++ plaintext).take (position + 2) =
      sampleHeader other position) : other = key ∧ position = counter := by
  have at_index : ∀ index, index < position + 2 →
      (sampleHeader key counter ++ plaintext)[index]? = (sampleHeader other position)[index]? := by
    intro index inside
    rw [← same, List.getElem?_take, if_pos inside]
  have keys : other = key := by
    have first := at_index 0 (by omega)
    cases key <;> cases other <;> first | rfl | simp [sampleHeader] at first
  refine ⟨keys, ?_⟩
  -- The end of the shorter header meets a zero of the longer one.
  rcases Nat.lt_trichotomy position counter with short | equal | long
  · have mark := at_index (position + 1) (by omega)
    simp [sampleHeader, List.getElem?_append, short] at mark
  · exact equal
  · have mark := at_index (counter + 1) (by omega)
    simp [sampleHeader, List.getElem?_append, long] at mark

theorem sampleNoise_assumptions : sampleNoise.Assumptions := by
  refine ⟨?_, fun key counter plaintext => ?_, fun key counter plaintext other position => ?_⟩
  · rintro initiator responder ⟨newInitiator, newResponder, writeInit, readInit, writeResponse,
      readResponse, writeFinish, readFinish⟩
    cases newInitiator
    cases newResponder
    cases writeInit
    cases readInit
    cases writeResponse
    cases readResponse
    cases writeFinish
    cases readFinish
    exact ⟨true, false, Bool.noConfusion, rfl, rfl, rfl, rfl⟩
  · have header := length_sampleHeader key counter
    show (if (sampleHeader key counter ++ plaintext).take (counter + 2) = sampleHeader key counter
      then Except.ok ((sampleHeader key counter ++ plaintext).drop (counter + 2)) else _) = _
    rw [← header, List.take_left, if_pos rfl, List.drop_left]
  · intro different
    refine ⟨_, if_neg fun same => different (sampleHeader_take same)⟩

def sampleKeyPair : KeyPair := ⟨[1], [2]⟩

def sampleClient : NoiseSession sampleNoise := ⟨⟨true, 0⟩, ⟨false, 0⟩⟩

def sampleServer : NoiseSession sampleNoise := ⟨⟨false, 0⟩, ⟨true, 0⟩⟩

theorem sample_completeWith : CompleteWith .sdk sampleNoise sampleClient sampleServer := by
  have clientRan : (clientHandshake .sdk sampleNoise () sampleKeyPair).run connExec
      [.ok [], .ok [1], .ok []] () = some (.ok sampleClient, ()) := by
    rfl
  have serverRan : (serverHandshake sampleNoise () sampleKeyPair).run connExec
      [.ok [0], .ok [], .ok [2]] () = some (.ok sampleServer, ()) := by
    rfl
  exact ⟨(), sampleKeyPair, (), sampleKeyPair, _, _, executes_of_run clientRan,
    executes_of_run serverRan, rfl, rfl⟩

/-- Two messages cross each other. -/
def crossing : List ChannelEvent :=
  [.encrypt .client [1], .encrypt .server [2], .decrypt .server, .reflect .client 0,
    .decrypt .client]

theorem channel_delivers_in_order_crossing :
    ∃ ends, run (Endpoints.next .sdk) (.start sampleClient sampleServer) crossing = some ends ∧
      (ends.traffic .client).results = [.ok [1]] ∧ (ends.traffic .server).results = [.ok [2]] ∧
      Delivers .sdk ends := by
  refine ⟨_, rfl, rfl, rfl, ?_⟩
  refine channel_delivers_in_order .sdk sampleNoise sampleNoise_assumptions sample_completeWith
    crossing ?_ crossing _ List.prefix_rfl rfl
  refine eachStep_cons rfl (Nat.zero_le _) ?_
  refine eachStep_cons rfl (Nat.zero_le _) ?_
  refine eachStep_cons rfl (Nat.zero_le _) ?_
  refine eachStep_cons rfl trivial ?_
  refine eachStep_cons rfl (Nat.zero_le _) ?_
  exact eachStep_nil

end FProto.Crypto

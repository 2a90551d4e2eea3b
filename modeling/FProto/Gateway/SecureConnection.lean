import FProto.Crypto.Channel
import FProto.Gateway.Connection

/-!
Owns the loop of `handleConn` of `server/cmd/gateway/main.go` with its
encryption: read a message, decrypt it, dispatch what it carries, encrypt the
answer and write it. The client is one that completed a handshake with the
gateway.

The network between them is an adversary. It may hold back, repeat, reorder and
replace messages in both directions; what it cannot do is make a message that
opens under a session key and was not sealed under it (`Authentic`).

**Main result.** The encrypted connection is the plaintext connection on a
prefix of what the client sent: `secure_connection_refines_plain`.
-/

namespace FProto.Gateway

open FProto.Foundation
open FProto.Protocol
open FProto.Outbox
open FProto.Crypto

/-! ### The loop -/

/-- The calls of one iteration to the connection and to the dispatcher. -/
inductive LoopCommand where
  | read
  | dispatch (request : DispatchRequest)
  | write (ciphertext : Bytes)

abbrev LoopReply : LoopCommand → Type
  | .read => Except String Bytes
  | .dispatch _ => Except RpcError DispatchResponse
  | .write _ => Except String Unit

abbrev LoopCode (Result : Type) := Program LoopCommand LoopReply Result

/-- What an answer is before encryption. The error of `proto.Marshal` is ignored,
which leaves no bytes. -/
def answerBytes (codec : ProtoCodec) : ClientMessage → Bytes
  | .ack message =>
      match codec.marshal message with
      | .error _ => []
      | .ok bytes => bytes
  | .echo text => text

/-- The acknowledgement: a message that cannot be encrypted or written is dropped and
the loop goes on. -/
def acknowledge {noise : Noise} (codec : ProtoCodec) (session : NoiseSession noise)
    (response : DispatchResponse) : LoopCode (Option (NoiseSession noise)) :=
  match session.encrypt (answerBytes codec (.ack (receivedAck response.ackMessageId))) with
  | (.error _, session) => return some session
  | (.ok enc, session) => do
      let _ ← (Program.issue (LoopCommand.write enc) : LoopCode (Except String Unit))
      return some session

/-- The echo: the loop ends when it cannot be encrypted or written. -/
def echoBack {noise : Noise} (codec : ProtoCodec) (session : NoiseSession noise)
    (pt : Bytes) : LoopCode (Option (NoiseSession noise)) :=
  match session.encrypt (answerBytes codec (.echo (utf8 "echo: " ++ pt))) with
  | (.error _, _) => return none
  | (.ok enc, session) => do
      match ← (Program.issue (LoopCommand.write enc) : LoopCode (Except String Unit)) with
      | .error _ => return none
      | .ok _ => return some session

/-- One iteration of the loop of `handleConn`; `none` when it returns. The flag says
whether a dispatcher is configured. -/
def handleNext {noise : Noise} (codec : ProtoCodec) (dispatcher : Bool) (remoteAddr : Bytes)
    (session : NoiseSession noise) : LoopCode (Option (NoiseSession noise)) := do
  match ← (Program.issue LoopCommand.read : LoopCode (Except String Bytes)) with
  | .error _ => return none
  | .ok ct =>
      match session.decrypt .protoCore ct with
      | (.error _, _) => return none
      | (.ok pt, session) =>
          match if dispatcher then framedMessage codec pt else none with
          | none => echoBack codec session pt
          | some (frame, message) =>
              let request : DispatchRequest :=
                { sessionId := some remoteAddr, senderId := frame.sessionId
                  message := some message }
              match ← (Program.issue (LoopCommand.dispatch request) :
                  LoopCode (Except RpcError DispatchResponse)) with
              | .error _ => echoBack codec session pt
              | .ok response => acknowledge codec session response

/-- What the surroundings answer to the calls of one iteration. -/
structure Surroundings where
  read : Except String Bytes
  dispatched : Except RpcError DispatchResponse
  written : Except String Unit

/-- What an iteration handed out. -/
structure HandedOut where
  requests : List DispatchRequest := []
  written : List Bytes := []

def loopExec : (command : LoopCommand) → Surroundings → HandedOut →
    Option (LoopReply command × HandedOut)
  | .read, surroundings, out => some (surroundings.read, out)
  | .dispatch request, surroundings, out =>
      some (surroundings.dispatched, { out with requests := out.requests ++ [request] })
  | .write ciphertext, surroundings, out =>
      some (surroundings.written, { out with written := out.written ++ [ciphertext] })

/-- An iteration issues at most three calls. -/
def iterate {noise : Noise} (codec : ProtoCodec) (dispatcher : Bool) (remoteAddr : Bytes)
    (session : NoiseSession noise) (surroundings : Surroundings) :
    Option (Option (NoiseSession noise) × HandedOut) :=
  (handleNext codec dispatcher remoteAddr session).run loopExec
    [surroundings, surroundings, surroundings] {}

/-! ### The plaintext connection -/

/-- A run of the plaintext loop body for a message, when `Dispatch` returns the
outcome. -/
def plainRun (codec : ProtoCodec) (dispatcher : Bool) (remoteAddr plaintext : Bytes)
    (outcome : Except RpcError DispatchResponse) : Option (Except String Unit × State) :=
  (handleMessage codec dispatcher remoteAddr plaintext).run exec [.ok 0, .received 0, .ok 0]
    { State.initial with responses := [(0, outcome)] }

/-- What the plaintext loop body asks the dispatcher. -/
def plainRequests (codec : ProtoCodec) (dispatcher : Bool) (remoteAddr : Bytes)
    (handled : Bytes × Except RpcError DispatchResponse) : List DispatchRequest :=
  (plainRun codec dispatcher remoteAddr handled.1 handled.2).elim [] fun ran => ran.2.requests

/-- What the plaintext loop body answers. -/
def plainAnswers (codec : ProtoCodec) (dispatcher : Bool) (remoteAddr : Bytes)
    (handled : Bytes × Except RpcError DispatchResponse) : List Bytes :=
  (plainRun codec dispatcher remoteAddr handled.1 handled.2).elim [] fun ran =>
    ran.2.written.map (answerBytes codec)

section Iterations

variable {noise : Noise} {codec : ProtoCodec} {dispatcher : Bool} {remoteAddr : Bytes}

/-! ### One iteration -/

/-- An answer is encrypted and handed out, or cannot be encrypted; either way the
loop goes on with the session that `Encrypt` leaves, if it goes on. -/
def Seals (session : NoiseSession noise) (answer : Bytes) (result : Option (NoiseSession noise))
    (written : List Bytes) : Prop :=
  (maxNonce < session.send.counter ∧ written = [] ∧ ∀ kept, result = some kept → kept = session) ∨
  (session.send.counter ≤ maxNonce ∧
    written = [noise.sealWith session.send.key session.send.counter answer] ∧
    ∀ kept, result = some kept →
      kept = { session with send := { session.send with counter := session.send.counter + 1 } })

theorem encrypt_exhausted {session : NoiseSession noise} (used : maxNonce < session.send.counter)
    (plaintext : Bytes) : ∃ error, session.encrypt plaintext = (.error error, session) := by
  rw [NoiseSession.encrypt, CipherState.encrypt, if_pos used]
  exact ⟨_, rfl⟩

/-- Go on with the only possible session. -/
theorem only_some {session : NoiseSession noise} :
    ∀ kept, some session = some kept → kept = session :=
  fun _ same => (Option.some.inj same).symm

theorem only_none {session : NoiseSession noise} :
    ∀ kept, (none : Option (NoiseSession noise)) = some kept → kept = session :=
  fun _ impossible => by cases impossible

theorem acknowledge_seals (session : NoiseSession noise) (response : DispatchResponse)
    (surroundings : Surroundings) (requests : List DispatchRequest) :
    ∃ result written, (acknowledge codec session response).run loopExec [surroundings]
        { requests } = some (result, { requests, written }) ∧
      Seals session (answerBytes codec (.ack (receivedAck response.ackMessageId))) result
        written := by
  unfold acknowledge
  by_cases left : session.send.counter ≤ maxNonce
  · rw [encrypt_of_le left]
    exact ⟨_, _, rfl, .inr ⟨left, rfl, only_some⟩⟩
  · obtain ⟨error, failed⟩ := encrypt_exhausted (Nat.lt_of_not_le left)
      (answerBytes codec (.ack (receivedAck response.ackMessageId)))
    rw [failed]
    exact ⟨_, _, rfl, .inl ⟨Nat.lt_of_not_le left, rfl, only_some⟩⟩

theorem echoBack_seals (session : NoiseSession noise) (pt : Bytes) (surroundings : Surroundings)
    (more : List Surroundings) (requests : List DispatchRequest) :
    ∃ result written, (echoBack codec session pt).run loopExec (surroundings :: more)
        { requests } = some (result, { requests, written }) ∧
      Seals session (answerBytes codec (.echo (utf8 "echo: " ++ pt))) result written := by
  unfold echoBack
  by_cases left : session.send.counter ≤ maxNonce
  · rw [encrypt_of_le left]
    cases isWritten : surroundings.written with
    | error error =>
        refine ⟨none, _, ?_, .inr ⟨left, rfl, only_none⟩⟩
        simp [Program.run, loopExec, isWritten]
    | ok _ =>
        refine ⟨some _, _, ?_, .inr ⟨left, rfl, only_some⟩⟩
        simp [Program.run, loopExec, isWritten]
  · obtain ⟨error, failed⟩ := encrypt_exhausted (Nat.lt_of_not_le left)
      (answerBytes codec (.echo (utf8 "echo: " ++ pt)))
    rw [failed]
    exact ⟨_, _, rfl, .inl ⟨Nat.lt_of_not_le left, rfl, only_none⟩⟩

/-- A message that carries nothing to dispatch is echoed. -/
theorem plain_of_unframed {pt : Bytes}
    (unframed : (if dispatcher then framedMessage codec pt else none) = none)
    (outcome : Except RpcError DispatchResponse) :
    plainRequests codec dispatcher remoteAddr (pt, outcome) = [] ∧
      plainAnswers codec dispatcher remoteAddr (pt, outcome) =
        [answerBytes codec (.echo (utf8 "echo: " ++ pt))] := by
  unfold plainRequests plainAnswers plainRun handleMessage
  rw [unframed]
  exact ⟨rfl, rfl⟩

/-- A message that `Dispatch` refuses is echoed. -/
theorem plain_of_refused {pt : Bytes} {frame : Frame} {message : AppMessage}
    (framed : (if dispatcher then framedMessage codec pt else none) = some (frame, message))
    (error : RpcError) :
    plainRequests codec dispatcher remoteAddr (pt, .error error) =
        [{ sessionId := some remoteAddr, senderId := frame.sessionId, message := some message }] ∧
      plainAnswers codec dispatcher remoteAddr (pt, .error error) =
        [answerBytes codec (.echo (utf8 "echo: " ++ pt))] := by
  unfold plainRequests plainAnswers plainRun handleMessage
  rw [framed]
  exact ⟨rfl, rfl⟩

/-- A message that `Dispatch` accepts is acknowledged. -/
theorem plain_of_accepted {pt : Bytes} {frame : Frame} {message : AppMessage}
    (framed : (if dispatcher then framedMessage codec pt else none) = some (frame, message))
    (response : DispatchResponse) :
    plainRequests codec dispatcher remoteAddr (pt, .ok response) =
        [{ sessionId := some remoteAddr, senderId := frame.sessionId, message := some message }] ∧
      plainAnswers codec dispatcher remoteAddr (pt, .ok response) =
        [answerBytes codec (.ack (receivedAck response.ackMessageId))] := by
  unfold plainRequests plainAnswers plainRun handleMessage
  rw [framed]
  exact ⟨rfl, rfl⟩

/-- Everything one iteration can do: end without handing anything out, or handle one
message as the plaintext loop body does. -/
inductive Iteration (codec : ProtoCodec) (dispatcher : Bool) (remoteAddr : Bytes)
    (session : NoiseSession noise) (surroundings : Surroundings) :
    Option (NoiseSession noise) → HandedOut → Prop where
  | lost (error : String) (failed : surroundings.read = .error error) :
      Iteration codec dispatcher remoteAddr session surroundings none {}
  | refused (ct : Bytes) (arrived : surroundings.read = .ok ct) (error : String)
      (refused : (session.decrypt .protoCore ct).1 = .error error) :
      Iteration codec dispatcher remoteAddr session surroundings none {}
  | handled (ct : Bytes) (arrived : surroundings.read = .ok ct) (pt : Bytes)
      (opened : NoiseSession noise) (decrypted : session.decrypt .protoCore ct = (.ok pt, opened))
      (result : Option (NoiseSession noise)) (written : List Bytes) (answer : Bytes)
      (answers : plainAnswers codec dispatcher remoteAddr (pt, surroundings.dispatched) = [answer])
      (seals : Seals opened answer result written) :
      Iteration codec dispatcher remoteAddr session surroundings result
        { requests := plainRequests codec dispatcher remoteAddr (pt, surroundings.dispatched)
          written }

/-- Every iteration ends, in one of these ways. -/
theorem iterate_cases (codec : ProtoCodec) (dispatcher : Bool) (remoteAddr : Bytes)
    (session : NoiseSession noise) (surroundings : Surroundings) :
    ∃ result out, iterate codec dispatcher remoteAddr session surroundings = some (result, out) ∧
      Iteration codec dispatcher remoteAddr session surroundings result out := by
  unfold iterate handleNext
  rw [Program.issue_bind, Program.run_call (show loopExec .read surroundings {} = _ from rfl)]
  cases isRead : surroundings.read with
  | error error => exact ⟨_, _, rfl, .lost error isRead⟩
  | ok ct =>
      dsimp only
      cases decrypted : session.decrypt .protoCore ct with
      | mk outcome opened =>
          cases outcome with
          | error error => exact ⟨_, _, rfl, .refused ct isRead error (by rw [decrypted])⟩
          | ok pt =>
              dsimp only
              cases framed : (if dispatcher then framedMessage codec pt else none) with
              | none =>
                  have plain := @plain_of_unframed codec dispatcher remoteAddr pt framed
                    surroundings.dispatched
                  obtain ⟨result, written, ran, seals⟩ :=
                    @echoBack_seals noise codec opened pt surroundings [surroundings] []
                  refine ⟨result, _, ran, ?_⟩
                  rw [← plain.1]
                  exact .handled ct isRead pt opened decrypted result written _ plain.2 seals
              | some carried =>
                  obtain ⟨frame, message⟩ := carried
                  dsimp only
                  rw [Program.issue_bind, Program.run_call
                    (show loopExec (.dispatch _) surroundings {} = _ from rfl)]
                  cases outcome : surroundings.dispatched with
                  | error error =>
                      have plain := @plain_of_refused codec dispatcher remoteAddr pt frame message
                        framed error
                      rw [← outcome] at plain
                      obtain ⟨result, written, ran, seals⟩ :=
                        @echoBack_seals noise codec opened pt surroundings [] _
                      refine ⟨result, _, ran, ?_⟩
                      rw [List.nil_append, ← plain.1]
                      exact .handled ct isRead pt opened decrypted result written _ plain.2 seals
                  | ok response =>
                      have plain := @plain_of_accepted codec dispatcher remoteAddr pt frame message
                        framed response
                      rw [← outcome] at plain
                      obtain ⟨result, written, ran, seals⟩ :=
                        @acknowledge_seals noise codec opened response surroundings _
                      refine ⟨result, _, ran, ?_⟩
                      rw [List.nil_append, ← plain.1]
                      exact .handled ct isRead pt opened decrypted result written _ plain.2 seals

end Iterations

/-! ### The connection and its network -/

/-- A client and the loop that serves it, which is `none` once it has returned.
`handled` are the messages the loop decrypted, with what `Dispatch` would return
for each of them. -/
structure Connection (noise : Noise) where
  client : NoiseSession noise
  gateway : Option (NoiseSession noise)
  sent : List (Bytes × Bytes) := []
  handled : List (Bytes × Except RpcError DispatchResponse) := []
  requests : List DispatchRequest := []
  answered : List Bytes := []
  received : List Bytes := []

inductive NetworkEvent where
  /-- The client encrypts a message and hands the ciphertext to the network. -/
  | send (plaintext : Bytes)
  /-- The loop reads what the network gives it, and goes through one iteration. -/
  | serve (surroundings : Surroundings)
  /-- The client decrypts what the network gives it. -/
  | receive (ciphertext : Bytes)

/-- The message that an iteration decrypts. -/
def decryptedBy {noise : Noise} (session : NoiseSession noise) (surroundings : Surroundings) :
    List (Bytes × Except RpcError DispatchResponse) :=
  match surroundings.read with
  | .error _ => []
  | .ok ct =>
      match (session.decrypt .protoCore ct).1 with
      | .error _ => []
      | .ok pt => [(pt, surroundings.dispatched)]

def Connection.next {noise : Noise} (package : Package) (codec : ProtoCodec) (dispatcher : Bool)
    (remoteAddr : Bytes) (conn : Connection noise) : NetworkEvent → Option (Connection noise)
  | .send plaintext =>
      match conn.client.encrypt plaintext with
      | (.error _, client) => some { conn with client }
      | (.ok ciphertext, client) =>
          some { conn with client, sent := conn.sent ++ [(plaintext, ciphertext)] }
  | .serve surroundings =>
      match conn.gateway with
      | none => none
      | some session =>
          match iterate codec dispatcher remoteAddr session surroundings with
          | none => none
          | some (gateway, out) =>
              some
                { conn with
                  gateway
                  handled := conn.handled ++ decryptedBy session surroundings
                  requests := conn.requests ++ out.requests
                  answered := conn.answered ++ out.written }
  | .receive ciphertext =>
      match conn.client.decrypt package ciphertext with
      | (.error _, client) => some { conn with client }
      | (.ok plaintext, client) =>
          some { conn with client, received := conn.received ++ [plaintext] }

/-- The network forges nothing: what opens in a session was sealed by its peer. -/
def Authentic {noise : Noise} (package : Package) (conn : Connection noise) : NetworkEvent → Prop
  | .send _ => True
  | .serve surroundings => ∀ session ct pt, conn.gateway = some session →
      surroundings.read = .ok ct → (session.decrypt .protoCore ct).1 = .ok pt →
      ct ∈ conn.sent.map Prod.snd
  | .receive ciphertext => ∀ pt, (conn.client.decrypt package ciphertext).1 = .ok pt →
      ciphertext ∈ conn.answered

/-- Seen from outside, the connection is the plaintext loop on a prefix of what the
client sent. -/
structure RefinesPlain {noise : Noise} (codec : ProtoCodec) (dispatcher : Bool)
    (remoteAddr : Bytes) (conn : Connection noise) : Prop where
  handled : conn.handled.map Prod.fst <+: conn.sent.map Prod.fst
  requests : conn.requests = conn.handled.flatMap (plainRequests codec dispatcher remoteAddr)
  received : conn.received <+: conn.handled.flatMap (plainAnswers codec dispatcher remoteAddr)

section Runs

variable {noise : Noise} {package : Package} {codec : ProtoCodec} {dispatcher : Bool}
  {remoteAddr : Bytes} {forth back : noise.Key} {conn after : Connection noise}

/-- The invariant: every counter is the number of messages that passed it, and every
ciphertext was sealed with its position. -/
structure Positions (codec : ProtoCodec) (dispatcher : Bool) (remoteAddr : Bytes)
    (forth back : noise.Key) (conn : Connection noise) : Prop where
  refines : RefinesPlain codec dispatcher remoteAddr conn
  sending : conn.client.send = ⟨forth, conn.sent.length⟩
  sealedForth : ∀ position message, conn.sent[position]? = some message →
    message.2 = noise.sealWith forth position message.1
  opening : ∀ session, conn.gateway = some session →
    session.recv = ⟨forth, conn.handled.length⟩
  answering : ∀ session, conn.gateway = some session →
    session.send = ⟨back, conn.answered.length⟩ ∧
      (conn.answered.length = conn.handled.length ∨ maxNonce < conn.answered.length)
  sealedBack : ∀ position ciphertext, conn.answered[position]? = some ciphertext →
    ∃ answer, (conn.handled.flatMap (plainAnswers codec dispatcher remoteAddr))[position]? =
      some answer ∧ ciphertext = noise.sealWith back position answer
  receiving : conn.client.recv = ⟨back, conn.received.length⟩

/-- A message that does not open leaves the session as it is. -/
theorem decrypt_error {session opened : NoiseSession noise} {ciphertext : Bytes} {error : String}
    (refused : session.decrypt package ciphertext = (.error error, opened)) : opened = session := by
  have keeps : ∀ reason cipher, session.recv.decrypt ciphertext = (.error reason, cipher) →
      cipher = session.recv := by
    intro reason cipher failed
    unfold CipherState.decrypt at failed
    split at failed
    · exact (Prod.mk.inj failed).2.symm
    · split at failed
      · exact (Prod.mk.inj failed).2.symm
      · cases (Prod.mk.inj failed).1
  unfold NoiseSession.decrypt at refused
  split at refused
  · next reason cipher failed =>
    rw [← (Prod.mk.inj refused).2, keeps reason cipher failed]
  · cases (Prod.mk.inj refused).1

theorem getElem?_of_shorter {Value : Type} {short long : List Value} {position : Nat}
    {value : Value} (isPrefix : short <+: long) (found : short[position]? = some value) :
    long[position]? = some value := by
  obtain ⟨rest, rfl⟩ := isPrefix
  rw [List.getElem?_append_left (List.getElem?_eq_some_iff.mp found).1, found]

/-- One more element of a list after a prefix of it. -/
theorem prefix_concat_of_getElem? {Value : Type} {short long : List Value} {value : Value}
    (isPrefix : short <+: long) (next : long[short.length]? = some value) :
    short ++ [value] <+: long := by
  obtain ⟨rest, rfl⟩ := isPrefix
  rw [List.getElem?_append_right (Nat.le_refl _), Nat.sub_self] at next
  cases rest with
  | nil => cases next
  | cons first rest =>
      obtain rfl := Option.some.inj next
      exact ⟨rest, by simp⟩

/-- What opens in a session was sealed at the position that the session has reached. -/
theorem position_of_decrypt (assumptions : noise.Assumptions) {session : NoiseSession noise}
    {key : noise.Key} {count position : Nat} {plaintext found : Bytes}
    (receives : session.recv = ⟨key, count⟩)
    (opened : (session.decrypt package (noise.sealWith key position plaintext)).1 = .ok found) :
    position = count ∧ session.decrypt package (noise.sealWith key position plaintext) =
      (.ok plaintext, { session with recv := ⟨key, count + 1⟩ }) := by
  by_cases exhausted : maxNonce < session.recv.counter
  · rw [NoiseSession.decrypt, CipherState.decrypt, if_pos exhausted] at opened
    cases opened
  · by_cases same : count = position
    · subst same
      have decrypted := @decrypt_sealed noise package assumptions session
        (Nat.le_of_not_lt exhausted) plaintext
      rw [receives] at decrypted
      exact ⟨rfl, decrypted⟩
    · -- At another position nothing opens.
      obtain ⟨error, refused⟩ := assumptions.opensOnly key position plaintext key count
        fun both => same both.2
      rw [NoiseSession.decrypt, CipherState.decrypt, if_neg exhausted, receives, refused] at opened
      cases opened

/-- Every message gets one answer. -/
theorem plainAnswers_single (one : Bytes × Except RpcError DispatchResponse) :
    ∃ answer, plainAnswers codec dispatcher remoteAddr one = [answer] := by
  obtain ⟨pt, outcome⟩ := one
  cases framed : (if dispatcher then framedMessage codec pt else none) with
  | none => exact ⟨_, (plain_of_unframed framed outcome).2⟩
  | some carried =>
      cases outcome with
      | error error => exact ⟨_, (plain_of_refused framed error).2⟩
      | ok response => exact ⟨_, (plain_of_accepted framed response).2⟩

theorem length_answers (handled : List (Bytes × Except RpcError DispatchResponse)) :
    (handled.flatMap (plainAnswers codec dispatcher remoteAddr)).length = handled.length := by
  induction handled with
  | nil => rfl
  | cons one handled inductionHypothesis =>
      obtain ⟨answer, single⟩ := @plainAnswers_single codec dispatcher remoteAddr one
      rw [List.flatMap_cons, single, List.singleton_append, List.length_cons, inductionHypothesis,
        List.length_cons]

/-- The answer at a position is the one to the message at that position. -/
theorem handled_of_answer {handled : List (Bytes × Except RpcError DispatchResponse)}
    {position : Nat} {answer : Bytes}
    (found : (handled.flatMap (plainAnswers codec dispatcher remoteAddr))[position]? =
      some answer) :
    ∃ one, handled[position]? = some one ∧
      plainAnswers codec dispatcher remoteAddr one = [answer] := by
  induction handled generalizing position with
  | nil => simp at found
  | cons one handled inductionHypothesis =>
      obtain ⟨first, single⟩ := @plainAnswers_single codec dispatcher remoteAddr one
      rw [List.flatMap_cons, single, List.singleton_append] at found
      cases position with
      | zero =>
          obtain rfl := Option.some.inj found
          exact ⟨one, rfl, single⟩
      | succ position => exact inductionHypothesis found

theorem Positions.send (positions : Positions codec dispatcher remoteAddr forth back conn)
    {plaintext : Bytes}
    (stepped : conn.next package codec dispatcher remoteAddr (.send plaintext) = some after) :
    Positions codec dispatcher remoteAddr forth back after := by
  have sending := positions.sending
  by_cases left : conn.client.send.counter ≤ maxNonce
  · simp only [Connection.next, encrypt_of_le left, Option.some.injEq] at stepped
    obtain rfl := stepped
    refine { positions with refines := ?_, sending := ?_, sealedForth := ?_ }
    · refine { positions.refines with handled := ?_ }
      rw [List.map_append]
      exact positions.refines.handled.trans (List.prefix_append _ _)
    · rw [List.length_append, sending]
      rfl
    · intro position message found
      rcases Pool.getElem?_concat_cases found with old | ⟨rfl, rfl⟩
      · exact positions.sealedForth position message old
      · rw [sending]
  · obtain ⟨error, failed⟩ := encrypt_exhausted (Nat.lt_of_not_le left) plaintext
    simp only [Connection.next, failed, Option.some.injEq] at stepped
    obtain rfl := stepped
    exact positions

theorem Positions.receive (assumptions : noise.Assumptions)
    (positions : Positions codec dispatcher remoteAddr forth back conn) {ciphertext : Bytes}
    (authentic : Authentic package conn (.receive ciphertext))
    (stepped : conn.next package codec dispatcher remoteAddr (.receive ciphertext) = some after) :
    Positions codec dispatcher remoteAddr forth back after := by
  cases decrypted : conn.client.decrypt package ciphertext with
  | mk outcome client =>
      simp only [Connection.next, decrypted] at stepped
      cases outcome with
      | error error =>
          obtain rfl := Option.some.inj stepped
          obtain rfl := decrypt_error decrypted
          exact positions
      | ok found =>
          obtain rfl := Option.some.inj stepped
          obtain ⟨position, located⟩ := List.getElem?_of_mem (authentic found (by rw [decrypted]))
          obtain ⟨answer, isAnswer, rfl⟩ := positions.sealedBack position ciphertext located
          obtain ⟨rfl, again⟩ := position_of_decrypt assumptions positions.receiving
            (show (conn.client.decrypt package _).1 = .ok found by rw [decrypted])
          obtain ⟨isFound, isClient⟩ := Prod.mk.inj (decrypted.symm.trans again)
          obtain rfl := Except.ok.inj isFound
          obtain rfl := isClient
          refine { positions with refines := ?_, receiving := ?_ }
          · refine { positions.refines with received := ?_ }
            exact prefix_concat_of_getElem? positions.refines.received isAnswer
          · rw [List.length_append]
            rfl

/-- The loop has returned: nothing is left to say about its session. -/
theorem Positions.close (positions : Positions codec dispatcher remoteAddr forth back conn) :
    Positions codec dispatcher remoteAddr forth back { conn with gateway := none } :=
  { positions with
    refines := ⟨positions.refines.handled, positions.refines.requests, positions.refines.received⟩
    opening := fun _ impossible => by cases impossible
    answering := fun _ impossible => by cases impossible }

/-- The loop has handled one more message. -/
theorem Positions.handle (positions : Positions codec dispatcher remoteAddr forth back conn)
    {session : NoiseSession noise} (serves : conn.gateway = some session)
    {message : Bytes × Bytes} (found : conn.sent[conn.handled.length]? = some message)
    {outcome : Except RpcError DispatchResponse} {answer : Bytes}
    (answers : plainAnswers codec dispatcher remoteAddr (message.1, outcome) = [answer])
    {result : Option (NoiseSession noise)} {written : List Bytes}
    (seals : Seals { session with recv := ⟨forth, conn.handled.length + 1⟩ } answer result
      written) :
    Positions codec dispatcher remoteAddr forth back
      { conn with
        gateway := result
        handled := conn.handled ++ [(message.1, outcome)]
        requests := conn.requests ++ plainRequests codec dispatcher remoteAddr (message.1, outcome)
        answered := conn.answered ++ written } := by
  obtain ⟨isSend, counted⟩ := positions.answering session serves
  have level : session.send.counter ≤ maxNonce → conn.answered.length = conn.handled.length := by
    intro left
    rw [isSend] at left
    exact counted.resolve_right (Nat.not_lt.mpr left)
  have allAnswers : (conn.handled ++ [(message.1, outcome)]).flatMap
      (plainAnswers codec dispatcher remoteAddr) =
        conn.handled.flatMap (plainAnswers codec dispatcher remoteAddr) ++ [answer] := by
    rw [List.flatMap_append, List.flatMap_singleton, answers]
  have oldBack : ∀ position ciphertext, conn.answered[position]? = some ciphertext →
      ∃ sealed, ((conn.handled ++ [(message.1, outcome)]).flatMap
        (plainAnswers codec dispatcher remoteAddr))[position]? = some sealed ∧
          ciphertext = noise.sealWith back position sealed := by
    intro position ciphertext isOld
    obtain ⟨sealed, isAnswer, isSealed⟩ := positions.sealedBack position ciphertext isOld
    refine ⟨sealed, ?_, isSealed⟩
    rw [allAnswers, List.getElem?_append_left (List.getElem?_eq_some_iff.mp isAnswer).1]
    exact isAnswer
  refine ⟨⟨?_, ?_, ?_⟩, positions.sending, positions.sealedForth, fun kept isKept => ?_,
    fun kept isKept => ?_, ?_, positions.receiving⟩
  · rw [List.map_append, List.map_singleton]
    refine prefix_concat_of_getElem? positions.refines.handled ?_
    rw [List.length_map, List.getElem?_map, found]
    rfl
  · rw [List.flatMap_append, List.flatMap_singleton, positions.refines.requests]
  · rw [allAnswers]
    exact positions.refines.received.trans (List.prefix_append _ _)
  · rw [List.length_append]
    rcases seals with ⟨-, -, only⟩ | ⟨-, -, only⟩
    · rw [only kept isKept]
      rfl
    · rw [only kept isKept]
      rfl
  · rcases seals with ⟨used, rfl, only⟩ | ⟨left, rfl, only⟩
    · rw [isSend] at used
      rw [only kept isKept, List.append_nil]
      exact ⟨isSend, .inr used⟩
    · rw [only kept isKept, isSend, List.length_append, List.length_append, level left]
      exact ⟨rfl, .inl rfl⟩
  · rcases seals with ⟨-, rfl, -⟩ | ⟨left, rfl, -⟩
    · rw [List.append_nil]
      exact oldBack
    · rw [isSend]
      intro position ciphertext isNew
      rcases Pool.getElem?_concat_cases isNew with old | ⟨rfl, rfl⟩
      · exact oldBack position ciphertext old
      · -- The answer to the last message is sealed at its position.
        refine ⟨answer, ?_, rfl⟩
        rw [allAnswers, level left, ← @length_answers codec dispatcher remoteAddr conn.handled,
          List.getElem?_concat_length]

theorem Positions.serve (assumptions : noise.Assumptions)
    (positions : Positions codec dispatcher remoteAddr forth back conn)
    {surroundings : Surroundings} (authentic : Authentic package conn (.serve surroundings))
    (stepped : conn.next package codec dispatcher remoteAddr (.serve surroundings) = some after) :
    Positions codec dispatcher remoteAddr forth back after := by
  cases serves : conn.gateway with
  | none =>
      simp only [Connection.next, serves] at stepped
      cases stepped
  | some session =>
      obtain ⟨result, out, iterated, iteration⟩ :=
        iterate_cases codec dispatcher remoteAddr session surroundings
      simp only [Connection.next, serves, iterated, Option.some.injEq] at stepped
      subst stepped
      cases iteration with
      | lost error failed =>
          simpa [decryptedBy, failed] using positions.close
      | refused ct arrived error refused =>
          simpa [decryptedBy, arrived, refused] using positions.close
      | handled ct arrived pt opened decrypted result written answer answers seals =>
          have isOk : (session.decrypt .protoCore ct).1 = .ok pt := by rw [decrypted]
          obtain ⟨message, member, isCt⟩ :=
            List.mem_map.mp (authentic session ct pt serves arrived isOk)
          obtain ⟨position, located⟩ := List.getElem?_of_mem member
          rw [positions.sealedForth position message located] at isCt
          subst isCt
          obtain ⟨rfl, again⟩ :=
            position_of_decrypt assumptions (positions.opening session serves) isOk
          obtain ⟨isPt, rfl⟩ := Prod.mk.inj (decrypted.symm.trans again)
          obtain rfl := Except.ok.inj isPt
          simpa [decryptedBy, arrived, isOk] using
            positions.handle serves located answers seals

/-- **The step lemma.** -/
theorem Positions.next (assumptions : noise.Assumptions)
    (positions : Positions codec dispatcher remoteAddr forth back conn) {event : NetworkEvent}
    (authentic : Authentic package conn event)
    (stepped : conn.next package codec dispatcher remoteAddr event = some after) :
    Positions codec dispatcher remoteAddr forth back after := by
  cases event with
  | send plaintext => exact positions.send stepped
  | serve surroundings => exact positions.serve assumptions authentic stepped
  | receive ciphertext => exact positions.receive assumptions authentic stepped

/-- A line after its handshake. -/
theorem Positions.start {client server : NoiseSession noise} (clientSend : client.send = ⟨forth, 0⟩)
    (clientRecv : client.recv = ⟨back, 0⟩) (serverRecv : server.recv = ⟨forth, 0⟩)
    (serverSend : server.send = ⟨back, 0⟩) :
    Positions codec dispatcher remoteAddr forth back
      { client := client, gateway := some server } := by
  refine ⟨⟨List.prefix_rfl, rfl, List.prefix_rfl⟩, clientSend, ?_, ?_, ?_, ?_, clientRecv⟩
  · exact fun position message found => by simp at found
  · rintro session ⟨⟩
    exact serverRecv
  · rintro session ⟨⟩
    exact ⟨serverSend, .inl rfl⟩
  · exact fun position ciphertext found => by simp at found

end Runs

/-- **The encrypted connection refines the plaintext connection.** For a client and a
gateway that completed a handshake with each other and a network that does all
but forge, all along every run: the messages the gateway handles are a prefix of
those the client sent, the dispatcher is asked exactly what the plaintext loop
asks for them, and what the client decrypts is a prefix of the answers to them,
in order. -/
theorem secure_connection_refines_plain (package : Package) (noise : Noise)
    (assumptions : noise.Assumptions) {client server : NoiseSession noise}
    (complete : CompleteWith package noise client server) (codec : ProtoCodec) (dispatcher : Bool)
    (remoteAddr : Bytes) (events : List NetworkEvent)
    (authentic : EachStep (Connection.next package codec dispatcher remoteAddr)
      { client := client, gateway := some server } events (Authentic package)) :
    Always (Connection.next package codec dispatcher remoteAddr)
      { client := client, gateway := some server } events
      (RefinesPlain codec dispatcher remoteAddr) := by
  obtain ⟨forth, back, -, clientSend, clientRecv, serverRecv, serverSend⟩ :=
    complete.keys assumptions
  have start : Positions codec dispatcher remoteAddr forth back
      { client := client, gateway := some server } :=
    Positions.start clientSend clientRecv serverRecv serverSend
  have positions := always_of_eachStep start
    (fun _ _ _ positions authentic stepped => positions.next assumptions authentic stepped)
    authentic
  exact fun past middle isPast ran => (positions past middle isPast ran).refines

/-- The surroundings of an iteration that reads the ciphertext. -/
def sampleSurroundings (ciphertext : Bytes) : Surroundings where
  read := .ok ciphertext
  dispatched := .error ⟨.unavailable, "no dispatcher"⟩
  written := .ok ()

/-- The client sends two messages. The gateway answers the first, the network repeats
it, and the loop ends. -/
def sampleTraffic : List NetworkEvent :=
  let first := sampleNoise.sealWith true 0 [1]
  [.send [1], .send [2], .serve (sampleSurroundings first),
    .receive (sampleNoise.sealWith false 0 (utf8 "echo: " ++ [1])),
    .serve (sampleSurroundings first)]

theorem secure_connection_refines_plain_replay :
    let codec := ProtoCodec.ofList [] []
    ∃ conn, run (Connection.next .sdk codec true [])
        { client := sampleClient, gateway := some sampleServer } sampleTraffic = some conn ∧
      conn.gateway.isNone ∧ conn.received = [utf8 "echo: " ++ [1]] ∧
      RefinesPlain codec true [] conn := by
  intro codec
  refine ⟨_, rfl, rfl, rfl, ?_⟩
  refine secure_connection_refines_plain .sdk sampleNoise sampleNoise_assumptions
    sample_completeWith codec true [] sampleTraffic ?_ sampleTraffic _ List.prefix_rfl rfl
  refine eachStep_cons rfl trivial ?_
  refine eachStep_cons rfl trivial ?_
  refine eachStep_cons rfl (fun _ _ _ _ isRead _ => ?_) ?_
  · cases isRead
    exact List.mem_cons_self
  refine eachStep_cons rfl (fun _ _ => List.mem_cons_self) ?_
  refine eachStep_cons rfl (fun _ _ _ _ isRead _ => ?_) ?_
  · cases isRead
    exact List.mem_cons_self
  exact eachStep_nil

end FProto.Gateway

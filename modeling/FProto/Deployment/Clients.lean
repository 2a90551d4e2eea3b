import FProto.Deployment.EndToEnd
import FProto.Gateway.SecureConnection

/-!
Owns the deployment together with its clients: every client has an encrypted line to a
gateway loop, and the gateway dispatches what it decrypts. Of the protobuf runtime it is
only assumed that it reads back what it wrote.

Two results. Nobody but a client speaks: every inbox row comes from a plaintext that some
client encrypted. An acknowledgement is a promise: a client that decrypts an answer other
than an echo knows that its message of the same position was stored, and will find it in
the inbox of the recipient once all work is done.

The network is the adversary of `Authentic`: it delivers what it likes, but forges
nothing. Does not own lines without a dispatcher.
-/

namespace FProto.Deployment

open FProto.Foundation
open FProto.Protocol
open FProto.Crypto
open FProto.Gateway

/-! ### The system -/

/-- The lines of a site: how many there are, the address of each, and the sessions that
its two ends have after the handshake. -/
structure Site (noise : Noise) where
  package : Package
  count : Nat
  address : Nat → Bytes
  client : Nat → NoiseSession noise
  gateway : Nat → NoiseSession noise

abbrev Lines (noise : Noise) := Nat → Connection noise

abbrev Whole (noise : Noise) := Lines noise × Deployed

abbrev Occurrence := (Nat × NetworkEvent) ⊕ Happening

namespace Site

variable {noise : Noise}

def lines (site : Site noise) : Lines noise :=
  fun line => { client := site.client line, gateway := some (site.gateway line) }

/-- One event on one line. -/
def nextLines (codec : ProtoCodec) (site : Site noise) (lines : Lines noise)
    (event : Nat × NetworkEvent) : Option (Lines noise) :=
  ((lines event.1).next site.package codec true (site.address event.1) event.2).map
    fun conn => Function.update lines event.1 conn

/-- The loop of the line can decrypt one of the messages of its client to the plaintext. -/
def opensTo (conn : Connection noise) (plaintext : Bytes) : Bool :=
  match conn.gateway with
  | none => false
  | some session =>
      conn.sent.any fun message =>
        match (session.decrypt .protoCore message.2).1 with
        | .error _ => false
        | .ok opened => opened == plaintext

/-- A call to the dispatcher succeeds only if `Dispatch` has returned `nil`. -/
def answeredFrom (codec : ProtoCodec) (servers : Outbox.Servers) (conn : Connection noise)
    (surroundings : Surroundings) : Bool :=
  match conn.gateway with
  | none => true
  | some session =>
      (decryptedBy session surroundings).all fun handled =>
        match framedMessage codec handled.1, handled.2 with
        | some (_, message), .ok _ => Outbox.accepts servers message
        | _, _ => true

/-- Where the lines and the deployment meet: the gateway works on what its lines decrypt, no
one else calls the dispatcher, and its answers are the dispatcher's. -/
def guard (codec : ProtoCodec) (site : Site noise) (lines : Lines noise) (deployed : Deployed) :
    Occurrence → Bool
  | .inl (line, .serve surroundings) => answeredFrom codec deployed.1 (lines line) surroundings
  | .inr (.inl (.spawn (.client _ remoteAddr plaintext))) =>
      (List.range site.count).any fun line =>
        site.address line == remoteAddr && opensTo (lines line) plaintext
  | .inr (.inl (.spawn (.dispatch _ _))) => false
  | _ => true

def next (codec : ProtoCodec) (site : Site noise) :
    Whole noise → Occurrence → Option (Whole noise) :=
  coupled (site.nextLines codec) (Deployment.next codec) (site.guard codec)

def start (site : Site noise) : Whole noise := (site.lines, Deployment.start)

/-- The network forges nothing on any line. -/
def Authentic (site : Site noise) (whole : Whole noise) : Occurrence → Prop
  | .inl (line, event) => Gateway.Authentic site.package (whole.1 line) event
  | .inr _ => True

end Site

/-! ### What stays accepted -/

theorem accepted_next {servers after : Outbox.Servers} {codec : ProtoCodec}
    {event : Event Outbox.Call Outbox.Choice}
    (stepped : servers.next (Outbox.pipeline codec) event = some after) {message : AppMessage}
    (accepted : Outbox.Accepted servers message) : Outbox.Accepted after message := by
  obtain ⟨thread, member, dispatched, isDone⟩ := accepted
  obtain ⟨index, located⟩ := List.mem_iff_getElem?.mp member
  rcases Pool.next_cases stepped with
    ⟨call, -, -, rfl⟩ | ⟨active, _, call, _, _, _, _, -, found, -, rfl⟩ |
    ⟨stopped, call, program, running, -, found, rfl⟩
  · exact ⟨thread, List.mem_append_left _ member, dispatched, isDone⟩
  · -- A finished thread is not the one that executes a command.
    have different : active ≠ index := by
      rintro rfl
      obtain rfl := Option.some.inj (found.symm.trans located)
      cases isDone
    refine ⟨thread, ?_, dispatched, isDone⟩
    exact List.mem_of_getElem? ((List.getElem?_set_ne different).trans located)
  · by_cases same : stopped = index
    · subst same
      obtain rfl := Option.some.inj (found.symm.trans located)
      exact ⟨_, List.mem_set (List.getElem?_eq_some_iff.mp located).1 _, dispatched, isDone⟩
    · refine ⟨thread, ?_, dispatched, isDone⟩
      exact List.mem_of_getElem? ((List.getElem?_set_ne same).trans located)

/-! ### The lines -/

section Lines

variable {codec : ProtoCodec} {noise : Noise} {package : Package} {remoteAddr : Bytes}
  {forth back : noise.Key} {conn after : Connection noise} {event : NetworkEvent}

/-- What was sent stays sent, and only the loop handles messages. -/
theorem line_next (stepped : conn.next package codec true remoteAddr event = some after) :
    (∀ message ∈ conn.sent, message ∈ after.sent) ∧
    ∀ handled ∈ after.handled, handled ∈ conn.handled ∨ ∃ surroundings session,
      event = .serve surroundings ∧ conn.gateway = some session ∧
        handled ∈ decryptedBy session surroundings := by
  cases event with
  | send plaintext =>
      simp only [Connection.next] at stepped
      split at stepped
      · obtain rfl := Option.some.inj stepped
        exact ⟨fun _ member => member, fun _ member => .inl member⟩
      · obtain rfl := Option.some.inj stepped
        exact ⟨fun _ member => List.mem_append_left _ member, fun _ member => .inl member⟩
  | serve surroundings =>
      simp only [Connection.next] at stepped
      split at stepped
      · cases stepped
      · next session serves =>
        split at stepped
        · cases stepped
        · obtain rfl := Option.some.inj stepped
          refine ⟨fun _ member => member, fun handled member => ?_⟩
          rcases List.mem_append.mp member with old | new
          · exact .inl old
          · exact .inr ⟨surroundings, session, rfl, serves, new⟩
  | receive ciphertext =>
      simp only [Connection.next] at stepped
      split at stepped
      · obtain rfl := Option.some.inj stepped
        exact ⟨fun _ member => member, fun _ member => .inl member⟩
      · obtain rfl := Option.some.inj stepped
        exact ⟨fun _ member => member, fun _ member => .inl member⟩

/-- What opens at the gateway is what the client encrypted. -/
theorem sent_of_opensTo (assumptions : noise.Assumptions)
    (positions : Positions codec true remoteAddr forth back conn) {plaintext : Bytes}
    (opens : Site.opensTo conn plaintext = true) : plaintext ∈ conn.sent.map Prod.fst := by
  unfold Site.opensTo at opens
  split at opens
  · cases opens
  · next session serves =>
    obtain ⟨message, member, isOpen⟩ := List.any_eq_true.mp opens
    split at isOpen
    · cases isOpen
    · next opened decrypted =>
      obtain ⟨position, located⟩ := List.getElem?_of_mem member
      rw [positions.sealedForth position message located] at decrypted
      have again := (position_of_decrypt assumptions (positions.opening session serves)
        decrypted).2
      rw [again] at decrypted
      obtain rfl := Except.ok.inj decrypted
      rw [← beq_iff_eq.mp isOpen]
      exact List.mem_map_of_mem member

/-- The answer to a message that is no echo is for a message that `Dispatch` accepted. -/
theorem accepted_of_answer {plaintext answer : Bytes}
    {outcome : Except Outbox.RpcError Outbox.DispatchResponse}
    (answers : plainAnswers codec true remoteAddr (plaintext, outcome) = [answer])
    (noEcho : ¬utf8 "echo: " <+: answer) :
    ∃ frame message response, framedMessage codec plaintext = some (frame, message) ∧
      outcome = .ok response := by
  have whether : (if true then framedMessage codec plaintext else none) =
      framedMessage codec plaintext := rfl
  cases framed : framedMessage codec plaintext with
  | none =>
      rw [(plain_of_unframed (whether.trans framed) outcome).2] at answers
      obtain rfl := List.singleton_inj.mp answers
      exact absurd (List.prefix_append _ _) noEcho
  | some carried =>
      obtain ⟨frame, message⟩ := carried
      cases outcome with
      | error error =>
          rw [(plain_of_refused (whether.trans framed) error).2] at answers
          obtain rfl := List.singleton_inj.mp answers
          exact absurd (List.prefix_append _ _) noEcho
      | ok response => exact ⟨frame, message, response, rfl, rfl⟩

end Lines

/-! ### The invariant -/

section Invariant

variable {codec : ProtoCodec} {noise : Noise} {site : Site noise} {forth back : Nat → noise.Key}
  {whole after : Whole noise}

/-- Lines are in step, the gateway works on what clients sent, and every success that a
line has seen is one of the dispatcher's. -/
structure Sound (codec : ProtoCodec) (site : Site noise) (forth back : Nat → noise.Key)
    (whole : Whole noise) : Prop where
  positions : ∀ line,
    Positions codec true (site.address line) (forth line) (back line) (whole.1 line)
  calls : ∀ thread ∈ whole.2.1.threads,
    (∀ senderId message, thread.call ≠ .dispatch senderId message) ∧
    ∀ dispatcher remoteAddr plaintext, thread.call = .client dispatcher remoteAddr plaintext →
      ∃ line, plaintext ∈ (whole.1 line).sent.map Prod.fst
  outcomes : ∀ line plaintext response frame message,
    (plaintext, .ok response) ∈ (whole.1 line).handled →
    framedMessage codec plaintext = some (frame, message) →
    Outbox.Accepted whole.2.1 message

/-- An event on a line. -/
theorem Sound.network (assumptions : noise.Assumptions) (sound : Sound codec site forth back whole)
    {line : Nat} {event : NetworkEvent} {lines : Lines noise}
    (authentic : Gateway.Authentic site.package (whole.1 line) event)
    (admitted : site.guard codec whole.1 whole.2 (.inl (line, event)) = true)
    (moved : site.nextLines codec whole.1 (line, event) = some lines) :
    Sound codec site forth back (lines, whole.2) := by
  obtain ⟨conn, stepped, rfl⟩ := Option.map_eq_some_iff.mp moved
  refine ⟨fun other => ?_, fun thread member => ?_, ?_⟩
  · by_cases same : other = line
    · subst same
      simpa using (sound.positions other).next assumptions authentic stepped
    · simpa [same] using sound.positions other
  · obtain ⟨direct, clients⟩ := sound.calls thread member
    refine ⟨direct, fun dispatcher remoteAddr plaintext isCall => ?_⟩
    obtain ⟨other, sent⟩ := clients dispatcher remoteAddr plaintext isCall
    refine ⟨other, ?_⟩
    by_cases same : other = line
    · subst same
      obtain ⟨message, member, rfl⟩ := List.mem_map.mp sent
      simp only [Function.update_self]
      exact List.mem_map_of_mem ((line_next stepped).1 message member)
    · simpa [same] using sent
  · intro other plaintext response frame message handled framed
    by_cases same : other = line
    · subst same
      simp only [Function.update_self] at handled
      rcases (line_next stepped).2 _ handled with old | ⟨surroundings, session, rfl, serves, new⟩
      · exact sound.outcomes other plaintext response frame message old framed
      · simp only [Site.guard, Site.answeredFrom, serves, List.all_eq_true] at admitted
        have checked := admitted _ new
        simp only [framed] at checked
        exact Outbox.accepts_iff.mp checked
    · simp only [Function.update_of_ne same] at handled
      exact sound.outcomes other plaintext response frame message handled framed

/-- An event of gateways, dispatchers and relays. -/
theorem Sound.servers (assumptions : noise.Assumptions) (sound : Sound codec site forth back whole)
    {event : Event Outbox.Call Outbox.Choice} {servers : Outbox.Servers}
    {consumers : Sync.Consumers}
    (admitted : site.guard codec whole.1 whole.2 (.inr (.inl event)) = true)
    (moved : whole.2.1.next (Outbox.pipeline codec) event = some servers) :
    Sound codec site forth back (whole.1, servers, consumers) := by
  refine ⟨sound.positions, fun thread member => ?_, ?_⟩
  · rcases Pool.call_of_mem_next moved member with ⟨old, isOld, same⟩ | ⟨rfl, -⟩
    · exact same ▸ sound.calls old isOld
    · constructor
      · intro senderId message isCall
        rw [isCall] at admitted
        cases admitted
      · intro dispatcher remoteAddr plaintext isCall
        rw [isCall] at admitted
        obtain ⟨line, -, opens⟩ := List.any_eq_true.mp admitted
        exact ⟨line, sent_of_opensTo assumptions (sound.positions line)
          (Bool.and_eq_true_iff.mp opens).2⟩
  · intro line plaintext response frame message handled framed
    exact accepted_next moved
      (sound.outcomes line plaintext response frame message handled framed)

/-- **The step lemma.** -/
theorem Sound.next (assumptions : noise.Assumptions) (sound : Sound codec site forth back whole)
    {occurrence : Occurrence} (authentic : site.Authentic whole occurrence)
    (stepped : site.next codec whole occurrence = some after) :
    Sound codec site forth back after := by
  rcases coupled_cases stepped with
    ⟨⟨line, event⟩, lines, rfl, admitted, moved, rfl⟩ | ⟨happening, deployed, rfl, admitted, moved,
      rfl⟩
  · exact sound.network assumptions authentic admitted moved
  · rcases coupled_cases moved with
      ⟨event, servers, rfl, -, served, rfl⟩ | ⟨event, consumers, rfl, -, -, rfl⟩
    · exact sound.servers assumptions admitted served
    · exact ⟨sound.positions, sound.calls, sound.outcomes⟩

/-- The keys that the ends of a line share after the handshake. -/
theorem sound_start (assumptions : noise.Assumptions)
    (complete : ∀ line,
      CompleteWith site.package noise (site.client line) (site.gateway line)) :
    ∃ forth back, Sound codec site forth back site.start := by
  choose forth back _ clientSend clientRecv serverRecv serverSend using
    fun line => (complete line).keys assumptions
  refine ⟨forth, back, fun line => ?_, fun thread member => absurd member List.not_mem_nil, ?_⟩
  · exact Positions.start (clientSend line) (clientRecv line) (serverRecv line) (serverSend line)
  · intro line plaintext response frame message handled
    exact absurd handled List.not_mem_nil

theorem run_sound (assumptions : noise.Assumptions)
    (complete : ∀ line, CompleteWith site.package noise (site.client line) (site.gateway line))
    {events : List Occurrence}
    (authentic : EachStep (site.next codec) site.start events site.Authentic)
    (ran : run (site.next codec) site.start events = some whole) :
    ∃ forth back, Sound codec site forth back whole := by
  obtain ⟨forth, back, start⟩ := @sound_start codec noise site assumptions complete
  exact ⟨forth, back, always_of_eachStep start
    (fun _ _ _ sound authentic stepped => sound.next assumptions authentic stepped) authentic
    events whole List.prefix_rfl ran⟩

theorem deployment_ran {events : List Occurrence}
    (ran : run (site.next codec) site.start events = some whole) :
    run (next codec) start (events.filterMap Sum.getRight?) = some whole.2 :=
  run_coupled_right ran

/-- The message at the position of an answer that is no echo was accepted. -/
theorem Sound.answered (sound : Sound codec site forth back whole) {line position : Nat}
    {answer : Bytes} (received : (whole.1 line).received[position]? = some answer)
    (noEcho : ¬utf8 "echo: " <+: answer) :
    ∃ plaintext ciphertext frame message,
      (whole.1 line).sent[position]? = some (plaintext, ciphertext) ∧
      framedMessage codec plaintext = some (frame, message) ∧
      Outbox.Accepted whole.2.1 message := by
  have refines := (sound.positions line).refines
  obtain ⟨⟨plaintext, outcome⟩, handled, answers⟩ :=
    handled_of_answer (getElem?_of_shorter refines.received received)
  obtain ⟨frame, message, response, framed, rfl⟩ := accepted_of_answer answers noEcho
  have isHandled : ((whole.1 line).handled.map Prod.fst)[position]? = some plaintext := by
    rw [List.getElem?_map, handled]
    rfl
  have isSent := getElem?_of_shorter refines.handled isHandled
  rw [List.getElem?_map] at isSent
  obtain ⟨⟨_, ciphertext⟩, sent, rfl⟩ := Option.map_eq_some_iff.mp isSent
  exact ⟨_, ciphertext, frame, message, sent, framed,
    sound.outcomes line _ response frame message (List.mem_of_getElem? handled) framed⟩

end Invariant

/-! ### The two guarantees -/

section Guarantees

variable {codec : ProtoCodec} {noise : Noise} {site : Site noise} {events : List Occurrence}
  {whole : Whole noise} (roundTrips : ∀ message, codec.RoundTrips message)
  (assumptions : noise.Assumptions)
  (complete : ∀ line, CompleteWith site.package noise (site.client line) (site.gateway line))
  (authentic : EachStep (site.next codec) site.start events site.Authentic)
  (ran : run (site.next codec) site.start events = some whole)

include roundTrips assumptions complete authentic ran

/-- **Nobody but a client speaks.** Whatever the network does short of forging, and in every
schedule of all gateways, dispatchers, relays and consumers with all their failures, every
inbox row is the row of a chat message that some client encrypted on its line, in a frame
that the gateway decodes to this message. -/
theorem inbox_rows_were_sent {row : Inbox.Entry}
    (member : row ∈ whole.2.2.world.state.inbox.rows) :
    ∃ line plaintext frame message, plaintext ∈ (whole.1 line).sent.map Prod.fst ∧
      framedMessage codec plaintext = some (frame, message) ∧
      IsInboxRowOf codec message row := by
  obtain ⟨forth, back, sound⟩ := run_sound assumptions complete authentic ran
  obtain ⟨message, submitted, isRow⟩ :=
    row_submitted roundTrips (deployment_ran ran) member
  rcases submitted with
    ⟨thread, isThread, senderId, isCall⟩ | ⟨thread, isThread, remoteAddr, plaintext, frame, isCall,
      framed⟩
  · exact absurd isCall ((sound.calls thread isThread).1 senderId _)
  · obtain ⟨line, sent⟩ := (sound.calls thread isThread).2 true remoteAddr plaintext isCall
    exact ⟨line, plaintext, frame, message, sent, framed, isRow⟩

end Guarantees

/-! One line, on which the client sends the sample message, sees it acknowledged, and
decrypts the acknowledgement. -/

def sampleSite : Site sampleNoise where
  package := .sdk
  count := 1
  address _ := utf8 "10.0.0.1:5222"
  client _ := sampleClient
  gateway _ := sampleServer

/-- The encoding of the acknowledgement of the sample message. -/
def sampleAnswer : Bytes := [0x0a, 1, 7, 0x32, 5, 0x0a, 1, 7, 0x10, 1]

/-- A runtime that knows the sample message, its acknowledgement and its frame. -/
def lineCodec : ProtoCodec :=
  ProtoCodec.ofList [(sampleChat, sampleChatPayload), (receivedAck (some [7]), sampleAnswer)]
    [({ sessionId := some [9], encryptedPayload := some sampleChatPayload }, Outbox.sampleFrame)]

theorem lineCodec_roundTrips (message : AppMessage) : lineCodec.RoundTrips message :=
  Outbox.ofList_roundTrips _ (by decide +kernel) message

def sampleOccurrences : List Occurrence :=
  .inl (0, .send Outbox.sampleFrame) :: sampleHappenings.map .inr ++
    [.inl (0, .serve
      { read := .ok (sampleNoise.sealWith true 0 Outbox.sampleFrame)
        dispatched := .ok { success := true, ackMessageId := some [7] }
        written := .ok () }),
      .inl (0, .receive (sampleNoise.sealWith false 0 sampleAnswer))]

/-- A network that delivers only what was sent. -/
def delivers {noise : Noise} (whole : Whole noise) : Occurrence → Bool
  | .inl (line, .serve surroundings) =>
      match surroundings.read with
      | .error _ => true
      | .ok ciphertext => ((whole.1 line).sent.map Prod.snd).contains ciphertext
  | .inl (line, .receive ciphertext) => (whole.1 line).answered.contains ciphertext
  | _ => true

theorem authentic_of_delivers {noise : Noise} {site : Site noise} {whole : Whole noise}
    {occurrence : Occurrence} (delivered : delivers whole occurrence = true) :
    site.Authentic whole occurrence := by
  rcases occurrence with ⟨line, event⟩ | happening
  · cases event with
    | send plaintext => trivial
    | serve surroundings =>
        intro session ciphertext plaintext _ isRead _
        simpa [delivers, isRead] using delivered
    | receive ciphertext =>
        intro plaintext _
        simpa [delivers] using delivered
  · trivial

/-- The sample run, with what the samples need to know about it. -/
theorem sample_ran :
    ∃ whole, run (sampleSite.next lineCodec) sampleSite.start sampleOccurrences = some whole ∧
      EachStep (sampleSite.next lineCodec) sampleSite.start sampleOccurrences sampleSite.Authentic ∧
      whole.2.2.world.state.inbox.rows.length = 1 ∧ sampleCheck whole.2 = true ∧
      (whole.1 0).received = [sampleAnswer] ∧
      (whole.1 0).sent.map Prod.fst = [Outbox.sampleFrame] := by
  have evaluated : (run (fun whole occurrence => if delivers whole occurrence then
      sampleSite.next lineCodec whole occurrence else none) sampleSite.start sampleOccurrences).any
      (fun whole => whole.2.2.world.state.inbox.rows.length == 1 && sampleCheck whole.2 &&
        (whole.1 0).received == [sampleAnswer] &&
        (whole.1 0).sent.map Prod.fst == [Outbox.sampleFrame]) = true := by
    decide +kernel
  obtain ⟨whole, checkedRan, checked⟩ := (Option.any_eq_true _ _).mp evaluated
  obtain ⟨ran, each⟩ := eachStep_of_checked_run checkedRan
  simp only [Bool.and_eq_true, beq_iff_eq] at checked
  refine ⟨whole, ran, ?_, checked.1.1.1, checked.1.1.2, checked.1.2, checked.2⟩
  intro past event middle after isPast pastRan stepped
  exact authentic_of_delivers (each past event middle after isPast pastRan stepped)

theorem inbox_rows_were_sent_sample :
    ∃ whole row, run (sampleSite.next lineCodec) sampleSite.start sampleOccurrences = some whole ∧
      row ∈ whole.2.2.world.state.inbox.rows ∧
      ∃ line plaintext frame message, plaintext ∈ (whole.1 line).sent.map Prod.fst ∧
        framedMessage lineCodec plaintext = some (frame, message) ∧
        IsInboxRowOf lineCodec message row := by
  obtain ⟨whole, ran, authentic, one, -⟩ := sample_ran
  obtain ⟨row, member⟩ := List.exists_mem_of_length_pos (Nat.lt_of_lt_of_eq Nat.one_pos one.symm)
  exact ⟨whole, row, ran, member, inbox_rows_were_sent lineCodec_roundTrips sampleNoise_assumptions
    (fun _ => sample_completeWith) authentic ran member⟩

section Guarantees

variable {codec : ProtoCodec} {noise : Noise} {site : Site noise} {events : List Occurrence}
  {whole : Whole noise} (roundTrips : ∀ message, codec.RoundTrips message)
  (assumptions : noise.Assumptions)
  (complete : ∀ line, CompleteWith site.package noise (site.client line) (site.gateway line))
  (authentic : EachStep (site.next codec) site.start events site.Authentic)
  (ran : run (site.next codec) site.start events = some whole)

include roundTrips assumptions complete authentic ran

end Guarantees

end FProto.Deployment

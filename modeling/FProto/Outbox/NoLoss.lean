import FProto.Dispatcher.Dispatch
import FProto.Gateway.Connection
import FProto.Outbox.Relay

/-!
Owns the delivery guarantee of the outbox: a message the dispatcher accepted
is never lost before Kafka.

Any number of `Dispatch` calls, RPC handlers, gateway connections and relays
run at once. Their commands interleave in any order, any command may fail and
any thread may stop for good. In every reachable state an accepted message has
exactly one outbox row with its route and its marshalled payload, and the row
is pending, or published and in the log of its topic, or failed and in the
dead-letter log.

The invariant is one sentence about rows (`Settled`). What a relay knows about
the entry it fetched is stable: the content of a row never changes and logs
only grow (`State.Evolves`).
-/

namespace FProto.Outbox

open FProto.Foundation
open FProto.Protocol
open FProto.Kafka
open FProto.Dispatcher

/-! ### The system -/

/-- The calls that run in the deployment. -/
inductive Call where
  | dispatch (senderId : Slice) (message : Option AppMessage)
  | serve (rpc : Nat) (request : DispatchRequest)
  | poll (batch : Nat)
  | client (dispatcher : Bool) (remoteAddr plaintext : Bytes)

/-- The code of a call. A poll returns nothing. -/
def code (codec : ProtoCodec) : Call → Code (Except String Unit)
  | .dispatch senderId message => Dispatcher.dispatch codec senderId message
  | .serve rpc request => do
      match ← GRPCServer.serve codec rpc request with
      | .error error => return .error error.message
      | .ok _ => return .ok ()
  | .poll batch => do
      Relay.poll batch
      return .ok ()
  | .client dispatcher remoteAddr plaintext =>
      Gateway.handleMessage codec dispatcher remoteAddr plaintext

/-- A handler runs only for a request that was sent. -/
def admits : Call → State → Bool
  | .serve rpc request, state => state.requests[rpc]? = some request
  | _, _ => true

def pipeline (codec : ProtoCodec) :
    System Command Reply (Except String Unit) State Choice Call where
  exec := exec
  code := code codec
  admits := admits

/-! ### Stored messages and settled rows -/

/-- The row is the outbox row of the message: its route and its payload. -/
structure IsRowOf (codec : ProtoCodec) (message : AppMessage) (row : Entry) : Prop where
  route : ∃ route, routeMessage (some message) = .ok route ∧ row.topic = route.topic ∧
    route.partitionKey = some row.partitionKey
  payload : codec.marshal message = .ok row.payload
  messageId : message.messageId = some row.messageId

/-- The message has an outbox row. -/
def State.HasRow (codec : ProtoCodec) (message : AppMessage) (state : State) : Prop :=
  ∃ row ∈ state.outbox.rows, IsRowOf codec message row

/-- Where the record of a row must be, by its status. -/
def State.Settled (state : State) (row : Entry) : Prop :=
  row.status = .pending ∨
  (row.status = .published ∧ ⟨some row.partitionKey, row.payload⟩ ∈ state.log row.topic) ∨
  (row.status = .failed ∧ ⟨some row.topic, row.payload⟩ ∈ state.log topicDeadLetter)

/-- A relay's copy of a row, which may have an old status and retry count. -/
def State.Fetched (state : State) (entry : Entry) : Prop :=
  ∃ row ∈ state.outbox.rows, entry.SameContent row

/-- What may change while a thread is between two commands. -/
structure State.Evolves (before after : State) : Prop where
  rows : Table.Keeps before.outbox after.outbox
  log : ∀ topic record, record ∈ before.log topic → record ∈ after.log topic

/-- The invariant: every row is settled, and only stored messages are answered
and acknowledged. -/
structure State.Safe (codec : ProtoCodec) (state : State) : Prop where
  settled : ∀ row ∈ state.outbox.rows, state.Settled row
  answered : ∀ rpc response, (rpc, .ok response) ∈ state.responses →
    ∃ message, message.messageId = response.ackMessageId ∧ state.HasRow codec message
  written : ∀ ack, .ack ack ∈ state.written →
    ∃ message, ack = Gateway.receivedAck message.messageId ∧ state.HasRow codec message

namespace State

variable {codec : ProtoCodec} {before after state : State}

theorem Evolves.refl (state : State) : state.Evolves state :=
  ⟨fun row member => ⟨row, member, Entry.SameContent.refl row⟩, fun _ _ member => member⟩

theorem Evolves.trans {first second third : State} (early : first.Evolves second)
    (late : second.Evolves third) : first.Evolves third := by
  refine ⟨fun row member => ?_, fun topic record member => ?_⟩
  · obtain ⟨middle, middleMember, middleSame⟩ := early.rows row member
    obtain ⟨last, lastMember, lastSame⟩ := late.rows middle middleMember
    exact ⟨last, lastMember, middleSame.trans lastSame⟩
  · exact late.log topic record (early.log topic record member)

/-- A message keeps its row. -/
theorem HasRow.evolve {message : AppMessage} (stored : before.HasRow codec message)
    (evolves : before.Evolves after) : after.HasRow codec message := by
  obtain ⟨row, member, isRow⟩ := stored
  obtain ⟨kept, keptMember, same⟩ := evolves.rows row member
  obtain ⟨route, routed, topic, key⟩ := isRow.route
  refine ⟨kept, keptMember, ⟨route, routed, ?_, ?_⟩, ?_, ?_⟩
  · rw [← same.topic, topic]
  · rw [← same.partitionKey, key]
  · rw [← same.payload, isRow.payload]
  · rw [← same.messageId, isRow.messageId]

theorem Fetched.evolve {entry : Entry} (fetched : before.Fetched entry)
    (evolves : before.Evolves after) : after.Fetched entry := by
  obtain ⟨row, member, same⟩ := fetched
  obtain ⟨kept, keptMember, keptSame⟩ := evolves.rows row member
  exact ⟨kept, keptMember, same.trans keptSame⟩

/-- A settled row stays settled while logs grow. -/
theorem Settled.grow {row : Entry} (settled : before.Settled row)
    (log : ∀ topic record, record ∈ before.log topic → record ∈ after.log topic) :
    after.Settled row := by
  rcases settled with pending | ⟨published, member⟩ | ⟨failed, member⟩
  · exact .inl pending
  · exact .inr (.inl ⟨published, log _ _ member⟩)
  · exact .inr (.inr ⟨failed, log _ _ member⟩)

end State

/-! ### One command -/

/-- What a command may rely on for the invariant to survive it. -/
def Command.Allowed (codec : ProtoCodec) (state : State) : Command → Prop
  | .markPublished id => ∃ entry : Entry, entry.id = id ∧ state.Fetched entry ∧
      ⟨some entry.partitionKey, entry.payload⟩ ∈ state.log entry.topic
  | .markFailed id => ∃ entry : Entry, entry.id = id ∧ state.Fetched entry ∧
      ⟨some entry.topic, entry.payload⟩ ∈ state.log topicDeadLetter
  | .respond _ (.ok response) =>
      ∃ message, message.messageId = response.ackMessageId ∧ state.HasRow codec message
  | .writeMessage (.ack ack) =>
      ∃ message, ack = Gateway.receivedAck message.messageId ∧ state.HasRow codec message
  | _ => True

/-- Commands that change neither the table nor a log. -/
theorem State.Evolves.of_eq {before after : State} (outbox : after.outbox = before.outbox)
    (log : after.log = before.log) : before.Evolves after := by
  refine ⟨?_, ?_⟩
  · rw [outbox]
    exact (State.Evolves.refl before).rows
  · rw [log]
    exact (State.Evolves.refl before).log

/-- Every command only adds rows and records and leaves the content of rows
alone. -/
theorem Effect.evolves {state after : State} {command : Command}
    (effect : Effect state command after) : state.Evolves after := by
  cases effect with
  | unchanged => exact State.Evolves.refl _
  | inserted accepted =>
      obtain ⟨row, members, -⟩ := insert_ok accepted
      exact ⟨fun other member => ⟨other, (members other).mpr (.inl member),
        Entry.SameContent.refl other⟩, fun _ _ member => member⟩
  | published id now => exact ⟨keeps_markPublished, fun _ _ member => member⟩
  | failed id => exact ⟨keeps_markFailed, fun _ _ member => member⟩
  | retried id => exact ⟨keeps_incrementRetry, fun _ _ member => member⟩
  | appended topic key value =>
      exact ⟨(State.Evolves.refl state).rows, fun _ _ member => mem_appendRecord member⟩
  | requested request => exact State.Evolves.of_eq rfl rfl
  | responded rpc answer => exact State.Evolves.of_eq rfl rfl
  | written message => exact State.Evolves.of_eq rfl rfl

/-- Only the row a relay fetched has its id. -/
theorem State.Fetched.same_of_id {state : State} {entry row : Entry} (fetched : state.Fetched entry)
    (member : row ∈ state.outbox.rows) (id : row.id = entry.id) : entry.SameContent row := by
  obtain ⟨original, originalMember, same⟩ := fetched
  have equal : original = row :=
    SerialTable.eq_of_id_eq originalMember member (same.id.symm.trans id.symm)
  exact equal ▸ same

/-- A change that answers and acknowledges nothing new is safe when its rows
are settled. -/
theorem State.Safe.of_settled {codec : ProtoCodec} {state after : State} (safe : state.Safe codec)
    (evolves : state.Evolves after) (responses : after.responses = state.responses)
    (written : after.written = state.written)
    (settled : ∀ row ∈ after.outbox.rows, after.Settled row) : after.Safe codec := by
  refine ⟨settled, fun rpc response member => ?_, fun ack member => ?_⟩
  · rw [responses] at member
    obtain ⟨message, messageId, stored⟩ := safe.answered rpc response member
    exact ⟨message, messageId, stored.evolve evolves⟩
  · rw [written] at member
    obtain ⟨message, isAck, stored⟩ := safe.written ack member
    exact ⟨message, isAck, stored.evolve evolves⟩

/-- **The step lemma.** An allowed command keeps the invariant. -/
theorem Effect.safe {codec : ProtoCodec} {state after : State} {command : Command}
    (safe : state.Safe codec) (allowed : command.Allowed codec state)
    (effect : Effect state command after) : after.Safe codec := by
  have evolves := effect.evolves
  cases effect with
  | unchanged => exact safe
  | inserted accepted =>
      obtain ⟨row, members, pending, -⟩ := insert_ok accepted
      refine safe.of_settled evolves rfl rfl fun other member => ?_
      rcases (members other).mp member with old | rfl
      · exact (safe.settled other old).grow evolves.log
      · exact .inl pending
  | published id now =>
      obtain ⟨entry, entryId, fetched, sent⟩ := allowed
      refine safe.of_settled evolves rfl rfl fun row member => ?_
      rcases mem_markPublished.mp member with ⟨original, originalMember, id, rfl⟩ | ⟨old, -⟩
      · -- The marked row is the one the relay sent.
        have same := fetched.same_of_id originalMember (id.trans entryId.symm)
        rw [same.partitionKey, same.payload, same.topic] at sent
        exact .inr (.inl ⟨rfl, sent⟩)
      · exact (safe.settled row old).grow evolves.log
  | failed id =>
      obtain ⟨entry, entryId, fetched, sent⟩ := allowed
      refine safe.of_settled evolves rfl rfl fun row member => ?_
      rcases mem_markFailed.mp member with ⟨original, originalMember, id, rfl⟩ | ⟨old, -⟩
      · have same := fetched.same_of_id originalMember (id.trans entryId.symm)
        rw [same.payload, same.topic] at sent
        exact .inr (.inr ⟨rfl, sent⟩)
      · exact (safe.settled row old).grow evolves.log
  | retried id =>
      refine safe.of_settled evolves rfl rfl fun row member => ?_
      rcases mem_incrementRetry.mp member with ⟨original, originalMember, -, rfl⟩ | ⟨old, -⟩
      · exact (safe.settled original originalMember).grow evolves.log
      · exact (safe.settled row old).grow evolves.log
  | appended topic key value =>
      refine safe.of_settled evolves rfl rfl fun row member => ?_
      exact (safe.settled row member).grow evolves.log
  | requested request =>
      exact safe.of_settled evolves rfl rfl fun row member => safe.settled row member
  | responded rpc answer =>
      refine ⟨safe.settled, fun other response member => ?_, safe.written⟩
      rcases List.mem_append.mp member with old | new
      · exact safe.answered other response old
      · obtain ⟨rfl, rfl⟩ := Prod.mk.inj (List.mem_singleton.mp new)
        exact allowed
  | written message =>
      refine ⟨safe.settled, safe.answered, fun ack member => ?_⟩
      rcases List.mem_append.mp member with old | new
      · exact safe.written ack old
      · obtain rfl := List.mem_singleton.mp new
        exact allowed

/-! ### Every program -/

/-- The discipline of the pipeline. -/
def discipline (codec : ProtoCodec) : Discipline Command Reply State where
  Invariant world := world.state.Safe codec
  Evolves before after := before.state.Evolves after.state
  evolves_refl world := State.Evolves.refl world.state
  evolves_trans early late := State.Evolves.trans early late

/-- What allows a command is stable. -/
theorem Command.Allowed.evolve {codec : ProtoCodec} {before after : State} {command : Command}
    (allowed : command.Allowed codec before) (evolves : before.Evolves after) :
    command.Allowed codec after := by
  cases command with
  | markPublished id =>
      obtain ⟨entry, entryId, fetched, sent⟩ := allowed
      exact ⟨entry, entryId, fetched.evolve evolves, evolves.log _ _ sent⟩
  | markFailed id =>
      obtain ⟨entry, entryId, fetched, sent⟩ := allowed
      exact ⟨entry, entryId, fetched.evolve evolves, evolves.log _ _ sent⟩
  | respond rpc answer =>
      cases answer with
      | error error => trivial
      | ok response =>
          obtain ⟨message, messageId, stored⟩ := allowed
          exact ⟨message, messageId, stored.evolve evolves⟩
  | writeMessage message =>
      cases message with
      | echo text => trivial
      | ack ack =>
          obtain ⟨message, isAck, stored⟩ := allowed
          exact ⟨message, isAck, stored.evolve evolves⟩
  | _ => trivial

section Programs

variable {codec : ProtoCodec} {thread : Nat} {Value : Type}
  {post : Value → World Command Reply State → Prop} {world : World Command Reply State}

/-- One allowed command, followed by programs that are sound from whatever
state it leaves. -/
theorem sound_call {command : Command} {next : Reply command → Code Value}
    (allowed : command.Allowed codec world.state)
    (following : ∀ choice reply before (after : World Command Reply State),
      world.state.Evolves before → exec command choice before = some (reply, after.state) →
      before.Evolves after.state →
      (discipline codec).Sound exec thread post (next reply) after) :
    (discipline codec).Sound exec thread post (.call command next) world := by
  intro before later safe choice reply state executed
  have effect := exec_effect executed
  exact ⟨effect.safe safe (allowed.evolve later.evolves), effect.evolves,
    following choice reply before.state _ later.evolves executed effect.evolves⟩

/-- A finished program whose postcondition always holds. -/
theorem sound_done {result : Value} (always : ∀ after, post result after) :
    (discipline codec).Sound exec thread post (.done result) world :=
  fun after _ _ => always after

theorem publish_sound {entry : Entry} (fetched : world.state.Fetched entry) :
    (discipline codec).Sound exec thread (fun _ _ => True) (Relay.publish entry) world := by
  refine sound_call trivial fun choice reply before after evolved executed evolves => ?_
  cases reply with
  | error error => exact sound_done fun _ => trivial
  | ok _ =>
      have sent := exec_send_ok executed
      have stillFetched := (fetched.evolve evolved).evolve evolves
      refine sound_call ⟨entry, rfl, stillFetched, sent⟩ fun _ _ _ _ _ _ _ => ?_
      exact sound_done fun _ => trivial

theorem sendToDeadLetter_sound {entry : Entry} (fetched : world.state.Fetched entry) :
    (discipline codec).Sound exec thread (fun _ _ => True) (Relay.sendToDeadLetter entry)
      world := by
  refine sound_call trivial fun choice reply before after evolved executed evolves => ?_
  cases reply with
  | error error => exact sound_done fun _ => trivial
  | ok _ =>
      have sent := exec_send_ok executed
      have stillFetched := (fetched.evolve evolved).evolve evolves
      refine sound_call ⟨entry, rfl, stillFetched, sent⟩ fun _ _ _ _ _ _ _ => ?_
      exact sound_done fun _ => trivial

theorem publishEntries_sound {entries : List Entry}
    (fetched : ∀ entry ∈ entries, world.state.Fetched entry) :
    (discipline codec).Sound exec thread (fun _ _ => True) (Relay.publishEntries entries)
      world := by
  induction entries generalizing world with
  | nil => exact sound_done fun _ => trivial
  | cons entry entries inductionHypothesis =>
      obtain ⟨entryFetched, restFetched⟩ := List.forall_mem_cons.mp fetched
      unfold Relay.publishEntries
      refine (publish_sound entryFetched).bind fun result after _ evolves _ => ?_
      have later : ∀ other ∈ entries, after.state.Fetched other :=
        fun other member => (restFetched other member).evolve evolves
      cases result with
      | ok _ => exact inductionHypothesis later
      | error error =>
          refine sound_call trivial fun _ _ before retried evolved _ retriedEvolves => ?_
          have total := evolved.trans retriedEvolves
          have restLater : ∀ other ∈ entries, retried.state.Fetched other :=
            fun other member => (later other member).evolve total
          split
          · have entryLater := (entryFetched.evolve evolves).evolve total
            refine (sendToDeadLetter_sound entryLater).bind fun _ final _ finalEvolves _ => ?_
            exact inductionHypothesis fun other member =>
              (restLater other member).evolve finalEvolves
          · exact inductionHypothesis restLater

theorem poll_sound (batch : Nat) :
    (discipline codec).Sound exec thread (fun _ _ => True) (Relay.poll batch) world := by
  refine sound_call trivial fun choice reply before after _ executed _ => ?_
  cases reply with
  | error error => exact sound_done fun _ => trivial
  | ok entries =>
      obtain ⟨unchanged, order, isOrder, rfl⟩ := exec_fetchPending_ok executed
      refine publishEntries_sound fun entry member => ?_
      have selected := isOrder.1.subset (List.mem_of_mem_take member)
      refine ⟨entry, ?_, Entry.SameContent.refl entry⟩
      rw [unchanged]
      exact (List.mem_filter.mp selected).1

/-- A `Dispatch` that returns `nil` has stored the message. -/
theorem dispatch_sound (senderId : Slice) (message : Option AppMessage) :
    (discipline codec).Sound exec thread
      (fun result after => ∀ accepted, message = some accepted → result = .ok () →
        after.state.HasRow codec accepted)
      (Dispatcher.dispatch codec senderId message) world := by
  unfold Dispatcher.dispatch
  split
  · exact sound_done fun _ _ _ impossible => nomatch impossible
  · next entry built =>
    refine sound_call trivial fun choice reply before after _ executed _ => ?_
    cases reply with
    | error error => exact sound_done fun _ _ _ impossible => nomatch impossible
    | ok _ =>
        intro final later _ accepted isMessage _
        subst isMessage
        obtain ⟨route, routed, marshalled, messageId, topic, key⟩ := newEntry_ok built
        obtain ⟨now, inserted⟩ := exec_insert_ok executed
        obtain ⟨row, members, -, rowId, rowTopic, rowKey, rowPayload⟩ := insert_ok inserted
        have stored : after.state.HasRow codec accepted := by
          refine ⟨row, (members row).mpr (.inr rfl), ⟨route, routed, ?_, ?_⟩, ?_, ?_⟩
          · rw [rowTopic, topic]
          · rw [← key, rowKey]
          · rw [rowPayload, marshalled]
          · rw [← messageId, rowId]
        exact stored.evolve later.evolves

/-- A handler that answers with success has stored the message of its request,
and the answer carries its id. -/
theorem grpcDispatch_sound (request : DispatchRequest) :
    (discipline codec).Sound exec thread
      (fun answer after => ∀ response, answer = .ok response →
        ∃ message, request.message = some message ∧
          message.messageId = response.ackMessageId ∧ after.state.HasRow codec message)
      (GRPCServer.dispatch codec request) world := by
  unfold GRPCServer.dispatch
  split
  · exact sound_done fun _ _ impossible => nomatch impossible
  · next message requested =>
    refine (dispatch_sound request.senderId (some message)).bind fun result after _ _ stored => ?_
    cases result with
    | error error => exact sound_done fun _ _ impossible => nomatch impossible
    | ok _ =>
        intro final later _ response answered
        obtain rfl := Except.ok.inj answered
        exact ⟨message, requested, rfl, (stored message rfl rfl).evolve later.evolves⟩

theorem serve_sound (rpc : Nat) (request : DispatchRequest) :
    (discipline codec).Sound exec thread
      (fun answer after => ∀ response, answer = .ok response →
        ∀ message, request.message = some message → after.state.HasRow codec message)
      (GRPCServer.serve codec rpc request) world := by
  unfold GRPCServer.serve
  refine (grpcDispatch_sound request).bind fun answer after _ _ stored => ?_
  have allowed : (Command.respond rpc answer).Allowed codec after.state := by
    cases answer with
    | error error => trivial
    | ok response =>
        obtain ⟨message, -, messageId, hasRow⟩ := stored response rfl
        exact ⟨message, messageId, hasRow⟩
  refine sound_call allowed fun _ _ before sent evolved _ evolves => ?_
  intro final later _ response answered message requested
  obtain ⟨accepted, isAccepted, -, hasRow⟩ := stored response answered
  obtain rfl := Option.some.inj (requested.symm.trans isAccepted)
  exact (hasRow.evolve (evolved.trans evolves)).evolve later.evolves

/-- The gateway acknowledges only what a handler answered with success. -/
theorem handleMessage_sound (dispatcher : Bool) (remoteAddr plaintext : Bytes)
    {post : Except String Unit → World Command Reply State → Prop}
    (always : ∀ result after, post result after) :
    (discipline codec).Sound exec thread post
      (Gateway.handleMessage codec dispatcher remoteAddr plaintext) world := by
  have echoSound : ∀ world : World Command Reply State,
      (discipline codec).Sound exec thread post (Gateway.echo plaintext) world :=
    fun _ => sound_call trivial fun _ _ _ _ _ _ _ => sound_done (always _)
  unfold Gateway.handleMessage
  split
  · exact echoSound world
  · refine sound_call trivial fun _ reply _ requested _ _ _ => ?_
    cases reply with
    | error error => exact echoSound requested
    | ok rpc =>
        -- The invariant is needed where the answer is read, so the call is unfolded here.
        intro before later safe choice answer state executed
        have effect := exec_effect executed
        have allowed : (Command.await rpc).Allowed codec before.state := trivial
        refine ⟨effect.safe safe allowed, effect.evolves, ?_⟩
        cases answer with
        | error error => exact echoSound _
        | ok response =>
            obtain ⟨unchanged, answered⟩ := exec_await_ok executed
            obtain ⟨message, messageId, stored⟩ := safe.answered rpc response answered
            have allowed : (Command.writeMessage
                (.ack (Gateway.receivedAck response.ackMessageId))).Allowed codec state :=
              ⟨message, by rw [messageId], stored.evolve effect.evolves⟩
            refine sound_call allowed fun _ _ _ _ _ _ _ => ?_
            exact sound_done (always _)

end Programs

/-- The message a call hands to `Dispatch` itself. -/
def Call.dispatched : Call → Option AppMessage
  | .dispatch _ message => message
  | .serve _ request => request.message
  | _ => none

/-- What a finished call guarantees. -/
def Call.Post (codec : ProtoCodec) (call : Call) (result : Except String Unit)
    (world : World Command Reply State) : Prop :=
  ∀ message, call.dispatched = some message → result = .ok () →
    world.state.HasRow codec message

theorem code_sound (codec : ProtoCodec) (call : Call) (thread : Nat)
    (world : World Command Reply State) :
    (discipline codec).Sound exec thread (call.Post codec) (code codec call) world := by
  cases call with
  | dispatch senderId message => exact dispatch_sound senderId message
  | serve rpc request =>
      refine (serve_sound rpc request).bind fun answer after _ _ stored => ?_
      cases answer with
      | error error => exact sound_done fun _ _ _ impossible => nomatch impossible
      | ok response =>
          intro final later _ message requested _
          exact (stored response rfl message requested).evolve later.evolves
  | poll batch =>
      refine (poll_sound batch).bind fun _ _ _ _ _ => ?_
      exact sound_done fun _ _ impossible => nomatch impossible
  | client dispatcher remoteAddr plaintext =>
      exact handleMessage_sound dispatcher remoteAddr plaintext
        fun _ _ _ impossible => nomatch impossible

/-! ### Every run -/

theorem State.Safe.initial (codec : ProtoCodec) : State.initial.Safe codec where
  settled _ member := absurd member List.not_mem_nil
  answered _ _ member := absurd member List.not_mem_nil
  written _ member := absurd member List.not_mem_nil

/-- The message is in exactly one outbox row, and that row is settled. -/
def State.Stored (codec : ProtoCodec) (state : State) (message : AppMessage) : Prop :=
  ∃ row, state.outbox.rows.filter (fun other => some other.messageId = message.messageId) = [row] ∧
    IsRowOf codec message row ∧ state.Settled row

theorem State.Safe.stored {codec : ProtoCodec} {state : State} (safe : state.Safe codec)
    {message : AppMessage} (hasRow : state.HasRow codec message) :
    state.Stored codec message := by
  obtain ⟨row, member, isRow⟩ := hasRow
  refine ⟨row, ?_, isRow, safe.settled row member⟩
  have only := SerialTable.filter_key_eq member
  simpa only [isRow.messageId, Option.some.injEq] using only

/-- A `Dispatch` of the message has returned `nil`. -/
def Accepted (pool : Pool Command Reply (Except String Unit) State Call)
    (message : AppMessage) : Prop :=
  ∃ thread ∈ pool.threads, thread.call.dispatched = some message ∧
    thread.program = .done (.ok ())

/-- **No accepted message is lost.** In every state of every schedule, a message
whose `Dispatch` returned `nil` has exactly one outbox row, with the route and
the marshalled message, and the row is pending, or published and in the log of
its topic, or failed and in the dead-letter log. Every acknowledgement the
gateway wrote is for such a message. -/
theorem accepted_message_never_lost {codec : ProtoCodec} {events : List (Event Call Choice)}
    {pool : Pool Command Reply (Except String Unit) State Call}
    (ran : (Pool.start State.initial).run (pipeline codec) events = some pool) :
    (∀ message, Accepted pool message → pool.world.state.Stored codec message) ∧
    (∀ ack, .ack ack ∈ pool.world.state.written →
      ∃ message, ack = Gateway.receivedAck message.messageId ∧
        pool.world.state.Stored codec message) := by
  have disciplined : pool.Disciplined (discipline codec) (pipeline codec) (Call.Post codec) :=
    Pool.run_sound (fun call index world _ _ _ => code_sound codec call index world) events
      (Pool.start_disciplined (State.Safe.initial codec)) ran
  have safe : pool.world.state.Safe codec := disciplined.invariant
  refine ⟨fun message accepted => ?_, fun ack member => ?_⟩
  · obtain ⟨thread, member, dispatched, finished⟩ := accepted
    have post := disciplined.result member finished
    exact safe.stored (post message dispatched rfl)
  · obtain ⟨message, isAck, hasRow⟩ := safe.written ack member
    exact ⟨message, isAck, safe.stored hasRow⟩

/-- A frame that carries the sample message. -/
def sampleFrame : Bytes := [0x0a, 1, 9, 0x22, 11] ++ sampleChatPayload

def sampleCodec : ProtoCodec :=
  ProtoCodec.ofList [(sampleChat, sampleChatPayload)]
    [({ sessionId := some [9], encryptedPayload := some sampleChatPayload }, sampleFrame)]

/-- The gateway dispatches the sample message and acknowledges it; the relay
fails once to publish it and then publishes it. -/
def sampleSchedule : List (Event Call Choice) :=
  let row : Entry :=
    { id := 1, messageId := [7], topic := utf8 "user-aa", partitionKey := [0xaa]
      payload := sampleChatPayload, status := .pending, retryCount := 0, createdAt := 3
      publishedAt := none }
  [.spawn (.client true (utf8 "10.0.0.1:5222") sampleFrame),
    .step 0 (.ok 2),
    .spawn (.serve 0
      { sessionId := some (utf8 "10.0.0.1:5222"), senderId := some [9]
        message := some sampleChat }),
    .step 1 (.ok 3), .step 1 (.ok 3), .step 0 (.received 0), .step 0 (.ok 4),
    .spawn (.poll 100), .step 2 (.fetched [row]), .step 2 (.fail "kafka: broker down"),
    .step 2 (.ok 5),
    .spawn (.poll 100), .step 3 (.fetched [{ row with retryCount := 1 }]), .step 3 (.ok 6),
    .step 3 (.ok 7)]

theorem accepted_message_never_lost_after_retry :
    ∃ pool, (Pool.start State.initial).run (pipeline sampleCodec) sampleSchedule = some pool ∧
      Accepted pool sampleChat ∧
      pool.world.state.written = [.ack (Gateway.receivedAck (some [7]))] ∧
      pool.world.state.Stored sampleCodec sampleChat := by
  obtain ⟨pool, ran⟩ : ∃ pool, (Pool.start State.initial).run (pipeline sampleCodec)
      sampleSchedule = some pool := ⟨_, rfl⟩
  have accepted : Accepted pool sampleChat := by
    obtain rfl := Option.some.inj ran
    exact ⟨_, List.mem_cons_of_mem _ List.mem_cons_self, rfl, rfl⟩
  have written : pool.world.state.written = [.ack (Gateway.receivedAck (some [7]))] := by
    obtain rfl := Option.some.inj ran
    rfl
  exact ⟨pool, ran, accepted, written, (accepted_message_never_lost ran).1 _ accepted⟩

end FProto.Outbox

import FProto.Deployment.EndToEnd
import FProto.Outbox.LogOrder
import FProto.Sync.Discovery

/-!
Owns the order in which direct chat messages get to the inbox of their recipient,
through the whole deployment. A chat message with a group goes another way, through
the topic of the group.

The relays keep the order in the topic log unless a `Send` fails. The consumer group
gives the records of a log to the handlers one after the other, from the first
one on, and again after a rebalance. So the row of a direct message that was sent
after another one was accepted never comes before the row of that other one, in
no state of the run.
-/

namespace FProto.Deployment

open FProto.Foundation
open FProto.Protocol
open FProto.Kafka
open FProto.Dispatcher
open FProto.Sync (Carries HandlesFor extractSenderID)

/-! ### Consumers that read in order -/

/-- The service is subscribed to the topic of the record, the handlers of that topic
have finished, and the records before it in the log had a handler. -/
structure InTurn (deployed : Deployed) (record : ConsumerMessage) : Prop where
  subscribed : Sync.carriesUsers record.topic = true
  single : ∀ thread ∈ deployed.2.threads, ∀ other, thread.call.handled = some other →
    other.topic = record.topic → thread.result? ≠ none
  reached : ∃ before logged rest,
    deployed.1.world.state.log record.topic = before ++ logged :: rest ∧
    record.value = some logged.value ∧
    ∀ earlier ∈ before, ∃ thread ∈ deployed.2.threads, ∃ other,
      thread.call.handled = some other ∧ other.topic = record.topic ∧
        other.value = some earlier.value

/-- A handler starts when it is its turn. -/
def ReadsInOrder (deployed : Deployed) : Happening → Prop
  | .inr (.spawn (.handle _ record)) => InTurn deployed record
  | _ => True

/-- No `Send` failed, the clock of the outbox ticks, and no call of a consumer to Redis
or PostgreSQL failed. -/
structure Undisturbed (deployed : Deployed) : Prop where
  clean : ∀ entry ∈ deployed.1.world.trace, Outbox.sendFailed entry = false
  ticks : deployed.1.world.state.outbox.Ticks
  faultless : ∀ entry ∈ deployed.2.world.trace, isFaultless entry = true

variable {codec : ProtoCodec} {past future : List Happening} {middle deployed after : Deployed}

theorem Undisturbed.earlier (undisturbed : Undisturbed deployed)
    (ran : run (next codec) middle future = some deployed) : Undisturbed middle where
  clean entry member :=
    undisturbed.clean entry ((Pool.trace_of_run (run_coupled_left ran)).subset member)
  ticks older isOlder newer isNewer less := by
    have since := Outbox.since_of_run (run_coupled_left ran)
    obtain ⟨laterOlder, isLaterOlder, olderCopies⟩ := since.kept older isOlder
    obtain ⟨laterNewer, isLaterNewer, newerCopies⟩ := since.kept newer isNewer
    rw [olderCopies.createdAt, newerCopies.createdAt]
    apply undisturbed.ticks laterOlder isLaterOlder laterNewer isLaterNewer
    rwa [← olderCopies.content.id, ← newerCopies.content.id]
  faultless entry member :=
    undisturbed.faultless entry ((Pool.trace_of_run (run_coupled_right ran)).subset member)

/-- The handlers that run were all started for topics of the subscription. -/
def Subscribed (deployed : Deployed) : Prop :=
  ∀ thread ∈ deployed.2.threads, ∀ record, thread.call.handled = some record →
    Sync.carriesUsers record.topic = true

theorem Subscribed.next {event : Happening} (subscribed : Subscribed deployed)
    (inOrder : ReadsInOrder deployed event) (stepped : next codec deployed event = some after) :
    Subscribed after := by
  rcases coupled_cases stepped with
    ⟨own, servers, rfl, -, -, rfl⟩ | ⟨own, consumers, rfl, -, moved, rfl⟩
  · exact subscribed
  · intro thread member record handled
    rcases Pool.call_of_mem_next moved member with ⟨old, isOld, same⟩ | ⟨rfl, -⟩
    · exact subscribed old isOld record (same ▸ handled)
    · cases isCall : thread.call with
      | handle pushClient found =>
          rw [isCall] at handled inOrder
          obtain rfl := Option.some.inj handled
          exact inOrder.subscribed
      | _ => rw [isCall] at handled; cases handled

/-! ### The first message is there first -/

/-- What holds in every state: when a handler of the second message runs, the first one
is in the inbox, and its row has the smaller id. -/
structure Preceded (codec : ProtoCodec) (userID firstID secondID : Bytes)
    (deployed : Deployed) : Prop where
  handlers : ∀ thread ∈ deployed.2.threads, ∀ record message,
    HandlesFor codec thread.call record userID message → message.messageId.bytes = secondID →
      Inbox.Table.HasRow deployed.2.world.state.inbox userID firstID
  rows : ∀ later ∈ deployed.2.world.state.inbox.rows, later.userId = userID →
    later.messageId = secondID → ∃ earlier ∈ deployed.2.world.state.inbox.rows,
      earlier.userId = userID ∧ earlier.messageId = firstID ∧ earlier.id < later.id

section Steps

variable {userID firstID secondID : Bytes} {consumers later : Sync.Consumers}

/-- The inbox after an event of the consumers: rows stay, and a new one was inserted by
a handler and has a larger id than all others. -/
theorem inbox_of_next {events : List (Event Sync.Call Sync.Choice)}
    {event : Event Sync.Call Sync.Choice}
    (ran : (Pool.start Sync.State.initial).run (Sync.consumers codec) events = some consumers)
    (stepped : consumers.next (Sync.consumers codec) event = some later) :
    (∀ row ∈ consumers.world.state.inbox.rows, row ∈ later.world.state.inbox.rows) ∧
    ∀ row ∈ later.world.state.inbox.rows, row ∈ consumers.world.state.inbox.rows ∨
      (∀ other ∈ consumers.world.state.inbox.rows, other.id < row.id) ∧
        ∃ thread ∈ consumers.threads, ∃ record message,
          HandlesFor codec thread.call record row.userId message ∧
            message.messageId.bytes = row.messageId := by
  rcases Pool.next_cases stepped with
    ⟨_, -, -, rfl⟩ | ⟨active, _, call, command, _, _, _, -, found, executed, rfl⟩ |
    ⟨_, _, _, _, -, -, rfl⟩
  · exact ⟨fun _ member => member, fun _ member => .inl member⟩
  · have effect := Sync.exec_effect executed
    refine ⟨effect.rows_grow, fun row member => ?_⟩
    rcases effect.rows_from member with old | ⟨rfl, larger⟩
    · exact .inl old
    · have obeying : consumers.Obeying (Sync.Issues codec) :=
        Pool.run_obeying (Sync.code_issues codec) ran
      obtain ⟨record, user, message, handles, columns⟩ := obeying.allows found
      have isUser : some row.userId = some user := congrArg Inbox.NewEntry.userId columns
      have isMessage : some row.messageId = message.messageId :=
        congrArg Inbox.NewEntry.messageId columns
      obtain rfl := Option.some.inj isUser
      exact .inr ⟨larger, _, List.mem_of_getElem? found, record, message, handles,
        by rw [← isMessage]; rfl⟩
  · exact ⟨fun _ member => member, fun _ member => .inl member⟩

/-- **The step lemma.** What is stored is stored by a handler, and a handler of the
second message starts only when the first one is stored. -/
theorem Preceded.next {events : List Happening} {event : Happening}
    (preceded : Preceded codec userID firstID secondID deployed)
    (ran : run (next codec) start events = some deployed)
    (stored : ∀ record message, InTurn deployed record →
      record ∈ deployed.2.world.state.published → Carries codec record userID message →
      message.messageId.bytes = secondID →
      Inbox.Table.HasRow deployed.2.world.state.inbox userID firstID)
    (inOrder : ReadsInOrder deployed event) (stepped : next codec deployed event = some after) :
    Preceded codec userID firstID secondID after := by
  rcases coupled_cases stepped with
    ⟨own, servers, rfl, -, -, rfl⟩ | ⟨own, consumers, rfl, -, moved, rfl⟩
  · exact ⟨preceded.handlers, preceded.rows⟩
  obtain ⟨kept, added⟩ := inbox_of_next (consumers_ran ran) moved
  refine ⟨fun thread member record message handles isSecond => ?_,
    fun later member isUser isSecond => ?_⟩
  · have held : Inbox.Table.HasRow deployed.2.world.state.inbox userID firstID := by
      rcases Pool.call_of_mem_next moved member with ⟨old, isOld, same⟩ | ⟨rfl, isAdmitted⟩
      · exact preceded.handlers old isOld record message (same ▸ handles) isSecond
      · cases isCall : thread.call with
        | handle pushClient found =>
            rw [isCall] at handles inOrder isAdmitted
            obtain rfl := Option.some.inj handles.handled
            exact stored found message inOrder (of_decide_eq_true isAdmitted) handles.carries
              isSecond
        | _ => rw [isCall] at handles; cases handles.handled
    obtain ⟨row, isRow, same⟩ := held
    exact ⟨row, kept row isRow, same⟩
  · rcases added later member with old | ⟨larger, thread, isThread, record, message, handles, isId⟩
    · obtain ⟨earlier, isEarlier, user, identity, less⟩ := preceded.rows later old isUser isSecond
      exact ⟨earlier, kept earlier isEarlier, user, identity, less⟩
    · rw [isUser] at handles
      obtain ⟨earlier, isEarlier, user, identity⟩ :=
        preceded.handlers thread isThread record message handles (isId.trans isSecond)
      exact ⟨earlier, kept earlier isEarlier, user, identity, larger earlier isEarlier⟩

end Steps

/-- A chat message to one user and to no group, with an id and a sender. -/
structure IsDirect (message : AppMessage) (userID messageID : Bytes) : Prop where
  identified : message.messageId = some messageID
  hasId : messageID ≠ []
  hasUser : userID ≠ []
  chat : ∃ chat, message.body = some (.chat (some chat)) ∧ chat.recipientId = some userID ∧
    chat.groupId.len = 0 ∧ 0 < chat.senderId.len

theorem IsDirect.route {message : AppMessage} {userID messageID : Bytes}
    (direct : IsDirect message userID messageID) :
    routeMessage (some message) = .ok ⟨userTopic userID, some userID⟩ := by
  obtain ⟨chat, body, toUser, noGroup, -⟩ := direct.chat
  have longUser : 0 < chat.recipientId.len :=
    Slice.len_pos_iff.mpr ⟨userID, toUser, direct.hasUser⟩
  simp only [routeMessage, body, routeChat, noGroup, Nat.lt_irrefl, if_false, longUser, if_true]
  rw [toUser]
  rfl

/-- A direct message is one on both sides of the wire. -/
theorem IsDirect.of_wire {message other : AppMessage} {userID messageID : Bytes}
    (direct : IsDirect message userID messageID) (same : other.wire = message.wire) :
    IsDirect other userID messageID := by
  obtain ⟨identified, hasId, hasUser, chat, body, toUser, noGroup, hasSender⟩ := direct
  have sameId : wireSlice other.messageId = wireSlice message.messageId :=
    congrArg AppMessage.messageId same
  have sameBody : other.body.map Body.wire = message.body.map Body.wire :=
    congrArg AppMessage.body same
  rw [body, Option.map_some, Option.map_eq_some_iff] at sameBody
  obtain ⟨found, isFound, sameChat⟩ := sameBody
  cases found with
  | chat found =>
      have fields : (found.getD {}).wire = chat.wire :=
        Option.some.inj (Body.chat.inj sameChat)
      have recipient := congrArg ChatMessage.recipientId fields
      have group := congrArg (fun chat => chat.groupId.len) fields
      have sender := congrArg (fun chat => chat.senderId.len) fields
      simp only [ChatMessage.wire, toUser, wireSlice_len] at recipient group sender
      have named := eq_some_of_wireSlice_eq hasUser recipient
      cases found with
      | none => cases named
      | some found =>
          have isNumbered := eq_some_of_wireSlice_eq hasId (identified ▸ sameId)
          refine ⟨isNumbered, hasId, hasUser, found, isFound, named, ?_, ?_⟩
          · exact group.trans noGroup
          · exact Nat.lt_of_lt_of_eq hasSender sender.symm
  | _ => cases sameChat

section Order

variable {first : AppMessage} {userID firstID secondID : Bytes}

/-- The first message is stored when it is the turn of a record of the second one: its
own record came before in the log, and the handlers of that one have finished. -/
theorem first_stored (roundTrips : ∀ message, codec.RoundTrips message)
    (early : run (next codec) start past = some middle)
    (late : run (next codec) middle future = some deployed) (undisturbed : Undisturbed deployed)
    (subscribed : Subscribed deployed) (accepted : Outbox.Accepted middle.1 first)
    (direct : IsDirect first userID firstID)
    (unsubmitted : ∀ message, Outbox.Submitted codec middle.1 message →
      message.messageId ≠ some secondID)
    (toUser : ∀ row ∈ deployed.1.world.state.outbox.rows, row.messageId = secondID →
      row.topic = userTopic userID)
    {record : ConsumerMessage} {message : AppMessage} (turn : InTurn deployed record)
    (published : record ∈ deployed.2.world.state.published)
    (carries : Carries codec record userID message)
    (isSecond : message.messageId.bytes = secondID) :
    Inbox.Table.HasRow deployed.2.world.state.inbox userID firstID := by
  have ran : run (next codec) start (past ++ future) = some deployed := run_trans early late
  -- The record is a copy of an outbox row with the id of the second message.
  obtain ⟨found, newer, origin⟩ := published_origin ran published
  obtain rfl := origin.decoded (roundTrips found) carries
  have isId : newer.messageId = secondID := by
    rw [← Outbox.wire_messageId_bytes origin.isRow, isSecond]
  have newerTopic := toUser newer origin.stored isId
  have topic : record.topic = userTopic userID := by
    rcases origin.topic with same | dead
    · rw [same, newerTopic]
    · exact absurd dead (carriesUsers_ne_deadLetter turn.subscribed)
  -- A record of the first message is before it, and has a handler.
  obtain ⟨before, logged, rest, isLog, value, handled⟩ := turn.reached
  rw [topic] at isLog
  obtain ⟨older, isOlder, isFirst, earlier⟩ := Outbox.record_preceded roundTrips (servers_ran early)
    (run_coupled_left late) undisturbed.clean undisturbed.ticks accepted (isId ▸ unsubmitted)
    direct.route origin.stored newerTopic (Option.some.inj (value.symm.trans origin.value)) isLog
  obtain ⟨thread, member, other, isHandler, otherTopic, otherValue⟩ := handled _ earlier
  -- Every handler of the first message is one of this topic.
  have finished : ∀ thread ∈ deployed.2.threads, ∀ record, thread.call.handled = some record →
      record.value = some older.payload → thread.result? ≠ none := by
    intro thread member copy handles isCopy
    have isPublished := Sync.run_published (consumers_ran ran) thread member copy handles
    obtain ⟨_, source, copied⟩ := published_origin ran isPublished
    obtain rfl : source = older := Outbox.eq_of_payload_eq (servers_ran ran) roundTrips
      copied.stored isOlder (Option.some.inj (copied.value.symm.trans isCopy))
    obtain ⟨route, routed, sourceTopic, -⟩ := isFirst.route
    obtain rfl := Except.ok.inj (direct.route.symm.trans routed)
    apply turn.single thread member copy handles
    rcases copied.topic with same | dead
    · rw [same, sourceTopic, topic]
    · exact absurd dead (carriesUsers_ne_deadLetter (subscribed thread member copy handles))
  obtain ⟨known, submitted, ofKnown⟩ := Outbox.row_submitted (servers_ran ran) isOlder
  obtain ⟨chat, body, recipient, -, hasSender⟩ := direct.chat
  have carriesFirst := carries_chat roundTrips body recipient direct.hasUser isFirst.payload
    otherValue
  have sameWire : first.wire = known.wire := ProtoCodec.wire_eq_of_marshal_eq (roundTrips first)
    (roundTrips known) isFirst.payload ofKnown.payload
  have identified : known.wire.messageId.isSome := by
    rw [← sameWire]
    exact wireSlice_isSome_iff.mpr
      (Slice.len_pos_iff.mpr ⟨firstID, direct.identified, direct.hasId⟩)
  have wireSender : (extractSenderID known.wire).isSome := by
    rw [← sameWire]
    exact (Sync.extractSenderID_wire_isSome_iff direct.route).mpr ⟨chat, body, hasSender⟩
  have stored := stored_of_handled ran undisturbed.faultless roundTrips submitted isOlder ofKnown
    identified wireSender finished member ⟨isHandler, sameWire ▸ carriesFirst⟩ otherValue
  rwa [Option.some.inj (isFirst.messageId.symm.trans direct.identified)] at stored

/-- Nothing of the second message is there when nobody has submitted it. -/
theorem preceded_of_unsubmitted (roundTrips : ∀ message, codec.RoundTrips message)
    (ran : run (next codec) start past = some deployed)
    (unsubmitted : ∀ message, Outbox.Submitted codec deployed.1 message →
      message.messageId ≠ some secondID) :
    Preceded codec userID firstID secondID deployed := by
  have absent : ∀ record user message, record ∈ deployed.2.world.state.published →
      Carries codec record user message → message.messageId.bytes ≠ secondID := by
    intro record user message published carries isSecond
    obtain ⟨found, row, origin⟩ := published_origin ran published
    obtain rfl := origin.decoded (roundTrips found) carries
    apply unsubmitted found origin.submitted
    rw [origin.isRow.messageId, ← Outbox.wire_messageId_bytes origin.isRow, isSecond]
  refine ⟨fun thread member record message handles isSecond => ?_,
    fun later member isUser isSecond => ?_⟩
  · have published := Sync.run_published (consumers_ran ran) thread member record handles.handled
    exact absurd isSecond (absent record userID message published handles.carries)
  · obtain ⟨record, user, message, published, carries, columns⟩ :=
      Sync.row_handled (consumers_ran ran) member
    have isMessage : some later.messageId = message.messageId :=
      congrArg Inbox.NewEntry.messageId columns
    refine absurd ?_ (absent record user message published carries)
    rw [← isMessage, ← isSecond]
    rfl

/-- When the inbox has the row of a direct message, the outbox row with its id is for the
topic of the recipient, and always was. -/
theorem topic_of_inboxRow (roundTrips : ∀ message, codec.RoundTrips message)
    {events : List Happening} (ran : run (next codec) start events = some deployed)
    (reaches : run (next codec) middle future = some deployed) {second : AppMessage}
    (direct : IsDirect second userID secondID) {later : Inbox.Entry}
    (member : later ∈ deployed.2.world.state.inbox.rows) (isRow : IsInboxRowOf codec second later) :
    ∀ row ∈ middle.1.world.state.outbox.rows, row.messageId = secondID →
      row.topic = userTopic userID := by
  -- The message of the outbox row reads back as the second one.
  obtain ⟨record, user, found, published, carries, columns⟩ :=
    Sync.row_handled (consumers_ran ran) member
  obtain ⟨known, stored, origin⟩ := published_origin ran published
  obtain rfl := origin.decoded (roundTrips known) carries
  have ofKnown := origin.inboxRow carries.recipient columns
  have sameWire : known.wire = second.wire := ProtoCodec.wire_eq_of_marshal_eq (roundTrips known)
    (roundTrips second) ofKnown.payload isRow.payload
  have knownDirect := direct.of_wire sameWire
  obtain ⟨route, routed, topic, -⟩ := origin.isRow.route
  obtain rfl := Except.ok.inj (knownDirect.route.symm.trans routed)
  intro row isEarly isId
  obtain ⟨kept, isKept, copies⟩ := (Outbox.since_of_run (run_coupled_left reaches)).kept row isEarly
  have sameId : kept.messageId = stored.messageId := by
    rw [← copies.content.messageId, isId]
    exact Option.some.inj (knownDirect.identified.symm.trans origin.isRow.messageId)
  obtain rfl : kept = stored := SerialTable.eq_of_key_eq isKept origin.stored sameId
  rw [copies.content.topic, topic]

/-- What every state has after the first message was accepted. -/
structure Ordered (codec : ProtoCodec) (middle : Deployed) (userID firstID secondID : Bytes)
    (deployed : Deployed) : Prop where
  reached : ∃ events, run (next codec) middle events = some deployed
  subscribed : Subscribed deployed
  preceded : Preceded codec userID firstID secondID deployed

/-- The check of a turn on a given state. -/
def inTurn (deployed : Deployed) (record : ConsumerMessage) : Bool :=
  let log := deployed.1.world.state.log record.topic
  Sync.carriesUsers record.topic &&
  deployed.2.threads.all (fun thread => thread.result?.isSome ||
    !thread.call.handled.any fun other => other.topic == record.topic) &&
  (List.range log.length).any fun position =>
    log[position]?.any (fun logged => record.value == some logged.value) &&
    (log.take position).all fun earlier => deployed.2.threads.any fun thread =>
      thread.call.handled.any fun other =>
        other.topic == record.topic && other.value == some earlier.value

def readsInOrder (deployed : Deployed) : Happening → Bool
  | .inr (.spawn (.handle _ record)) => inTurn deployed record
  | _ => true

theorem inTurn_of_check {record : ConsumerMessage} (checked : inTurn deployed record = true) :
    InTurn deployed record := by
  simp only [inTurn, Bool.and_eq_true, List.all_eq_true, List.any_eq_true, Bool.or_eq_true,
    Bool.not_eq_true', Option.any_eq_true, beq_iff_eq] at checked
  obtain ⟨⟨subscribed, single⟩, position, -, ⟨logged, found, value⟩, handled⟩ := checked
  refine ⟨subscribed, fun thread member other isOther topic => ?_, ?_⟩
  · rcases single thread member with finished | foreign
    · exact Option.isSome_iff_ne_none.mp finished
    · rw [isOther] at foreign
      simp [topic] at foreign
  · obtain ⟨below, rfl⟩ := List.getElem?_eq_some_iff.mp found
    refine ⟨_, _, (deployed.1.world.state.log record.topic).drop (position + 1), ?_, value, handled⟩
    rw [← List.drop_eq_getElem_cons below, List.take_append_drop]

theorem readsInOrder_of_check {event : Happening} (checked : readsInOrder deployed event = true) :
    ReadsInOrder deployed event := by
  unfold ReadsInOrder
  split
  · exact inTurn_of_check checked
  · trivial

/-- The record of the second message. -/
def secondRecord : ConsumerMessage :=
  { topic := utf8 "user-aa", value := some Outbox.secondChatPayload }

/-- The relays publish the first message twice, and after the rebalance its record is
handled again. -/
def consumersInOrder : List Happening :=
  Outbox.overlappingRelays.map Sum.inl ++
    [.inr (.spawn (.publish sampleRecord)), .inr (.step 0 (.ok 10)),
      .inr (.spawn (.publish secondRecord)), .inr (.step 1 (.ok 10)),
      .inr (.spawn (.handle false sampleRecord)), .inr (.step 2 (.ok 11)), .inr (.step 2 (.ok 12)),
      .inr (.spawn (.handle false secondRecord)), .inr (.step 3 (.ok 13)), .inr (.step 3 (.ok 14)),
      .inr (.spawn (.handle false sampleRecord)), .inr (.step 4 (.ok 15))]

/-- What the sample needs of the last state. -/
def sampleOrdered (deployed : Deployed) : Bool :=
  Outbox.sampleLogged deployed.1 &&
  deployed.2.world.trace.all isFaultless &&
  deployed.2.world.state.inbox.rows.any fun row =>
    row.userId == [0xaa] && row.messageId == [8] && row.senderId == [1] &&
      row.conversationId == some [0xaa] && row.payload == Outbox.secondChatPayload

end Order

end FProto.Deployment

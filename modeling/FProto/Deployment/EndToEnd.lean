import FProto.Outbox.Provenance
import FProto.Sync.Discovery
import FProto.Sync.Provenance

/-!
Owns the whole way of a message through the deployment: gateways, dispatchers
and relays on one side, consumers on the other, and the topic logs between
them. All of their commands interleave, and all of their failures are possible.

Two results. Nothing is made up on the way: every inbox row is the row of a
chat message that somebody submitted, for the user the message names and with
its sender. Nothing is dropped without a fault: when the relays have published
every row, the consumers have handled every record of a user or group topic, and
no call of a consumer to Redis or PostgreSQL failed, an accepted chat message is
in the inbox of its recipient exactly once.
-/

namespace FProto.Deployment

open FProto.Foundation
open FProto.Protocol
open FProto.Kafka
open FProto.Dispatcher
open FProto.Sync (Carries extractRecipientID extractSenderID extractConversationID topicRecipient)

/-! ### The system -/

abbrev Deployed := Outbox.Servers × Sync.Consumers

abbrev Happening := Event Outbox.Call Outbox.Choice ⊕ Event Sync.Call Sync.Choice

/-- The record is in the log of its topic. -/
def inLog (state : Outbox.State) (record : ConsumerMessage) : Bool :=
  (state.log record.topic).any fun logged => record.value == some logged.value

/-- Consumers get their records from the logs. -/
def guard (servers : Outbox.Servers) (_ : Sync.Consumers) : Happening → Bool
  | .inr (.spawn (.publish record)) => inLog servers.world.state record
  | _ => true

def next (codec : ProtoCodec) : Deployed → Happening → Option Deployed :=
  coupled (fun servers event => servers.next (Outbox.pipeline codec) event)
    (fun consumers event => consumers.next (Sync.consumers codec) event) guard

def start : Deployed := (Pool.start Outbox.State.initial, Pool.start Sync.State.initial)

variable {codec : ProtoCodec} {events : List Happening} {deployed : Deployed}

theorem servers_ran (ran : run (next codec) start events = some deployed) :
    (Pool.start Outbox.State.initial).run (Outbox.pipeline codec)
      (events.filterMap Sum.getLeft?) = some deployed.1 :=
  run_coupled_left ran

theorem consumers_ran (ran : run (next codec) start events = some deployed) :
    (Pool.start Sync.State.initial).run (Sync.consumers codec)
      (events.filterMap Sum.getRight?) = some deployed.2 :=
  run_coupled_right ran

/-! ### The logs between the two sides -/

theorem inLog_iff {state : Outbox.State} {record : ConsumerMessage} :
    inLog state record = true ↔
      ∃ logged ∈ state.log record.topic, record.value = some logged.value := by
  simp [inLog]

theorem inLog_evolve {before after : Outbox.State} {record : ConsumerMessage}
    (evolves : before.Evolves after) (logged : inLog before record = true) :
    inLog after record = true := by
  obtain ⟨found, member, value⟩ := inLog_iff.mp logged
  exact inLog_iff.mpr ⟨found, evolves.log _ _ member, value⟩

/-- Every record that is being made visible to consumers is in its log. -/
def Linked (deployed : Deployed) : Prop :=
  ∀ thread ∈ deployed.2.threads, ∀ record, thread.call = .publish record →
    inLog deployed.1.world.state record = true

theorem evolves_of_next {servers after : Outbox.Servers}
    {event : Event Outbox.Call Outbox.Choice}
    (stepped : servers.next (Outbox.pipeline codec) event = some after) :
    servers.world.state.Evolves after.world.state := by
  rcases Pool.next_cases stepped with
    ⟨_, -, -, rfl⟩ | ⟨_, _, _, _, _, _, _, -, -, executed, rfl⟩ | ⟨_, _, _, _, -, -, rfl⟩
  · exact Outbox.State.Evolves.refl _
  · exact (Outbox.exec_effect executed).evolves
  · exact Outbox.State.Evolves.refl _

/-- **The step lemma.** Logs only grow, and a record is made visible only from
its log. -/
theorem Linked.next {after : Deployed} {event : Happening} (linked : Linked deployed)
    (stepped : next codec deployed event = some after) : Linked after := by
  rcases coupled_cases stepped with
    ⟨own, servers, rfl, -, moved, rfl⟩ | ⟨own, consumers, rfl, admitted, moved, rfl⟩
  · intro thread member record isCall
    exact inLog_evolve (evolves_of_next moved) (linked thread member record isCall)
  · intro thread member record isCall
    rcases Pool.call_of_mem_next moved member with ⟨old, isOld, same⟩ | ⟨rfl, -⟩
    · exact linked old isOld record (same.trans isCall)
    · rw [isCall] at admitted
      exact admitted

theorem run_linked (ran : run (next codec) start events = some deployed) : Linked deployed :=
  run_invariant (fun _ _ _ linked stepped => Linked.next linked stepped)
    (fun _ member => absurd member List.not_mem_nil) ran

/-- Where a record that consumers see comes from: an outbox row of a submitted
message, sent to the topic of the row or to the dead-letter topic. -/
structure Origin (codec : ProtoCodec) (deployed : Deployed) (record : ConsumerMessage)
    (message : AppMessage) (row : Outbox.Entry) : Prop where
  submitted : Outbox.Submitted codec deployed.1 message
  stored : row ∈ deployed.1.world.state.outbox.rows
  isRow : Outbox.IsRowOf codec message row
  value : record.value = some row.payload
  topic : record.topic = row.topic ∨ record.topic = topicDeadLetter

theorem published_origin (ran : run (next codec) start events = some deployed)
    {record : ConsumerMessage} (published : record ∈ deployed.2.world.state.published) :
    ∃ message row, Origin codec deployed record message row := by
  obtain ⟨thread, member, isCall⟩ := Sync.published_by_call (consumers_ran ran) published
  obtain ⟨logged, isLogged, value⟩ := inLog_iff.mp (run_linked ran thread member record isCall)
  obtain ⟨row, stored, same, topic⟩ := Outbox.record_copied (servers_ran ran) isLogged
  obtain ⟨message, submitted, isRow⟩ := Outbox.row_submitted (servers_ran ran) stored
  exact ⟨message, row, submitted, stored, isRow, by rw [value, same], topic⟩

/-- A consumer decodes the message that was submitted. -/
theorem Origin.decoded {record : ConsumerMessage} {message found : AppMessage}
    {row : Outbox.Entry} {userID : Bytes} (origin : Origin codec deployed record message row)
    (roundTrips : codec.RoundTrips message) (carries : Carries codec record userID found) :
    found = message.wire := by
  have decoded := carries.decoded
  rw [origin.value] at decoded
  exact Except.ok.inj (decoded.symm.trans (roundTrips row.payload origin.isRow.payload))

theorem eq_some_of_wireSlice {slice : Slice} {bytes : Bytes} (same : wireSlice slice = some bytes) :
    slice = some bytes := by
  rcases slice with _ | _ | _
  · cases same
  · cases same
  · exact same

theorem topicRecipient_deadLetter : topicRecipient topicDeadLetter = none := rfl

theorem wireSlice_of_len_pos {slice : Slice} (long : 0 < slice.len) : wireSlice slice = slice := by
  obtain ⟨bytes, rfl, nonempty⟩ := Slice.len_pos_iff.mp long
  cases bytes with
  | nil => exact absurd rfl nonempty
  | cons byte bytes => rfl

/-- Bytes that are there are the same on both sides of the wire. -/
theorem eq_some_of_wireSlice_eq {slice : Slice} {bytes : Bytes} (nonempty : bytes ≠ [])
    (same : wireSlice slice = wireSlice (some bytes)) : slice = some bytes := by
  rw [wireSlice_of_len_pos (Slice.len_pos_iff.mpr ⟨bytes, rfl, nonempty⟩)] at same
  exact eq_some_of_wireSlice same

/-- The recipient of a chat message on its way is the one it names. -/
theorem Origin.recipient {record : ConsumerMessage} {message : AppMessage} {row : Outbox.Entry}
    {userID : Bytes} {chat : ChatMessage} (origin : Origin codec deployed record message row)
    (body : message.body = some (.chat (some chat)))
    (recipient : extractRecipientID message.wire record.topic = some userID) :
    wireSlice chat.recipientId = some userID := by
  rw [Sync.extractRecipientID_wire_chat body] at recipient
  split at recipient
  · exact recipient
  · next noRecipient =>
    obtain ⟨route, routed, topic, -⟩ := origin.isRow.route
    rcases origin.topic with isRow | isDead
    · rw [isRow, topic, Sync.topicRecipient_of_group_chat routed body noRecipient] at recipient
      cases recipient
    · rw [isDead, topicRecipient_deadLetter] at recipient
      cases recipient

/-! ### Nothing is made up -/

/-- The inbox row of a chat message. -/
structure IsInboxRowOf (codec : ProtoCodec) (message : AppMessage) (row : Inbox.Entry) : Prop where
  messageId : message.messageId = some row.messageId
  payload : codec.marshal message = .ok row.payload
  chat : ∃ chat, message.body = some (.chat (some chat)) ∧ chat.recipientId = some row.userId ∧
    chat.senderId = some row.senderId ∧
    row.conversationId = if 0 < chat.groupId.len then chat.groupId else some row.userId

/-- The columns that a handler stores for a record of a message. -/
theorem Origin.inboxRow {record : ConsumerMessage} {message : AppMessage} {row : Outbox.Entry}
    {stored : Inbox.Entry} {userID : Bytes} (origin : Origin codec deployed record message row)
    (recipient : extractRecipientID message.wire record.topic = some userID)
    (columns : stored.columns = Sync.newEntry userID message.wire record) :
    IsInboxRowOf codec message stored := by
  have user : some stored.userId = some userID := congrArg Inbox.NewEntry.userId columns
  have identity : some stored.messageId = message.wire.messageId :=
    congrArg Inbox.NewEntry.messageId columns
  have conversation : stored.conversationId = extractConversationID message.wire record.topic :=
    congrArg Inbox.NewEntry.conversationId columns
  have sender : some stored.senderId = extractSenderID message.wire :=
    congrArg Inbox.NewEntry.senderId columns
  have payload : some stored.payload = record.value := congrArg Inbox.NewEntry.payload columns
  obtain ⟨route, routed, -⟩ := origin.isRow.route
  -- Only a chat message has a sender to store.
  have hasSender : (extractSenderID message.wire).isSome := by rw [← sender]; rfl
  obtain ⟨chat, body, -⟩ := (Sync.extractSenderID_wire_isSome_iff routed).mp hasSender
  have toUser := origin.recipient body recipient
  obtain rfl := Option.some.inj user
  have isSender : extractSenderID message.wire = wireSlice chat.senderId := by
    simp [extractSenderID, AppMessage.wire, body, Body.wire, ChatMessage.wire]
  have isConversation : extractConversationID message.wire record.topic =
      if 0 < chat.groupId.len then wireSlice chat.groupId else wireSlice chat.recipientId := by
    simp [extractConversationID, AppMessage.wire, body, Body.wire, ChatMessage.wire]
  refine ⟨eq_some_of_wireSlice identity.symm, ?_, chat, body, eq_some_of_wireSlice toUser,
    eq_some_of_wireSlice (isSender.symm.trans sender.symm), ?_⟩
  · rw [origin.isRow.payload, ← Option.some.inj (payload.trans origin.value)]
  · rw [conversation, isConversation, toUser]
    split
    · next long => exact wireSlice_of_len_pos long
    · rfl

/-- An inbox row is the row of a chat message that was submitted. -/
theorem row_submitted (roundTrips : ∀ message, codec.RoundTrips message)
    (ran : run (next codec) start events = some deployed) {row : Inbox.Entry}
    (member : row ∈ deployed.2.world.state.inbox.rows) :
    ∃ message, Outbox.Submitted codec deployed.1 message ∧ IsInboxRowOf codec message row := by
  obtain ⟨record, userID, found, published, carries, columns⟩ :=
    Sync.row_handled (consumers_ran ran) member
  obtain ⟨message, outboxRow, origin⟩ := published_origin ran published
  obtain rfl := origin.decoded (roundTrips message) carries
  exact ⟨message, origin.submitted, origin.inboxRow carries.recipient columns⟩

/-- **Nothing is made up on the way.** In every state of every schedule of the whole
deployment, every inbox row is the row of a chat message that was submitted: it
is for the user the message names, with the sender, the conversation and the
payload of the message. No user has two rows for one message. -/
theorem inbox_rows_were_submitted (roundTrips : ∀ message, codec.RoundTrips message)
    (ran : run (next codec) start events = some deployed) :
    (∀ row ∈ deployed.2.world.state.inbox.rows, ∃ message,
      Outbox.Submitted codec deployed.1 message ∧ IsInboxRowOf codec message row) ∧
    (deployed.2.world.state.inbox.rows.map fun row => (row.userId, row.messageId)).Nodup := by
  refine ⟨?_, deployed.2.world.state.inbox.keys_nodup⟩
  intro row member
  exact row_submitted roundTrips ran member

/-- The record of the sample message. -/
def sampleRecord : ConsumerMessage := { topic := utf8 "user-aa", value := some sampleChatPayload }

/-- The sample message goes through gateway, dispatcher and relay, and its record is
delivered to two handlers at once. -/
def sampleHappenings : List Happening :=
  Outbox.sampleSchedule.map Sum.inl ++
    [.inr (.spawn (.publish sampleRecord)), .inr (.step 0 (.ok 8)),
      .inr (.spawn (.handle true sampleRecord)), .inr (.spawn (.handle false sampleRecord)),
      .inr (.step 1 (.ok 9)), .inr (.step 2 (.ok 9)), .inr (.step 1 (.ok 10)),
      .inr (.step 1 (.fail "offline"))]

theorem sampleCodec_roundTrips (message : AppMessage) : Outbox.sampleCodec.RoundTrips message :=
  Outbox.ofList_roundTrips _ (by simp) message

theorem inbox_rows_were_submitted_sample :
    ∃ deployed row, run (next Outbox.sampleCodec) start sampleHappenings = some deployed ∧
      row ∈ deployed.2.world.state.inbox.rows ∧
      ∃ message, Outbox.Submitted Outbox.sampleCodec deployed.1 message ∧
        IsInboxRowOf Outbox.sampleCodec message row := by
  have evaluated : (run (next Outbox.sampleCodec) start sampleHappenings).any (fun deployed =>
      deployed.2.world.state.inbox.rows.length == 1) = true := by
    decide +kernel
  obtain ⟨deployed, ran, one⟩ := (Option.any_eq_true _ _).mp evaluated
  have nonempty : 0 < deployed.2.world.state.inbox.rows.length := by
    rw [beq_iff_eq] at one
    omega
  obtain ⟨row, member⟩ := List.exists_mem_of_length_pos nonempty
  exact ⟨deployed, row, ran, member,
    (inbox_rows_were_submitted sampleCodec_roundTrips ran).1 row member⟩

/-! ### Nothing is dropped without a fault -/

/-- A call of a consumer to Redis or PostgreSQL that did not fail, except that an
insert is refused for a `NULL` column. -/
def isFaultless : Entry Sync.Command Sync.Reply → Bool
  | ⟨_, .setNX _, .error _⟩ => false
  | ⟨_, .insert entry, .error _⟩ =>
      !(entry.userId.isSome && entry.messageId.isSome && entry.senderId.isSome &&
        entry.payload.isSome)
  | _ => true

/-- All work is done, without a fault on the side of the consumers. They work on the
topics of users and groups. -/
structure Quiescent (deployed : Deployed) : Prop where
  published : ∀ row ∈ deployed.1.world.state.outbox.rows, row.status = .published
  consumed : ∀ topic, Sync.carriesUsers topic = true →
    ∀ record ∈ deployed.1.world.state.log topic,
    ∃ thread ∈ deployed.2.threads, ∃ consumed, thread.call.handled = some consumed ∧
      consumed.topic = topic ∧ consumed.value = some record.value
  finished : ∀ thread ∈ deployed.2.threads, ∃ result, thread.program = .done result
  faultless : ∀ entry ∈ deployed.2.world.trace, isFaultless entry = true

theorem carriesUsers_ne_deadLetter {topic : Bytes} (carries : Sync.carriesUsers topic = true) :
    topic ≠ topicDeadLetter := by
  rintro rfl
  exact absurd carries (by decide)

/-- Chat messages go to the topics of users and groups. -/
theorem carriesUsers_of_chat {message : AppMessage} {chat : ChatMessage} {route : Route}
    (body : message.body = some (.chat (some chat)))
    (routed : routeMessage (some message) = .ok route) :
    Sync.carriesUsers route.topic = true := by
  simp only [routeMessage, body] at routed
  obtain ⟨found, -, ⟨group, -, -, rfl⟩ | ⟨recipient, -, -, -, rfl⟩⟩ := routeChat_ok routed
  · exact Sync.carriesUsers_groupTopic group
  · exact Sync.carriesUsers_userTopic recipient

/-- What has the message id of an outbox row comes from that row. -/
theorem origin_of_id (ran : run (next codec) start events = some deployed)
    (roundTrips : ∀ message, codec.RoundTrips message) {record : ConsumerMessage} {userID : Bytes}
    {message found : AppMessage} {row : Outbox.Entry}
    (submitted : Outbox.Submitted codec deployed.1 message)
    (stored : row ∈ deployed.1.world.state.outbox.rows) (isRow : Outbox.IsRowOf codec message row)
    (published : record ∈ deployed.2.world.state.published)
    (carries : Carries codec record userID found)
    (same : found.messageId.bytes = row.messageId) :
    Origin codec deployed record message row ∧ found = message.wire := by
  obtain ⟨other, otherRow, origin⟩ := published_origin ran published
  obtain rfl := origin.decoded (roundTrips other) carries
  have sameId : otherRow.messageId = row.messageId := by
    rw [← Outbox.wire_messageId_bytes origin.isRow, same]
  obtain rfl : otherRow = row := SerialTable.eq_of_key_eq origin.stored stored sameId
  have isOrigin : Origin codec deployed record message otherRow :=
    ⟨submitted, stored, isRow, origin.value, origin.topic⟩
  exact ⟨isOrigin, isOrigin.decoded (roundTrips message) carries⟩

section Handlers

variable (ran : run (next codec) start events = some deployed)
  (faultless : ∀ entry ∈ deployed.2.world.trace, isFaultless entry = true)

include ran faultless

/-- The handler that has marked a message has stored it. -/
theorem stored_by_winner {index : Nat}
    {thread : Thread Sync.Command Sync.Reply (Except String Unit) Sync.Call}
    (found : deployed.2.threads[index]? = some thread) (finished : thread.result? ≠ none)
    {record : ConsumerMessage} {userID : Bytes} {message : AppMessage}
    (handles : Sync.HandlesFor codec thread.call record userID message)
    (won : ⟨index, .setNX (Sync.dedupKey userID message.messageId.bytes), .ok true⟩ ∈
      deployed.2.world.trace)
    (identified : message.messageId.isSome) (hasSender : (extractSenderID message).isSome)
    (hasValue : record.value.isSome) :
    Inbox.Table.HasRow deployed.2.world.state.inbox userID message.messageId.bytes := by
  obtain ⟨result, isResult⟩ := Option.ne_none_iff_exists'.mp finished
  have meets := Pool.finished_meets (Sync.code_meets codec) (consumers_ran ran) found
    (Thread.result?_eq_some isResult)
  obtain ⟨answer, inserted⟩ := (meets record userID message handles).2 (mem_ownPast.mpr won)
  have traced := mem_ownPast.mp inserted
  cases answer with
  | error error =>
      have incomplete := faultless _ traced
      simp [isFaultless, Sync.newEntry, identified, hasSender, hasValue] at incomplete
  | ok _ =>
      obtain ⟨row, member, user, identity⟩ :=
        (Sync.run_backed (consumers_ran ran)).stored _ _ traced
      have isUser : userID = row.userId := Option.some.inj user
      have isMessage : message.messageId = some row.messageId := identity
      exact ⟨row, member, isUser.symm, by rw [isMessage]; rfl⟩

/-- When a handler finds a message marked, some handler has marked it. -/
theorem exists_winner {index : Nat} {key : Bytes}
    (seen : ⟨index, .setNX key, .ok false⟩ ∈ deployed.2.world.trace) :
    ∃ other, ⟨other, .setNX key, .ok true⟩ ∈ deployed.2.world.trace := by
  obtain ⟨⟨other, command, answer⟩, isMark, marks⟩ :=
    (Sync.run_backed (consumers_ran ran)).seen index key seen
  cases command with
  | setNX marked =>
      cases answer with
      | error error => exact absurd (faultless _ isMark) Bool.false_ne_true
      | ok set =>
          cases set with
          | false => exact absurd marks id
          | true =>
              obtain rfl : marked = key := marks
              exact ⟨other, isMark⟩
  | _ => exact absurd marks id

/-- A message that some handler got is stored, by this handler or by the one that
marked it first, once the handlers of its records have finished. -/
theorem stored_of_handled (roundTrips : ∀ message, codec.RoundTrips message)
    {message : AppMessage} {row : Outbox.Entry}
    (submitted : Outbox.Submitted codec deployed.1 message)
    (stored : row ∈ deployed.1.world.state.outbox.rows) (isRow : Outbox.IsRowOf codec message row)
    (identified : message.wire.messageId.isSome) (hasSender : (extractSenderID message.wire).isSome)
    (finished : ∀ thread ∈ deployed.2.threads, ∀ record, thread.call.handled = some record →
      record.value = some row.payload → thread.result? ≠ none)
    {thread : Thread Sync.Command Sync.Reply (Except String Unit) Sync.Call}
    (member : thread ∈ deployed.2.threads) {record : ConsumerMessage} {userID : Bytes}
    (handles : Sync.HandlesFor codec thread.call record userID message.wire)
    (value : record.value = some row.payload) :
    Inbox.Table.HasRow deployed.2.world.state.inbox userID row.messageId := by
  rw [← Outbox.wire_messageId_bytes isRow]
  obtain ⟨index, found⟩ := List.mem_iff_getElem?.mp member
  have isFinished := finished thread member record handles.handled value
  obtain ⟨result, isResult⟩ := Option.ne_none_iff_exists'.mp isFinished
  have meets := Pool.finished_meets (Sync.code_meets codec) (consumers_ran ran) found
    (Thread.result?_eq_some isResult)
  obtain ⟨reply, marked⟩ := (meets record userID message.wire handles).1
  have traced := mem_ownPast.mp marked
  cases reply with
  | error error => exact absurd (faultless _ traced) Bool.false_ne_true
  | ok set =>
      cases set with
      | true =>
          exact stored_by_winner ran faultless found isFinished handles traced identified hasSender
            (by rw [value]; rfl)
      | false =>
          -- The winner handled a record of the same outbox row.
          obtain ⟨other, won⟩ := exists_winner ran faultless traced
          obtain ⟨winner, own, isWinner, otherRecord, otherUser, otherMessage, otherHandles,
            sameKey⟩ := Sync.run_issuer (consumers_ran ran) won
          obtain ⟨rfl, sameId⟩ := Sync.dedupKey_inj sameKey
          have isThread := List.mem_of_getElem? isWinner
          have published := Sync.run_published (consumers_ran ran) winner isThread otherRecord
            otherHandles.handled
          obtain ⟨origin, rfl⟩ := origin_of_id ran roundTrips submitted stored isRow published
            otherHandles.carries (sameId.symm.trans (Outbox.wire_messageId_bytes isRow))
          exact stored_by_winner ran faultless isWinner
            (finished winner isThread otherRecord otherHandles.handled origin.value) otherHandles
            won identified hasSender (by rw [origin.value]; rfl)

end Handlers

/-- The record of a chat message carries it for its recipient. -/
theorem carries_chat (roundTrips : ∀ message, codec.RoundTrips message) {message : AppMessage}
    {chat : ChatMessage} {userID payload : Bytes} {record : ConsumerMessage}
    (body : message.body = some (.chat (some chat))) (toUser : chat.recipientId = some userID)
    (hasUser : userID ≠ []) (marshalled : codec.marshal message = .ok payload)
    (value : record.value = some payload) : Carries codec record userID message.wire := by
  have longUser : 0 < chat.recipientId.len := Slice.len_pos_iff.mpr ⟨userID, toUser, hasUser⟩
  refine ⟨?_, ?_⟩
  · rw [value]
    exact roundTrips message payload marshalled
  · rw [Sync.extractRecipientID_wire_chat body, if_pos longUser, wireSlice_of_len_pos longUser,
      toUser]

/-- An accepted chat message is in the inbox of its recipient. -/
theorem Quiescent.inboxRow_of_accepted (quiescent : Quiescent deployed)
    (ran : run (next codec) start events = some deployed)
    (roundTrips : ∀ message, codec.RoundTrips message) {message : AppMessage} {chat : ChatMessage}
    {userID messageID : Bytes} (accepted : Outbox.Accepted deployed.1 message)
    (body : message.body = some (.chat (some chat))) (toUser : chat.recipientId = some userID)
    (hasUser : userID ≠ []) (hasSender : 0 < chat.senderId.len)
    (identified : message.messageId = some messageID) (hasId : messageID ≠ []) :
    ∃ row ∈ deployed.2.world.state.inbox.rows, row.key = (userID, messageID) ∧
      IsInboxRowOf codec message row := by
  obtain ⟨outboxRow, stored, isRow, logged⟩ :=
    Outbox.accepted_logged (servers_ran ran) quiescent.published accepted
  obtain ⟨sender, isSender, dispatched, -⟩ := accepted
  have submitted := Outbox.submitted_of_dispatched (servers_ran ran) isSender dispatched
  obtain ⟨route, routed, isTopic, -⟩ := isRow.route
  have subscribed : Sync.carriesUsers outboxRow.topic = true := by
    rw [isTopic]
    exact carriesUsers_of_chat body routed
  obtain ⟨handler, isHandler, record, isCall, -, value⟩ :=
    quiescent.consumed _ subscribed _ logged
  have carries := carries_chat roundTrips body toUser hasUser isRow.payload value
  have finished : ∀ thread ∈ deployed.2.threads, thread.result? ≠ none := by
    intro thread member isNone
    obtain ⟨result, isDone⟩ := quiescent.finished thread member
    simp [Thread.result?, isDone] at isNone
  have wireIdentified : message.wire.messageId.isSome :=
    wireSlice_isSome_iff.mpr (Slice.len_pos_iff.mpr ⟨messageID, identified, hasId⟩)
  have wireSender : (extractSenderID message.wire).isSome :=
    (Sync.extractSenderID_wire_isSome_iff routed).mpr ⟨chat, body, hasSender⟩
  have sameId : outboxRow.messageId = messageID :=
    Option.some.inj (isRow.messageId.symm.trans identified)
  obtain ⟨row, member, isUser, isMessage⟩ := stored_of_handled ran quiescent.faultless roundTrips
    submitted stored isRow wireIdentified wireSender
    (fun thread member _ _ _ => finished thread member) isHandler ⟨isCall, carries⟩ value
  have key : row.key = (userID, messageID) := by rw [Inbox.Entry.key, isUser, isMessage, sameId]
  refine ⟨row, member, key, ?_⟩
  obtain ⟨source, user, found, published, sourceCarries, columns⟩ :=
    Sync.row_handled (consumers_ran ran) member
  have foundId : some row.messageId = found.messageId :=
    congrArg Inbox.NewEntry.messageId columns
  obtain ⟨origin, rfl⟩ := origin_of_id ran roundTrips submitted stored isRow published
    sourceCarries (by rw [← foundId, ← isMessage]; rfl)
  exact origin.inboxRow sourceCarries.recipient columns

/-- **Nothing is dropped without a fault.** When every outbox row is published, every
record of a user or group topic has been handled, every consumer has finished and
none of their calls to Redis or PostgreSQL failed, an accepted chat message with an id, a recipient
and a sender has exactly one row in the inbox of its recipient, whatever was
redelivered and in whatever order the calls came. -/
theorem accepted_chat_reaches_inbox (roundTrips : ∀ message, codec.RoundTrips message)
    (ran : run (next codec) start events = some deployed) (quiescent : Quiescent deployed)
    {message : AppMessage} {chat : ChatMessage} {userID messageID : Bytes}
    (accepted : Outbox.Accepted deployed.1 message)
    (body : message.body = some (.chat (some chat))) (toUser : chat.recipientId = some userID)
    (hasUser : userID ≠ []) (hasSender : 0 < chat.senderId.len)
    (identified : message.messageId = some messageID) (hasId : messageID ≠ []) :
    ∃ row, deployed.2.world.state.inbox.rows.filter
        (fun row => (row.userId, row.messageId) = (userID, messageID)) = [row] ∧
      IsInboxRowOf codec message row := by
  obtain ⟨row, member, key, isRow⟩ := quiescent.inboxRow_of_accepted ran roundTrips accepted body
    toUser hasUser hasSender identified hasId
  refine ⟨row, ?_, isRow⟩
  rw [← key]
  exact SerialTable.filter_key_eq member

/-- What quiescence of the sample run rests on, as a check that can be run. -/
def sampleCheck (deployed : Deployed) : Bool :=
  Outbox.accepts deployed.1 sampleChat &&
  deployed.1.world.state.outbox.rows.all (fun row =>
    row.topic == utf8 "user-aa" && row.status == .published) &&
  (deployed.1.world.state.log (utf8 "user-aa")).all (fun record =>
    record.value == sampleChatPayload) &&
  deployed.2.threads.any (fun thread => thread.call.handled == some sampleRecord) &&
  deployed.2.threads.all (fun thread => thread.result?.isSome) &&
  deployed.2.world.trace.all isFaultless

theorem sample_quiescent (ran : run (next codec) start events = some deployed)
    (checked : sampleCheck deployed = true) :
    Quiescent deployed ∧ Outbox.Accepted deployed.1 sampleChat := by
  simp only [sampleCheck, Outbox.accepts_iff, Bool.and_eq_true, List.any_eq_true,
    List.all_eq_true, beq_iff_eq] at checked
  obtain ⟨⟨⟨⟨⟨accepted, outbox⟩, values⟩, handler, isHandler, handled⟩, finished⟩, faultless⟩ :=
    checked
  refine ⟨⟨fun row member => (outbox row member).2, fun topic carries record member => ?_,
    fun thread member => ?_, faultless⟩, accepted⟩
  · -- The log of any other topic is empty, since records are copies of rows.
    obtain ⟨row, isRow, -, isTopic | isDead⟩ := Outbox.record_copied (servers_ran ran) member
    · rw [isTopic, (outbox row isRow).1] at member
      refine ⟨handler, isHandler, sampleRecord, handled, ?_, ?_⟩
      · rw [isTopic, (outbox row isRow).1]
        rfl
      · rw [values record member]
        rfl
    · exact absurd isDead (carriesUsers_ne_deadLetter carries)
  · obtain ⟨found, isFound⟩ := Option.isSome_iff_exists.mp (finished thread member)
    exact ⟨found, Thread.result?_eq_some isFound⟩

theorem accepted_chat_reaches_inbox_sample :
    ∃ deployed row, run (next Outbox.sampleCodec) start sampleHappenings = some deployed ∧
      deployed.2.world.state.inbox.rows.filter
        (fun row => (row.userId, row.messageId) = ([0xaa], [7])) = [row] ∧
      IsInboxRowOf Outbox.sampleCodec sampleChat row := by
  have evaluated :
      (run (next Outbox.sampleCodec) start sampleHappenings).any sampleCheck = true := by
    decide +kernel
  obtain ⟨deployed, ran, checked⟩ := (Option.any_eq_true _ _).mp evaluated
  obtain ⟨quiescent, accepted⟩ := sample_quiescent ran checked
  obtain ⟨row, only, isRow⟩ := accepted_chat_reaches_inbox sampleCodec_roundTrips ran quiescent
    accepted rfl rfl (by decide) (by decide) rfl (by decide)
  exact ⟨deployed, row, ran, only, isRow⟩

end FProto.Deployment

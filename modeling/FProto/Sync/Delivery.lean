import FProto.Sync.Handler

/-!
Owns the deliveries of records to `Handler.Handle` one after the other: what
one delivery does under every pattern of failed calls, when a run of deliveries
never reports a message as done without having stored it, and which accepted
messages the handler can store at all.

A failed call has no effect here. Interleaved deliveries are owned by
`FProto.Sync.Concurrency`.
-/

namespace FProto.Sync

open FProto.Foundation
open FProto.Protocol
open FProto.Kafka
open FProto.Dispatcher

/-! ### One delivery -/

/-- A delivery of a record, with the calls that fail during it. -/
structure Delivery where
  record : ConsumerMessage
  now : Nat := 0
  dedupError : Option String := none
  inboxError : Option String := none
  pushError : Option String := none

/-- A call that works, or one that fails without effect. -/
def Choice.of (now : Nat) : Option String → Choice
  | none => .ok now
  | some error => .fail error

def Delivery.choices (delivery : Delivery) : List Choice :=
  [.of delivery.now delivery.dedupError, .of delivery.now delivery.inboxError,
    .of delivery.now delivery.pushError]

/-- One call of `Handle`, with its result and the state it leaves. -/
def deliver (codec : ProtoCodec) (pushClient : Bool) (state : State) (delivery : Delivery) :
    Option (Except String Unit × State) :=
  (handle codec pushClient delivery.record).run exec delivery.choices state

/-- The record is for this user and carries this message. -/
structure Carries (codec : ProtoCodec) (record : ConsumerMessage) (userID : Bytes)
    (message : AppMessage) : Prop where
  decoded : codec.unmarshal record.value.bytes = .ok message
  recipient : extractRecipientID message record.topic = some userID

theorem Carries.unique {codec : ProtoCodec} {record : ConsumerMessage} {userID otherUser : Bytes}
    {message other : AppMessage} (carries : Carries codec record userID message)
    (otherCarries : Carries codec record otherUser other) :
    userID = otherUser ∧ message = other := by
  have same : message = other :=
    Except.ok.inj (carries.decoded.symm.trans otherCarries.decoded)
  subst same
  exact ⟨Option.some.inj (carries.recipient.symm.trans otherCarries.recipient), rfl⟩

/-- A record that carries a message for a user has a recipient. -/
theorem Carries.recipient_ne_none {codec : ProtoCodec} {record : ConsumerMessage} {userID : Bytes}
    {message other : AppMessage} (carries : Carries codec record userID message)
    (decoded : codec.unmarshal record.value.bytes = .ok other) :
    extractRecipientID other record.topic ≠ none := by
  have same : message = other := Except.ok.inj (carries.decoded.symm.trans decoded)
  rw [← same, carries.recipient]
  exact Option.some_ne_none userID

/-- Everything a delivery can do. -/
inductive Outcome (codec : ProtoCodec) (state : State) (delivery : Delivery) :
    Except String Unit → State → Prop where
  | undecodable (error : String)
      (refused : codec.unmarshal delivery.record.value.bytes = .error error) :
      Outcome codec state delivery (.error ("unmarshal AppMessage: " ++ error)) state
  | skipped (message : AppMessage)
      (decoded : codec.unmarshal delivery.record.value.bytes = .ok message)
      (noRecipient : extractRecipientID message delivery.record.topic = none) :
      Outcome codec state delivery (.ok ()) state
  | dedupFailed {userID : Bytes} {message : AppMessage}
      (carries : Carries codec delivery.record userID message) (error : String)
      (failed : delivery.dedupError = some error) :
      Outcome codec state delivery (.error ("dedup check: " ++ ("dedup setnx: " ++ error))) state
  | duplicate {userID : Bytes} {message : AppMessage}
      (carries : Carries codec delivery.record userID message)
      (worked : delivery.dedupError = none)
      (present : dedupKey userID message.messageId.bytes ∈ state.dedup) :
      Outcome codec state delivery (.ok ()) state
  | insertFailed {userID : Bytes} {message : AppMessage}
      (carries : Carries codec delivery.record userID message)
      (worked : delivery.dedupError = none)
      (absent : dedupKey userID message.messageId.bytes ∉ state.dedup) (error : String)
      (failed : delivery.inboxError = some error ∨
        Inbox.insert state.inbox delivery.now (newEntry userID message delivery.record) =
          .error error) :
      Outcome codec state delivery (.error ("inbox insert: " ++ error))
        { state with dedup := dedupKey userID message.messageId.bytes :: state.dedup }
  | stored {userID : Bytes} {message : AppMessage}
      (carries : Carries codec delivery.record userID message)
      (worked : delivery.dedupError = none)
      (absent : dedupKey userID message.messageId.bytes ∉ state.dedup)
      (insertWorked : delivery.inboxError = none) {inbox : Inbox.Table}
      (accepted : Inbox.insert state.inbox delivery.now
        (newEntry userID message delivery.record) = .ok inbox) :
      Outcome codec state delivery (.ok ())
        { state with
          dedup := dedupKey userID message.messageId.bytes :: state.dedup
          inbox := inbox }

section Deliveries

variable {codec : ProtoCodec} {pushClient : Bool} {state : State} {delivery : Delivery}

/-- What the rest of `Handle` does once the key is marked. -/
theorem storeAndPush_run {userID : Bytes} {message : AppMessage} {record : ConsumerMessage}
    (now : Nat) (inboxError pushError : Option String) :
    ((∃ error, (inboxError = some error ∨
          Inbox.insert state.inbox now (newEntry userID message record) = .error error) ∧
        (storeAndPush pushClient userID message record).run exec
          [.of now inboxError, .of now pushError] state =
            some (.error ("inbox insert: " ++ error), state)) ∨
      (∃ inbox, inboxError = none ∧
        Inbox.insert state.inbox now (newEntry userID message record) = .ok inbox ∧
        (storeAndPush pushClient userID message record).run exec
          [.of now inboxError, .of now pushError] state =
            some (.ok (), { state with inbox := inbox }))) := by
  unfold storeAndPush
  rw [Program.issue_bind]
  cases inboxError with
  | some error =>
      have executed : exec (.insert (newEntry userID message record)) (.of now (some error)) state =
          some (.error error, state) := rfl
      refine .inl ⟨error, .inl rfl, ?_⟩
      rw [Program.run_call executed]
      exact Program.run_done _ _ _
  | none =>
      cases inserted : Inbox.insert state.inbox now (newEntry userID message record) with
      | error error =>
          have executed : exec (.insert (newEntry userID message record)) (.of now none) state =
              some (.error error, state) := by
            simp only [exec, Choice.of, inserted]
          refine .inl ⟨error, .inr rfl, ?_⟩
          rw [Program.run_call executed]
          exact Program.run_done _ _ _
      | ok inbox =>
          have executed : exec (.insert (newEntry userID message record)) (.of now none) state =
              some (.ok (), { state with inbox := inbox }) := by
            simp only [exec, Choice.of, inserted]
          refine .inr ⟨inbox, rfl, rfl, ?_⟩
          rw [Program.run_call executed]
          cases pushClient with
          | false => exact Program.run_done _ _ _
          | true => cases pushError <;> rfl

/-- Every delivery ends, in one of the outcomes. -/
theorem deliver_outcome (codec : ProtoCodec) (pushClient : Bool) (state : State)
    (delivery : Delivery) : ∃ result after,
    deliver codec pushClient state delivery = some (result, after) ∧
      Outcome codec state delivery result after := by
  unfold deliver handle
  cases decoded : codec.unmarshal delivery.record.value.bytes with
  | error error => exact ⟨_, _, rfl, .undecodable error decoded⟩
  | ok message =>
      dsimp only
      cases recipient : extractRecipientID message delivery.record.topic with
      | none => exact ⟨_, _, rfl, .skipped message decoded recipient⟩
      | some userID =>
          have carries : Carries codec delivery.record userID message := ⟨decoded, recipient⟩
          unfold Dedup.isDuplicate Delivery.choices
          simp only [Program.issue_bind, Program.call_bind]
          cases dedup : delivery.dedupError with
          | some error =>
              have executed : exec (.setNX (dedupKey userID message.messageId.bytes))
                  (.of delivery.now (some error)) state = some (.error error, state) := rfl
              rw [Program.run_call executed]
              exact ⟨_, _, Program.run_done _ _ _, .dedupFailed carries error dedup⟩
          | none =>
              by_cases present : dedupKey userID message.messageId.bytes ∈ state.dedup
              · have executed : exec (.setNX (dedupKey userID message.messageId.bytes))
                    (.of delivery.now none) state = some (.ok false, state) := by
                  simp [exec, Choice.of, present]
                rw [Program.run_call executed]
                exact ⟨_, _, Program.run_done _ _ _, .duplicate carries dedup present⟩
              · have executed : exec (.setNX (dedupKey userID message.messageId.bytes))
                    (.of delivery.now none) state = some (.ok true,
                      { state with
                        dedup := dedupKey userID message.messageId.bytes :: state.dedup }) := by
                  simp [exec, Choice.of, present]
                rw [Program.run_call executed]
                rcases storeAndPush_run delivery.now delivery.inboxError delivery.pushError with
                  ⟨error, failed, ran⟩ | ⟨inbox, worked, accepted, ran⟩
                · exact ⟨_, _, ran, .insertFailed carries dedup present error failed⟩
                · exact ⟨_, _, ran, .stored carries dedup present worked accepted⟩

/-- Every message that some record carries and that is marked is stored. -/
def State.MarksStored (codec : ProtoCodec) (state : State) : Prop :=
  ∀ record userID message, Carries codec record userID message →
    dedupKey userID message.messageId.bytes ∈ state.dedup →
    Inbox.Table.HasRow state.inbox userID message.messageId.bytes

/-- The insert of the delivery succeeds: the call works and no required column is
`NULL`. -/
def Delivery.Storable (delivery : Delivery) (message : AppMessage) : Prop :=
  delivery.inboxError = none ∧ message.messageId.isSome ∧ (extractSenderID message).isSome ∧
    delivery.record.value.isSome

/-- A delivery that marks a message also stores it, or finds it stored. -/
def InsertsWhenMarked (codec : ProtoCodec) (state : State) (delivery : Delivery) : Prop :=
  ∀ userID message, Carries codec delivery.record userID message →
    dedupKey userID message.messageId.bytes ∉ state.dedup → delivery.dedupError = none →
    Inbox.Table.HasRow state.inbox userID message.messageId.bytes ∨ delivery.Storable message

theorem newEntry_isOk_iff {table : Inbox.Table} {now : Nat} {userID : Bytes} {message : AppMessage}
    {record : ConsumerMessage} :
    (∃ after, Inbox.insert table now (newEntry userID message record) = .ok after) ↔
      message.messageId.isSome ∧ (extractSenderID message).isSome ∧ record.value.isSome := by
  rw [Inbox.insert_isOk_iff]
  simp [newEntry]

/-- An insert that fails was told to fail or lacks a column. -/
theorem not_storable_of_failed {userID : Bytes} {message : AppMessage} {error : String}
    (failed : delivery.inboxError = some error ∨
      Inbox.insert state.inbox delivery.now (newEntry userID message delivery.record) =
        .error error) :
    ¬delivery.Storable message := by
  rintro ⟨works, columns⟩
  rcases failed with refused | rejected
  · rw [works] at refused
    cases refused
  · obtain ⟨table, accepted⟩ := newEntry_isOk_iff.mpr columns
    rw [accepted] at rejected
    cases rejected

/-- An accepted insert of the handler keeps the rows there are and stores the
message. -/
theorem hasRow_of_newEntry {table after : Inbox.Table} {now : Nat} {userID : Bytes}
    {message : AppMessage} {record : ConsumerMessage}
    (accepted : Inbox.insert table now (newEntry userID message record) = .ok after) :
    Inbox.Table.HasRow after userID message.messageId.bytes ∧
      ∀ row ∈ table.rows, row ∈ after.rows := by
  obtain ⟨user, messageId, payload, userEq, messageIdEq, -, kept, hasRow, -⟩ :=
    Inbox.insert_ok accepted
  have sameUser : userID = user := Option.some.inj userEq
  have sameMessage : message.messageId = some messageId := messageIdEq
  rw [sameUser, sameMessage]
  exact ⟨hasRow, kept⟩

variable {result : Except String Unit} {after : State}

theorem Outcome.unchanged_of_noRecipient {message : AppMessage}
    (outcome : Outcome codec state delivery result after)
    (decoded : codec.unmarshal delivery.record.value.bytes = .ok message)
    (noRecipient : extractRecipientID message delivery.record.topic = none) : after = state := by
  cases outcome with
  | insertFailed carries => exact absurd noRecipient (carries.recipient_ne_none decoded)
  | stored carries => exact absurd noRecipient (carries.recipient_ne_none decoded)
  | _ => rfl

/-- A delivery whose dedup call works, for a message that is marked or not. -/
theorem Outcome.of_worked {userID : Bytes} {message : AppMessage}
    (outcome : Outcome codec state delivery result after)
    (carries : Carries codec delivery.record userID message)
    (worked : delivery.dedupError = none) :
    (dedupKey userID message.messageId.bytes ∈ state.dedup ∧ result = .ok () ∧ after = state) ∨
    (dedupKey userID message.messageId.bytes ∉ state.dedup ∧
      dedupKey userID message.messageId.bytes ∈ after.dedup ∧
      ((∃ error, result = .error error ∧ after.inbox = state.inbox ∧
          ¬delivery.Storable message) ∨
        (result = .ok () ∧ Inbox.Table.HasRow after.inbox userID message.messageId.bytes ∧
          delivery.Storable message))) := by
  cases outcome with
  | undecodable error refused =>
      rw [carries.decoded] at refused
      cases refused
  | skipped other decoded noRecipient =>
      exact absurd noRecipient (carries.recipient_ne_none decoded)
  | dedupFailed otherCarries error failed =>
      rw [worked] at failed
      cases failed
  | duplicate otherCarries _ present =>
      obtain ⟨rfl, rfl⟩ := otherCarries.unique carries
      exact .inl ⟨present, rfl, rfl⟩
  | insertFailed otherCarries _ absent error failed =>
      obtain ⟨rfl, rfl⟩ := otherCarries.unique carries
      exact .inr ⟨absent, List.mem_cons_self,
        .inl ⟨_, rfl, rfl, not_storable_of_failed failed⟩⟩
  | stored otherCarries _ absent insertWorked accepted =>
      obtain ⟨rfl, rfl⟩ := otherCarries.unique carries
      exact .inr ⟨absent, List.mem_cons_self, .inr ⟨rfl, (hasRow_of_newEntry accepted).1,
        insertWorked, newEntry_isOk_iff.mp ⟨_, accepted⟩⟩⟩

/-- **The step lemma.** A delivery keeps every marked message stored exactly when
it stores what it marks. -/
theorem Outcome.marksStored_iff (outcome : Outcome codec state delivery result after)
    (stored : state.MarksStored codec) :
    after.MarksStored codec ↔ InsertsWhenMarked codec state delivery := by
  constructor
  · intro afterStored userID message carries absent worked
    rcases outcome.of_worked carries worked with ⟨marked, -⟩ |
      ⟨-, marked, ⟨error, -, sameInbox, -⟩ | ⟨-, -, storable⟩⟩
    · exact absurd marked absent
    · left
      rw [← sameInbox]
      exact afterStored delivery.record userID message carries marked
    · exact .inr storable
  · intro inserts
    cases outcome with
    | insertFailed carries worked absent error failed =>
        intro record userID message otherCarries marked
        rcases List.mem_cons.mp marked with same | old
        · obtain ⟨rfl, sameMessage⟩ := dedupKey_inj same
          rw [sameMessage]
          rcases inserts userID _ carries absent worked with hasRow | storable
          · exact hasRow
          · exact absurd storable (not_storable_of_failed failed)
        · exact stored record userID message otherCarries old
    | stored carries worked absent insertWorked accepted =>
        obtain ⟨hasRow, kept⟩ := hasRow_of_newEntry accepted
        intro record userID message otherCarries marked
        rcases List.mem_cons.mp marked with same | old
        · obtain ⟨rfl, sameMessage⟩ := dedupKey_inj same
          rw [sameMessage]
          exact hasRow
        · obtain ⟨row, member, isRow⟩ := stored record userID message otherCarries old
          exact ⟨row, kept row member, isRow⟩
    | _ => exact stored

/-- A delivery that returns `nil` for a message to a user leaves the message
stored. -/
def State.DoneOnlyIfStored (codec : ProtoCodec) (pushClient : Bool) (state : State) : Prop :=
  ∀ delivery after, deliver codec pushClient state delivery = some (.ok (), after) →
    ∀ userID message, Carries codec delivery.record userID message →
      Inbox.Table.HasRow after.inbox userID message.messageId.bytes

/-- Marked messages are the ones that are reported as done without an insert. -/
theorem State.doneOnlyIfStored_iff :
    state.DoneOnlyIfStored codec pushClient ↔ state.MarksStored codec := by
  constructor
  · intro done record userID message carries marked
    obtain ⟨result, after, delivered, outcome⟩ :=
      deliver_outcome codec pushClient state { record }
    rcases outcome.of_worked carries rfl with ⟨-, rfl, rfl⟩ | ⟨unmarked, -⟩
    · exact done _ _ delivered userID message carries
    · exact absurd marked unmarked
  · intro stored delivery after delivered userID message carries
    obtain ⟨result, final, again, outcome⟩ := deliver_outcome codec pushClient state delivery
    rw [delivered] at again
    obtain ⟨rfl, rfl⟩ := Prod.mk.inj (Option.some.inj again)
    cases outcome with
    | skipped other decoded noRecipient =>
        exact absurd noRecipient (carries.recipient_ne_none decoded)
    | duplicate otherCarries worked present =>
        obtain ⟨rfl, rfl⟩ := otherCarries.unique carries
        exact stored delivery.record _ _ carries present
    | stored otherCarries worked absent insertWorked accepted =>
        obtain ⟨rfl, rfl⟩ := otherCarries.unique carries
        exact (hasRow_of_newEntry accepted).1

end Deliveries

/-! ### Runs of deliveries -/

/-- Records are delivered and dedup keys expire. -/
inductive Moment where
  | delivery (delivery : Delivery)
  | expiry (key : Bytes)

def advance (codec : ProtoCodec) (pushClient : Bool) (state : State) : Moment → Option State
  | .delivery delivery => (deliver codec pushClient state delivery).map Prod.snd
  | .expiry key => some { state with dedup := state.dedup.filter fun other => other ≠ key }

/-- The condition on a moment: a delivery stores what it marks. -/
def Moment.InsertsWhenMarked (codec : ProtoCodec) (state : State) : Moment → Prop
  | .delivery received => Sync.InsertsWhenMarked codec state received
  | .expiry _ => True

/-- **When a message reported as done is stored.** At every moment of a run,
every delivery that returns `nil` leaves its message stored, if and only if
every delivery of the run that marks a message also stores it. -/
theorem done_only_if_stored_iff (codec : ProtoCodec) (pushClient : Bool) (moments : List Moment) :
    Always (advance codec pushClient) State.initial moments
        (State.DoneOnlyIfStored codec pushClient) ↔
      EachStep (advance codec pushClient) State.initial moments
        (fun state moment => moment.InsertsWhenMarked codec state) := by
  have initial : State.initial.DoneOnlyIfStored codec pushClient :=
    State.doneOnlyIfStored_iff.mpr fun _ _ _ _ marked => absurd marked List.not_mem_nil
  refine always_iff_eachStep (fun _ => True) trivial initial ?_ moments
  intro state moment after _ done advanced
  refine ⟨trivial, ?_⟩
  rw [State.doneOnlyIfStored_iff] at done ⊢
  cases moment with
  | delivery delivery =>
      obtain ⟨result, left, delivered, outcome⟩ := deliver_outcome codec pushClient state delivery
      rw [advance, delivered] at advanced
      obtain rfl := Option.some.inj advanced
      exact outcome.marksStored_iff done
  | expiry key =>
      obtain rfl := Option.some.inj advanced
      refine iff_of_true (fun record userID message carries marked => ?_) trivial
      exact done record userID message carries (List.mem_filter.mp marked).1

/-- The insert of the first delivery fails. The redelivery takes the dedup key
for a stored message and returns `nil`, and the inbox stays empty. -/
theorem done_without_stored_after_failed_insert :
    let codec := ProtoCodec.ofList [(sampleChat, sampleChatPayload)] []
    let record : ConsumerMessage := { topic := utf8 "user-aa", value := some sampleChatPayload }
    ∃ first second,
      deliver codec true State.initial { record, inboxError := some "connection refused" } =
        some (.error "inbox insert: connection refused", first) ∧
      deliver codec true first { record } = some (.ok (), second) ∧
      Carries codec record [0xaa] sampleChat ∧ second.inbox.rows = [] := by
  refine ⟨_, _, rfl, rfl, ⟨rfl, rfl⟩, rfl⟩

/-! ### What the handler can store -/

/-- Only a chat message names its sender. -/
theorem extractSenderID_wire_isSome_iff {message : AppMessage} {route : Route}
    (routed : routeMessage (some message) = .ok route) :
    (extractSenderID message.wire).isSome ↔
      ∃ chat, message.body = some (.chat (some chat)) ∧ 0 < chat.senderId.len := by
  cases body : message.body with
  | none => simp [extractSenderID, AppMessage.wire, body]
  | some content =>
      cases content with
      | chat chat =>
          cases chat with
          | none => simp [routeMessage, body, routeChat] at routed
          | some chat =>
              simp [extractSenderID, AppMessage.wire, body, Body.wire, ChatMessage.wire,
                wireSlice_isSome_iff]
      | _ => simp [extractSenderID, AppMessage.wire, body, Body.wire]

theorem extractRecipientID_wire_chat {message : AppMessage} {chat : ChatMessage}
    (body : message.body = some (.chat (some chat))) (topic : Bytes) :
    extractRecipientID message.wire topic =
      if 0 < chat.recipientId.len then wireSlice chat.recipientId else topicRecipient topic := by
  simp [extractRecipientID, AppMessage.wire, body, Body.wire, ChatMessage.wire]

/-- A chat message without a recipient goes to a group topic, which names no
user. -/
theorem topicRecipient_of_group_chat {message : AppMessage} {route : Route} {chat : ChatMessage}
    (routed : routeMessage (some message) = .ok route)
    (body : message.body = some (.chat (some chat))) (noRecipient : ¬0 < chat.recipientId.len) :
    topicRecipient route.topic = none := by
  simp only [routeMessage, body, routeChat] at routed
  split at routed
  · obtain rfl := Except.ok.inj routed
    exact topicRecipient_groupTopic chat.groupId.bytes
  · cases routed

/-- **Which accepted messages reach the inbox.** The record of an accepted
message, delivered once to stores that work and have not seen the message, is
stored if and only if it is a chat message with a recipient and a sender. -/
theorem accepted_message_stored_iff {codec : ProtoCodec} {message : AppMessage} {route : Route}
    {messageID payload : Bytes} (pushClient : Bool) (state : State) (delivery : Delivery)
    (routed : routeMessage (some message) = .ok route)
    (identified : message.messageId = some messageID) (nonempty : messageID ≠ [])
    (marshalled : codec.marshal message = .ok payload) (roundTrips : codec.RoundTrips message)
    (isRecord : delivery.record.topic = route.topic ∧ delivery.record.value = some payload)
    (dedupWorks : delivery.dedupError = none) (inboxWorks : delivery.inboxError = none)
    (unmarked : ∀ userID, dedupKey userID messageID ∉ state.dedup)
    (unstored : ∀ userID, ¬Inbox.Table.HasRow state.inbox userID messageID) :
    ∃ result after, deliver codec pushClient state delivery = some (result, after) ∧
      ((result = .ok () ∧ ∃ userID, Inbox.Table.HasRow after.inbox userID messageID) ↔
        ∃ chat, message.body = some (.chat (some chat)) ∧ 0 < chat.recipientId.len ∧
          0 < chat.senderId.len) := by
  have decoded : codec.unmarshal delivery.record.value.bytes = .ok message.wire := by
    rw [isRecord.2]
    exact roundTrips payload marshalled
  have wireId : message.wire.messageId = some messageID := by
    cases messageID with
    | nil => exact absurd rfl nonempty
    | cons byte rest => simp [AppMessage.wire, identified, wireSlice]
  obtain ⟨result, after, delivered, outcome⟩ := deliver_outcome codec pushClient state delivery
  refine ⟨result, after, delivered, ?_⟩
  cases recipient : extractRecipientID message.wire delivery.record.topic with
  | none =>
      have unchanged : after = state := outcome.unchanged_of_noRecipient decoded recipient
      constructor
      · rintro ⟨-, userID, hasRow⟩
        rw [unchanged] at hasRow
        exact absurd hasRow (unstored userID)
      · rintro ⟨chat, body, hasRecipient, -⟩
        rw [extractRecipientID_wire_chat body, if_pos hasRecipient] at recipient
        have present := wireSlice_isSome_iff.mpr hasRecipient
        rw [recipient] at present
        cases present
  | some userID =>
      have carries : Carries codec delivery.record userID message.wire := ⟨decoded, recipient⟩
      have storableIff : delivery.Storable message.wire ↔
          ∃ chat, message.body = some (.chat (some chat)) ∧ 0 < chat.senderId.len := by
        rw [← extractSenderID_wire_isSome_iff routed]
        simp [Delivery.Storable, inboxWorks, wireId, isRecord.2]
      rcases outcome.of_worked carries dedupWorks with ⟨marked, -⟩ |
        ⟨-, -, ⟨error, rfl, -, notStorable⟩ | ⟨rfl, hasRow, storable⟩⟩
      · rw [wireId] at marked
        exact absurd marked (unmarked userID)
      · rw [storableIff] at notStorable
        constructor
        · rintro ⟨impossible, -⟩
          cases impossible
        · rintro ⟨chat, body, -, hasSender⟩
          exact absurd ⟨chat, body, hasSender⟩ notStorable
      · rw [wireId] at hasRow
        obtain ⟨chat, body, hasSender⟩ := storableIff.mp storable
        refine ⟨fun _ => ⟨chat, body, ?_, hasSender⟩, fun _ => ⟨rfl, userID, hasRow⟩⟩
        by_contra noRecipient
        rw [extractRecipientID_wire_chat body, if_neg noRecipient, isRecord.1,
          topicRecipient_of_group_chat routed body noRecipient] at recipient
        cases recipient

/-- The sample chat message is stored. -/
theorem accepted_message_stored_iff_sample :
    let codec := ProtoCodec.ofList [(sampleChat, sampleChatPayload)] []
    let record : ConsumerMessage := { topic := utf8 "user-aa", value := some sampleChatPayload }
    ∃ result after, deliver codec true State.initial { record } = some (result, after) ∧
      result = .ok () ∧ ∃ userID, Inbox.Table.HasRow after.inbox userID [7] := by
  intro codec record
  have routed : routeMessage (some sampleChat) = .ok ⟨utf8 "user-aa", some [0xaa]⟩ := rfl
  have marshalled : codec.marshal sampleChat = .ok sampleChatPayload := rfl
  have roundTrips : codec.RoundTrips sampleChat := by
    intro payload same
    obtain rfl := Except.ok.inj (marshalled.symm.trans same)
    rfl
  obtain ⟨result, after, delivered, stored⟩ := accepted_message_stored_iff true State.initial
    { record } routed rfl (by decide) marshalled roundTrips ⟨rfl, rfl⟩ rfl rfl
    (fun _ marked => nomatch marked) (fun _ ⟨_, member, _⟩ => nomatch member)
  exact ⟨result, after, delivered, stored.mpr ⟨_, rfl, by decide, by decide⟩⟩

/-- A chat message to a group is reported as done without a row, and a signaling
message is refused because it has no sender. -/
theorem accepted_message_not_stored :
    let groupChat : AppMessage :=
      { messageId := some [7]
        body := some (.chat (some { senderId := some [1], groupId := some [0xcc] })) }
    let groupPayload : Bytes := [0x0a, 1, 7, 0x1a, 6, 0x12, 1, 1, 0x22, 1, 0xcc]
    let signaling : AppMessage :=
      { messageId := some [8], body := some (.signaling (some { recipientId := some [0xaa] })) }
    let signalingPayload : Bytes := [0x0a, 1, 8, 0x5a, 3, 0x0a, 1, 0xaa]
    let codec := ProtoCodec.ofList [(groupChat, groupPayload), (signaling, signalingPayload)] []
    routeMessage (some groupChat) = .ok ⟨utf8 "group-cc", some [0xcc]⟩ ∧
    routeMessage (some signaling) = .ok ⟨utf8 "user-aa", some [0xaa]⟩ ∧
    deliver codec true State.initial
      { record := { topic := utf8 "group-cc", value := some groupPayload } } =
        some (.ok (), State.initial) ∧
    (deliver codec true State.initial
      { record := { topic := utf8 "user-aa", value := some signalingPayload } }).map Prod.fst =
        some (.error ("inbox insert: " ++ Inbox.nullError "sender_id")) :=
  ⟨rfl, rfl, rfl, rfl⟩

end FProto.Sync

import FProto.Outbox.Provenance

/-!
Owns the order of the records in a topic log while any number of dispatchers
and relays run.

Relays overlap, stop anywhere, and publish rows more than once. Still, as long as
no `Send` fails, a row is sent only after every older row of its topic: a relay
that fetched the row fetched the older one before it and sent it first, unless
the older one was marked by then, and a row is marked only after it was sent.
-/

namespace FProto.Outbox

open FProto.Foundation
open FProto.Protocol
open FProto.Kafka
open FProto.Dispatcher

/-! ### What the trace says about the state -/

/-- The row was marked as published or failed, perhaps without success. -/
def RowMarked (trace : List (Foundation.Entry Command Reply)) (id : Nat) : Prop :=
  ∃ entry ∈ trace, entry.command = .markPublished id ∨ entry.command = .markFailed id

/-- A `Send` that returned an error. -/
def sendFailed : Foundation.Entry Command Reply → Bool
  | ⟨_, .send _ _ _, .error _⟩ => true
  | _ => false

/-- The record that a command appends to the log of a topic. -/
def appendedTo (topic : Bytes) (entry : Foundation.Entry Command Reply) : Option Record :=
  match entry.command with
  | .send target key value => if target = topic then some ⟨key, value⟩ else none
  | _ => none

/-- In a batch every older row comes before a newer one, unless it was marked when the
batch was fetched. -/
def Batched (past : List (Foundation.Entry Command Reply)) (rows batch : List Entry) : Prop :=
  ∀ (position : Nat) entry, batch[position]? = some entry →
    ∀ row ∈ rows, row.id < entry.id → row.createdAt < entry.createdAt →
      (∃ earlier ∈ batch.take position, earlier.id = row.id) ∨ RowMarked past row.id

/-- What the trace says about the state: batches are in the order of the age of their
rows, rows that are not pending were marked, and without a failed `Send` the logs are
what was sent. -/
structure Chronicle (world : World Command Reply State) : Prop extends Backed world where
  marked : ∀ row ∈ world.state.outbox.rows, row.status ≠ .pending → RowMarked world.trace row.id
  batched : ∀ past thread limit batch,
    past ++ [⟨thread, .fetchPending limit, .ok batch⟩] <+: world.trace →
      Batched past world.state.outbox.rows batch
  sent : (∀ entry ∈ world.trace, sendFailed entry = false) →
    ∀ topic, world.state.log topic = world.trace.filterMap (appendedTo topic)

theorem Chronicle.initial : Chronicle ⟨State.initial, []⟩ where
  toBacked := Backed.initial
  marked _ member := absurd member List.not_mem_nil
  batched _ _ _ _ isPast := absurd isPast.length_le (by simp)
  sent _ _ := rfl

theorem RowMarked.grow {past trace : List (Foundation.Entry Command Reply)} {id : Nat}
    (marked : RowMarked past id) (grown : past <+: trace) : RowMarked trace id := by
  obtain ⟨entry, member, isMark⟩ := marked
  exact ⟨entry, grown.subset member, isMark⟩

section Steps

variable {world : World Command Reply State} {command : Command} {choice : Choice}
  {reply : Reply command} {after : State}

theorem Chronicle.marked_record (chronicle : Chronicle world) (thread : Nat)
    (executed : exec command choice world.state = some (reply, after)) :
    ∀ row ∈ after.outbox.rows, row.status ≠ .pending →
      RowMarked (world.record thread command reply after).trace row.id := by
  intro row member settled
  cases (exec_effect executed).rowFrom member with
  | kept old copies status =>
      rw [← status] at settled
      rw [← copies.content.id]
      exact (chronicle.marked _ old settled).grow (List.prefix_append _ _)
  | marked old copies mark =>
      exact ⟨_, List.mem_append_right _ List.mem_cons_self, mark⟩
  | added inserted made pending largest => exact absurd pending settled

theorem index_lt_of_sorted {order : List Entry} {row entry : Entry} {index position : Nat}
    (sorted : order.Pairwise fun left right => left.createdAt ≤ right.createdAt)
    (found : order[index]? = some row) (located : order[position]? = some entry)
    (older : row.createdAt < entry.createdAt) : index < position := by
  obtain ⟨indexBelow, rfl⟩ := List.getElem?_eq_some_iff.mp found
  obtain ⟨positionBelow, rfl⟩ := List.getElem?_eq_some_iff.mp located
  rcases Nat.lt_trichotomy index position with less | rfl | greater
  · exact less
  · exact absurd older (Nat.lt_irrefl _)
  · have notOlder := List.pairwise_iff_getElem.mp sorted position index positionBelow indexBelow
      greater
    exact absurd older (Nat.not_lt.mpr notOlder)

/-- A batch that has just been fetched. -/
theorem batched_fetch {limit : Nat} {batch : List Entry} (chronicle : Chronicle world)
    (executed : exec (.fetchPending limit) choice world.state = some (.ok batch, after)) :
    Batched world.trace after.outbox.rows batch := by
  obtain ⟨rfl, order, ⟨selects, sorted⟩, rfl⟩ := exec_fetchPending_ok executed
  intro position entry located row member _ older
  by_cases pending : row.status = .pending
  · left
    have isPending : row ∈ pendingRows world.state.outbox :=
      List.mem_filter.mpr ⟨member, decide_eq_true pending⟩
    obtain ⟨index, found⟩ := List.mem_iff_getElem?.mp (selects.symm.subset isPending)
    rw [List.getElem?_take] at located
    split at located
    · next within =>
      have first : index < position := index_lt_of_sorted sorted found located older
      have inBatch : ((order.take limit).take position)[index]? = some row := by
        rw [List.getElem?_take_of_lt first, List.getElem?_take_of_lt (by omega), found]
      exact ⟨row, List.mem_of_getElem? inBatch, rfl⟩
    · cases located
  · exact .inr (chronicle.marked row member pending)

/-- Rows that are added later are newer than every batch. -/
theorem Batched.record {past : List (Foundation.Entry Command Reply)} {batch : List Entry}
    (batched : Batched past world.state.outbox.rows batch)
    (copies : ∀ entry ∈ batch, ∃ row ∈ world.state.outbox.rows, Copies entry row)
    (executed : exec command choice world.state = some (reply, after)) :
    Batched past after.outbox.rows batch := by
  intro position entry located row member less older
  have before : ∀ {original}, original ∈ world.state.outbox.rows → Copies original row →
      (∃ earlier ∈ batch.take position, earlier.id = row.id) ∨ RowMarked past row.id := by
    intro original isOld same
    rw [← same.content.id] at less ⊢
    rw [← same.createdAt] at older
    exact batched position entry located original isOld less older
  cases (exec_effect executed).rowFrom member with
  | kept old copies status => exact before old copies
  | marked old copies mark => exact before old copies
  | added inserted made pending largest =>
      obtain ⟨original, isOld, same⟩ := copies entry (List.mem_of_getElem? located)
      have larger := largest original isOld
      rw [← same.content.id] at larger
      exact absurd less (Nat.lt_asymm larger)

theorem Chronicle.batched_record (chronicle : Chronicle world) (thread : Nat)
    (executed : exec command choice world.state = some (reply, after)) :
    ∀ past fetcher limit batch, past ++ [⟨fetcher, .fetchPending limit, .ok batch⟩] <+:
        (world.record thread command reply after).trace →
      Batched past after.outbox.rows batch := by
  intro past fetcher limit batch isPast
  rcases List.prefix_concat_iff.mp isPast with isLast | isEarly
  · obtain ⟨rfl, isEntry⟩ := List.append_inj' isLast rfl
    cases List.singleton_inj.mp isEntry
    exact batched_fetch chronicle executed
  · have fetched : ⟨fetcher, .fetchPending limit, .ok batch⟩ ∈ world.trace :=
      isEarly.subset (List.mem_append_right _ List.mem_cons_self)
    exact (chronicle.batched past fetcher limit batch isEarly).record
      (chronicle.copies fetcher limit batch fetched) executed

/-- Only a `Send` appends to a log, and one that succeeds does. -/
theorem log_of_exec (executed : exec command choice world.state = some (reply, after))
    {thread : Nat} (succeeded : sendFailed ⟨thread, command, reply⟩ = false) (topic : Bytes) :
    after.log topic =
      world.state.log topic ++ [⟨thread, command, reply⟩].filterMap (appendedTo topic) := by
  cases command with
  | send target key value =>
      cases choice with
      | ok now =>
          cases executed
          simp only [appendRecord, List.filterMap_cons, List.filterMap_nil, appendedTo]
          by_cases same : target = topic
          · subst same
            simp
          · simp [same, Ne.symm same]
      | failAppended error => cases executed; cases succeeded
      | fail error => cases executed; cases succeeded
      | _ => cases executed
  | _ => cases exec_effect executed <;> simp [appendedTo]

/-- **The step lemma.** -/
theorem Chronicle.record (chronicle : Chronicle world) (thread : Nat)
    (executed : exec command choice world.state = some (reply, after)) :
    Chronicle (world.record thread command reply after) where
  toBacked := chronicle.toBacked.record thread executed
  marked := chronicle.marked_record thread executed
  batched := chronicle.batched_record thread executed
  sent := by
    intro clean topic
    have cleanPast : ∀ entry ∈ world.trace, sendFailed entry = false :=
      fun entry member => clean entry (List.mem_append_left _ member)
    have cleanLast := clean ⟨thread, command, reply⟩ (List.mem_append_right _ List.mem_cons_self)
    rw [World.record_state, World.record_trace, List.filterMap_append,
      log_of_exec executed cleanLast, chronicle.sent cleanPast]

end Steps

/-! ### The order of two rows -/

/-- The source of an element of a `filterMap`. -/
theorem filterMap_eq_append_cons {Value Image : Type} {f : Value → Option Image}
    {values : List Value} {before after : List Image} {image : Image}
    (same : values.filterMap f = before ++ image :: after) :
    ∃ past value rest, values = past ++ value :: rest ∧ past.filterMap f = before ∧
      f value = some image := by
  obtain ⟨first, second, rfl, rfl, isSecond⟩ := List.filterMap_eq_append_iff.mp same
  obtain ⟨skipped, value, rest, rfl, none, isImage, -⟩ := List.filterMap_eq_cons_iff.mp isSecond
  refine ⟨first ++ skipped, value, rest, by simp, ?_, isImage⟩
  rw [List.filterMap_append, List.filterMap_eq_nil_iff.mpr none, List.append_nil]

/-- An entry of a trace, with what came before it. -/
theorem exists_past {Value : Type} {trace : List Value} {entry : Value} (member : entry ∈ trace) :
    ∃ past, past ++ [entry] <+: trace := by
  obtain ⟨past, rest, rfl⟩ := List.append_of_mem member
  exact ⟨past, rest, by simp⟩

theorem appendedTo_eq_some {topic : Bytes} {entry : Foundation.Entry Command Reply}
    {record : Record} (appended : appendedTo topic entry = some record) :
    entry.command = .send topic record.key record.value := by
  unfold appendedTo at appended
  split at appended
  · next target key value isSend =>
    split at appended
    · next same =>
      cases appended
      rw [isSend, same]
    · cases appended
  · cases appended

section Rows

variable {codec : ProtoCodec} {events : List (Event Call Choice)} {servers : Servers}
  (ran : (Pool.start State.initial).run (pipeline codec) events = some servers)

/-- A `Send` of a copy appends the record of its row. -/
theorem Sent.appended {past : List (Foundation.Entry Command Reply)} {thread : Nat}
    {copy row : Entry} (isSent : Sent (ownPast past thread) copy) (copies : Copies copy row) :
    ⟨some row.partitionKey, row.payload⟩ ∈ past.filterMap (appendedTo row.topic) := by
  obtain ⟨reply, member⟩ := isSent
  refine List.mem_filterMap.mpr ⟨_, mem_ownPast.mp member, ?_⟩
  simp [appendedTo, copies.content.topic, copies.content.partitionKey, copies.content.payload]

include ran

theorem run_chronicle : Chronicle servers.world :=
  Pool.world_invariant (fun _ thread _ _ _ _ chronicle executed => chronicle.record thread executed)
    Chronicle.initial ran

/-- What a thread issues, after its own commands. -/
theorem run_issues {past : List (Foundation.Entry Command Reply)}
    {entry : Foundation.Entry Command Reply} (isPast : past ++ [entry] <+: servers.world.trace) :
    ∃ call, Issues codec call (ownPast past entry.thread) entry.command := by
  have obeying : servers.Obeying (Issues codec) := Pool.run_obeying (code_issues codec) ran
  obtain ⟨thread, -, allowed⟩ := obeying.entries past entry isPast
  exact ⟨thread.call, allowed⟩

/-- A copy that a relay has fetched is a copy of the row with its id. -/
theorem copies_of_fetched {thread limit : Nat} {batch : List Entry} {copy row : Entry}
    (fetched : ⟨thread, .fetchPending limit, .ok batch⟩ ∈ servers.world.trace)
    (member : copy ∈ batch) (stored : row ∈ servers.world.state.outbox.rows)
    (isCopy : copy.id = row.id) : Copies copy row := by
  obtain ⟨original, isOriginal, copies⟩ := (run_chronicle ran).copies thread limit batch fetched
    copy member
  obtain rfl : original = row :=
    SerialTable.eq_of_id_eq isOriginal stored (copies.content.id.symm.trans isCopy)
  exact copies

/-- A row that was marked was sent before. -/
theorem RowMarked.appended {past : List (Foundation.Entry Command Reply)}
    (isPast : past <+: servers.world.trace) {row : Entry}
    (stored : row ∈ servers.world.state.outbox.rows) (marked : RowMarked past row.id) :
    ⟨some row.partitionKey, row.payload⟩ ∈ past.filterMap (appendedTo row.topic) := by
  obtain ⟨⟨thread, command, reply⟩, member, isMark⟩ := marked
  obtain ⟨before, isBefore⟩ := exists_past member
  obtain ⟨call, allowed⟩ := run_issues ran (isBefore.trans isPast)
  have handled : Handled (ownPast before thread) row.id := by
    rcases isMark with isMark | isMark
    · obtain rfl : command = _ := isMark
      exact allowed
    · obtain rfl : command = _ := isMark
      exact allowed
  have early : before <+: past := (List.prefix_append _ _).trans isBefore
  obtain ⟨limit, batch, copy, fetched, isCopy, isId, isSent⟩ := handled
  have traced := isPast.subset (early.subset (mem_ownPast.mp fetched))
  have copies := copies_of_fetched ran traced isCopy stored isId
  exact (early.filterMap _).subset (isSent.appended copies)

/-- **An older row is sent first.** Without a failed `Send`, whatever record of the
newer row is in the log, a record of the older row comes before it. -/
theorem older_sent_first (clean : ∀ entry ∈ servers.world.trace, sendFailed entry = false)
    {older newer : Entry} (isOlder : older ∈ servers.world.state.outbox.rows)
    (isNewer : newer ∈ servers.world.state.outbox.rows)
    (less : older.id < newer.id) (age : older.createdAt < newer.createdAt)
    (topic : older.topic = newer.topic)
    (identified : ∀ row ∈ servers.world.state.outbox.rows, row.payload = newer.payload →
      row = newer)
    {before rest : List Record} {record : Record} (isRecord : record.value = newer.payload)
    (logged : servers.world.state.log newer.topic = before ++ record :: rest) :
    ⟨some older.partitionKey, older.payload⟩ ∈ before := by
  have chronicle := run_chronicle ran
  rw [chronicle.sent clean] at logged
  obtain ⟨past, entry, future, split, rfl, appended⟩ := filterMap_eq_append_cons logged
  have isPast : past ++ [entry] <+: servers.world.trace := ⟨future, by rw [split]; simp⟩
  obtain ⟨call, allowed⟩ := run_issues ran isPast
  rw [appendedTo_eq_some appended] at allowed
  obtain ⟨batch, position, copy, turn, isValue, -⟩ := allowed
  obtain ⟨limit, fetched⟩ := turn.fetched
  have inPast := mem_ownPast.mp fetched
  have early : past <+: servers.world.trace := (List.prefix_append _ _).trans isPast
  -- The relay has come to its copy of the newer row.
  obtain ⟨original, isOriginal, copies⟩ := chronicle.copies _ limit batch (early.subset inPast) copy
    (List.mem_of_getElem? turn.located)
  obtain rfl : original = newer :=
    identified original isOriginal (by rw [← copies.content.payload, ← isValue, isRecord])
  obtain ⟨start, isStart⟩ := exists_past inPast
  have batched := chronicle.batched start _ limit batch (isStart.trans early) position copy
    turn.located older isOlder (by rw [copies.content.id]; exact less)
    (by rw [copies.createdAt]; exact age)
  rw [← topic]
  rcases batched with ⟨earlier, isEarlier, isId⟩ | marked
  · have same := copies_of_fetched ran (early.subset inPast) (List.mem_of_mem_take isEarlier)
      isOlder isId
    exact (turn.before earlier isEarlier).appended same
  · have toPast : start <+: past := (List.prefix_append _ _).trans isStart
    exact (toPast.filterMap _).subset (marked.appended ran (toPast.trans early) isOlder)

end Rows

/-! ### The order of two messages -/

/-- What has become of a table: its rows are still there, and every other row has a
larger id. -/
structure Since (early : Table) (world : World Command Reply State) : Prop where
  kept : Table.Copied early world.state.outbox
  added : ∀ row ∈ world.state.outbox.rows, (∃ original ∈ early.rows, Copies original row) ∨
    ∀ original ∈ early.rows, original.id < row.id

theorem Since.refl (world : World Command Reply State) : Since world.state.outbox world where
  kept row member := ⟨row, member, Copies.refl row⟩
  added row member := .inl ⟨row, member, Copies.refl row⟩

theorem Since.record {early : Table} {world : World Command Reply State}
    (since : Since early world) (thread : Nat) {command : Command} {choice : Choice}
    {reply : Reply command} {after : State}
    (executed : exec command choice world.state = some (reply, after)) :
    Since early (world.record thread command reply after) := by
  have effect := exec_effect executed
  have before : ∀ {original row}, original ∈ world.state.outbox.rows → Copies original row →
      (∃ first ∈ early.rows, Copies first row) ∨ ∀ first ∈ early.rows, first.id < row.id := by
    intro original row isOld same
    rcases since.added original isOld with ⟨first, isFirst, copies⟩ | larger
    · exact .inl ⟨first, isFirst, copies.trans same⟩
    · exact .inr (same.content.id ▸ larger)
  refine ⟨fun row member => ?_, fun row member => ?_⟩
  · obtain ⟨kept, isKept, copies⟩ := since.kept row member
    obtain ⟨later, isLater, same⟩ := effect.copied kept isKept
    exact ⟨later, isLater, copies.trans same⟩
  · cases effect.rowFrom member with
    | kept old copies status => exact before old copies
    | marked old copies mark => exact before old copies
    | added inserted made pending largest =>
        right
        intro original isOriginal
        obtain ⟨kept, isKept, copies⟩ := since.kept original isOriginal
        rw [copies.content.id]
        exact largest kept isKept

theorem routeMessage_ne_deadLetter {message : AppMessage} {route : Route}
    (routed : routeMessage (some message) = .ok route) : route.topic ≠ topicDeadLetter := by
  intro isDead
  rcases routeMessage_cases routed with
    ⟨recipient, -, -, rfl⟩ | ⟨chat, group, -, -, -, rfl⟩ | ⟨command, -, rfl⟩ | events | media
  · exact (userTopic_ne_static recipient).2.2.2 isDead
  · rw [groupTopic, utf8_group] at isDead
    exact absurd (List.cons.inj isDead).1 (by decide)
  · have same : topicCommands = topicDeadLetter := isDead
    exact absurd same (by decide)
  · exact absurd (events.symm.trans isDead) (by decide)
  · exact absurd (media.symm.trans isDead) (by decide)

/-- The clock of the database: a row that was inserted later has a later
`created_at`. -/
def Table.Ticks (table : Table) : Prop :=
  ∀ older ∈ table.rows, ∀ newer ∈ table.rows, older.id < newer.id →
    older.createdAt < newer.createdAt

section Messages

variable {codec : ProtoCodec} {past future : List (Event Call Choice)} {middle servers : Servers}

theorem since_of_run (ran : middle.run (pipeline codec) future = some servers) :
    Since middle.world.state.outbox servers.world :=
  Pool.world_invariant (fun _ thread _ _ _ _ since executed => since.record thread executed)
    (Since.refl middle.world) ran

theorem IsRowOf.copies {message : AppMessage} {row other : Entry}
    (isRow : IsRowOf codec message row) (copies : Copies row other) :
    IsRowOf codec message other where
  route := by
    rw [← copies.content.topic, ← copies.content.partitionKey]
    exact isRow.route
  payload := by rw [isRow.payload, copies.content.payload]
  messageId := by rw [isRow.messageId, copies.content.messageId]

/-- Where the log of its topic has a record of a row whose message nobody had submitted
when another message was accepted, it has a record of that message before it. -/
theorem record_preceded (roundTrips : ∀ message, codec.RoundTrips message)
    (early : (Pool.start State.initial).run (pipeline codec) past = some middle)
    (late : middle.run (pipeline codec) future = some servers)
    (clean : ∀ entry ∈ servers.world.trace, sendFailed entry = false)
    (ticks : servers.world.state.outbox.Ticks) {first : AppMessage}
    (accepted : Accepted middle first) {newer : Entry}
    (unsubmitted : ∀ message, Submitted codec middle message →
      message.messageId ≠ some newer.messageId)
    {route : Route} (routed : routeMessage (some first) = .ok route)
    (isNewer : newer ∈ servers.world.state.outbox.rows) (isTopic : newer.topic = route.topic)
    {before rest : List Record} {record : Record} (value : record.value = newer.payload)
    (logged : servers.world.state.log route.topic = before ++ record :: rest) :
    ∃ older ∈ servers.world.state.outbox.rows, IsRowOf codec first older ∧
      ⟨some older.partitionKey, older.payload⟩ ∈ before := by
  have ran : (Pool.start State.initial).run (pipeline codec) (past ++ future) = some servers :=
    run_trans early late
  have since := since_of_run late
  obtain ⟨original, isOriginal, ofFirst, -⟩ := accepted_row early accepted
  obtain ⟨older, isOlder, copies⟩ := since.kept original isOriginal
  have isFirst := ofFirst.copies copies
  obtain ⟨found, isRoute, topic, -⟩ := isFirst.route
  obtain rfl := Except.ok.inj (routed.symm.trans isRoute)
  have less : older.id < newer.id := by
    rw [← copies.content.id]
    rcases since.added newer isNewer with ⟨known, isKnown, same⟩ | larger
    · -- A row that was there before belongs to a message that had been submitted.
      obtain ⟨message, submitted, ofMessage⟩ := row_submitted early isKnown
      refine absurd ?_ (unsubmitted message submitted)
      rw [ofMessage.messageId, same.content.messageId]
    · exact larger original isOriginal
  rw [← isTopic] at logged
  refine ⟨older, isOlder, isFirst, ?_⟩
  exact older_sent_first ran clean isOlder isNewer less (ticks older isOlder newer isNewer less)
    (topic.trans isTopic.symm)
    (fun row isRow same => eq_of_payload_eq ran roundTrips isRow isNewer same) value logged

/-- **Records keep the order of acceptance.** Any number of gateways, dispatchers and
relays run, interleaved in any way. When no `Send` fails, a record of a message
that nobody had submitted when another one was accepted comes after a record
of that other one in the log of its topic. Marks may fail, relays may stop
anywhere, and rows may be published more than once. -/
theorem records_keep_acceptance_order (roundTrips : ∀ message, codec.RoundTrips message)
    (early : (Pool.start State.initial).run (pipeline codec) past = some middle)
    (late : middle.run (pipeline codec) future = some servers)
    (clean : ∀ entry ∈ servers.world.trace, sendFailed entry = false)
    (ticks : servers.world.state.outbox.Ticks) {first second : AppMessage}
    (accepted : Accepted middle first)
    (unsubmitted : ∀ message, Submitted codec middle message →
      message.messageId.bytes ≠ second.messageId.bytes)
    {route : Route} (routed : routeMessage (some first) = .ok route)
    {before rest : List Record} {record : Record}
    (logged : servers.world.state.log route.topic = before ++ record :: rest)
    (isSecond : codec.marshal second = .ok record.value) :
    ∃ earlier ∈ before, codec.marshal first = .ok earlier.value := by
  have ran : (Pool.start State.initial).run (pipeline codec) (past ++ future) = some servers :=
    run_trans early late
  -- The row of the record belongs to a message with the id of the second one.
  obtain ⟨newer, isNewer, value, isTopic | isDead⟩ :=
    record_copied ran (logged ▸ List.mem_append_right _ List.mem_cons_self)
  swap
  · exact absurd isDead (routeMessage_ne_deadLetter routed)
  obtain ⟨found, -, ofFound⟩ := row_submitted ran isNewer
  have sameWire : found.wire = second.wire := ProtoCodec.wire_eq_of_marshal_eq (roundTrips found)
    (roundTrips second) ofFound.payload (value ▸ isSecond)
  have sameId : newer.messageId = second.messageId.bytes := by
    rw [← wire_messageId_bytes ofFound, sameWire, AppMessage.wire, wireSlice_bytes]
  have notYet : ∀ message, Submitted codec middle message →
      message.messageId ≠ some newer.messageId := by
    intro message submitted isId
    apply unsubmitted message submitted
    rw [isId, ← sameId]
    rfl
  obtain ⟨older, -, isFirst, earlier⟩ := record_preceded roundTrips early late clean ticks accepted
    notYet routed isNewer isTopic.symm value logged
  exact ⟨_, earlier, isFirst.payload⟩

/-- A second message to the recipient of the sample message. -/
def secondChat : AppMessage :=
  { messageId := some [8]
    body := some (.chat (some { senderId := some [1], recipientId := some [0xaa] })) }

def secondChatPayload : Bytes := [0x0a, 1, 8, 0x1a, 6, 0x12, 1, 1, 0x1a, 1, 0xaa]

def twoChatCodec : ProtoCodec :=
  ProtoCodec.ofList [(sampleChat, sampleChatPayload), (secondChat, secondChatPayload)] []

theorem twoChatCodec_roundTrips (message : AppMessage) : twoChatCodec.RoundTrips message :=
  ofList_roundTrips _ (by decide +kernel) message

def firstAccepted : List (Event Call Choice) :=
  [.spawn (.dispatch (some [1]) (some sampleChat)), .step 0 (.ok 3)]

/-- Two relays fetch the first row. The one that also fetches the second row sends both,
fails to mark the first one and stops; then the other one sends the first row
again. -/
def overlappingRelays : List (Event Call Choice) :=
  let first : Entry :=
    { id := 1, messageId := [7], topic := utf8 "user-aa", partitionKey := [0xaa]
      payload := sampleChatPayload, status := .pending, retryCount := 0, createdAt := 3
      publishedAt := none }
  let second : Entry :=
    { first with id := 2, messageId := [8], payload := secondChatPayload, createdAt := 5 }
  [.spawn (.poll 100), .step 1 (.fetched [first]),
    .spawn (.dispatch (some [1]) (some secondChat)), .step 2 (.ok 5),
    .spawn (.poll 100), .step 3 (.fetched [first, second]),
    .step 3 (.ok 6), .step 3 (.fail "pq: connection reset"), .step 3 (.ok 7), .step 3 (.ok 7),
    .stop 3, .step 1 (.ok 8), .step 1 (.ok 9)]

/-- What the sample needs of the last state. -/
def sampleLogged (servers : Servers) : Bool :=
  servers.world.trace.all (fun entry => !sendFailed entry) &&
  servers.world.state.outbox.rows.all (fun older =>
    servers.world.state.outbox.rows.all fun newer =>
      decide (older.id < newer.id → older.createdAt < newer.createdAt)) &&
  servers.world.state.log (utf8 "user-aa") ==
    [⟨some [0xaa], sampleChatPayload⟩, ⟨some [0xaa], secondChatPayload⟩,
      ⟨some [0xaa], sampleChatPayload⟩]

theorem sampleLogged_spec {servers : Servers} (checked : sampleLogged servers = true) :
    (∀ entry ∈ servers.world.trace, sendFailed entry = false) ∧
      servers.world.state.outbox.Ticks ∧
      servers.world.state.log (utf8 "user-aa") =
        [⟨some [0xaa], sampleChatPayload⟩] ++ ⟨some [0xaa], secondChatPayload⟩ ::
          [⟨some [0xaa], sampleChatPayload⟩] := by
  simp only [sampleLogged, Bool.and_eq_true, List.all_eq_true, beq_iff_eq, decide_eq_true_eq,
    Bool.not_eq_true'] at checked
  exact ⟨checked.1.1, checked.1.2, checked.2⟩

theorem records_keep_acceptance_order_sample :
    ∃ middle servers, (Pool.start State.initial).run (pipeline twoChatCodec) firstAccepted =
        some middle ∧
      middle.run (pipeline twoChatCodec) overlappingRelays = some servers ∧
      servers.world.state.log (utf8 "user-aa") =
        [⟨some [0xaa], sampleChatPayload⟩] ++ ⟨some [0xaa], secondChatPayload⟩ ::
          [⟨some [0xaa], sampleChatPayload⟩] ∧
      ∃ earlier ∈ [(⟨some [0xaa], sampleChatPayload⟩ : Record)],
        twoChatCodec.marshal sampleChat = .ok earlier.value := by
  have evaluated : ((Pool.start State.initial).run (pipeline twoChatCodec) firstAccepted).any
      (fun middle => accepts middle sampleChat && onlyDispatches [sampleChat] middle &&
        (middle.run (pipeline twoChatCodec) overlappingRelays).any sampleLogged) = true := by
    decide +kernel
  obtain ⟨middle, early, checked⟩ := (Option.any_eq_true _ _).mp evaluated
  obtain ⟨⟨accepted, only⟩, rest⟩ := (Bool.and_eq_true_iff.mp checked).imp_left
    Bool.and_eq_true_iff.mp
  obtain ⟨servers, late, isLogged⟩ := (Option.any_eq_true _ _).mp rest
  obtain ⟨clean, ticks, logged⟩ := sampleLogged_spec isLogged
  have unsubmitted : ∀ message, Submitted twoChatCodec middle message →
      message.messageId.bytes ≠ secondChat.messageId.bytes := by
    intro message submitted
    rw [List.mem_singleton.mp (mem_of_onlyDispatches only submitted)]
    decide
  exact ⟨middle, servers, early, late, logged,
    records_keep_acceptance_order twoChatCodec_roundTrips early late clean ticks
      (accepts_iff.mp accepted) unsubmitted rfl logged rfl⟩

end Messages

end FProto.Outbox

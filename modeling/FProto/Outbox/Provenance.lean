import FProto.Foundation.Coupling
import FProto.Outbox.NoLoss

/-!
Owns where the contents of the outbox and of the topic logs come from: every
row was made from a message that was submitted, and every record of a log is a
copy of a row.

Two facts are put together. What is in the state was put there by an entry of
the trace (`Backed`, kept by every command). Who issues which command follows
from the code alone (`Issues`), whatever the other threads do.
-/

namespace FProto.Outbox

open FProto.Foundation
open FProto.Protocol
open FProto.Kafka
open FProto.Dispatcher

/-! ### What the code issues -/

/-- The relay has called `Send` for its copy of a row. -/
def Sent (own : Log) (entry : Entry) : Prop :=
  ∃ reply, ⟨.send entry.topic (some entry.partitionKey) entry.payload, reply⟩ ∈ own

/-- The relay has come to a copy of its batch: the copies before it were sent. -/
structure Turn (own : Log) (batch : List Entry) (position : Nat) (entry : Entry) : Prop where
  fetched : ∃ limit, ⟨.fetchPending limit, .ok batch⟩ ∈ own
  located : batch[position]? = some entry
  before : ∀ earlier ∈ batch.take position, Sent own earlier

/-- A copy of the row was fetched and sent. -/
def Handled (own : Log) (id : Nat) : Prop :=
  ∃ limit batch entry, ⟨.fetchPending limit, .ok batch⟩ ∈ own ∧ entry ∈ batch ∧ entry.id = id ∧
    Sent own entry

/-- The record that a relay sends for its copy of a row: to the topic of the row, or
to the dead-letter topic. -/
def SendsCopy (topic : Bytes) (value : Bytes) (entry : Entry) : Prop :=
  value = entry.payload ∧ (topic = entry.topic ∨ topic = topicDeadLetter)

/-- The request of the gateway for a decrypted client message. -/
def RequestsFrame (codec : ProtoCodec) (call : Call) (request : DispatchRequest) : Prop :=
  ∃ remoteAddr plaintext frame message, call = .client true remoteAddr plaintext ∧
    Gateway.framedMessage codec plaintext = some (frame, message) ∧
    request.message = some message

/-- Which command a call may issue after its own commands. -/
def Issues (codec : ProtoCodec) (call : Call) (own : Log) : Command → Prop
  | .insert entry => ∃ message, call.dispatched = some message ∧
      newEntry codec (some message) = .ok entry
  | .send topic _ value => ∃ batch position entry, Turn own batch position entry ∧
      SendsCopy topic value entry
  | .markPublished id => Handled own id
  | .markFailed id => Handled own id
  | .request request => RequestsFrame codec call request
  | _ => True

section Programs

variable {codec : ProtoCodec} {call : Call} {own longer : Log} {batch sent entries : List Entry}
  {entry : Entry}

theorem Sent.grow (isSent : Sent own entry) (grown : own <+: longer) : Sent longer entry := by
  obtain ⟨reply, member⟩ := isSent
  exact ⟨reply, grown.subset member⟩

/-- A relay that has fetched a batch and sent its first part. -/
structure Amid (own : Log) (batch sent entries : List Entry) : Prop where
  fetched : ∃ limit, ⟨.fetchPending limit, .ok batch⟩ ∈ own
  split : batch = sent ++ entries
  done : ∀ earlier ∈ sent, Sent own earlier

theorem Amid.grow (amid : Amid own batch sent entries) (grown : own <+: longer) :
    Amid longer batch sent entries where
  fetched := amid.fetched.imp fun _ member => grown.subset member
  split := amid.split
  done earlier member := (amid.done earlier member).grow grown

theorem Amid.turn (amid : Amid own batch sent (entry :: entries)) :
    Turn own batch sent.length entry where
  fetched := amid.fetched
  located := by simp [amid.split]
  before earlier member := by
    rw [amid.split, List.take_left] at member
    exact amid.done earlier member

theorem Amid.handled (amid : Amid own batch sent (entry :: entries)) (isSent : Sent own entry) :
    Handled own entry.id := by
  obtain ⟨limit, fetched⟩ := amid.fetched
  exact ⟨limit, batch, entry, fetched, by simp [amid.split], rfl, isSent⟩

theorem Amid.advance (amid : Amid own batch sent (entry :: entries)) (isSent : Sent own entry) :
    Amid own batch (sent ++ [entry]) entries where
  fetched := amid.fetched
  split := by rw [amid.split, List.append_assoc, List.singleton_append]
  done earlier member := by
    rcases List.mem_append.mp member with old | last
    · exact amid.done earlier old
    · rw [List.mem_singleton.mp last]
      exact isSent

theorem publish_issues (amid : Amid own batch sent (entry :: entries)) :
    (Relay.publish entry).Obeys (Issues codec call)
      (fun _ after => own <+: after ∧ Sent after entry) own := by
  refine ⟨⟨batch, sent.length, entry, amid.turn, rfl, .inl rfl⟩, fun reply => ?_⟩
  have grown := List.prefix_append own
    [⟨.send entry.topic (some entry.partitionKey) entry.payload, reply⟩]
  have isSent : Sent (own ++ [⟨.send entry.topic (some entry.partitionKey) entry.payload,
      reply⟩]) entry := ⟨reply, List.mem_append_right _ List.mem_cons_self⟩
  cases reply with
  | error error => exact ⟨grown, isSent⟩
  | ok _ =>
      refine ⟨(amid.grow grown).handled isSent, fun marked => ?_⟩
      have marking := List.prefix_append
        (own ++ [⟨.send entry.topic (some entry.partitionKey) entry.payload, .ok ()⟩])
        [⟨.markPublished entry.id, marked⟩]
      exact ⟨grown.trans marking, isSent.grow marking⟩

theorem sendToDeadLetter_issues (amid : Amid own batch sent (entry :: entries))
    (isSent : Sent own entry) :
    (Relay.sendToDeadLetter entry).Obeys (Issues codec call) (fun _ after => own <+: after)
      own := by
  refine ⟨⟨batch, sent.length, entry, amid.turn, rfl, .inr rfl⟩, fun reply => ?_⟩
  have grown := List.prefix_append own
    [⟨.send topicDeadLetter (some entry.topic) entry.payload, reply⟩]
  cases reply with
  | error error => exact grown
  | ok _ =>
      exact ⟨(amid.grow grown).handled (isSent.grow grown),
        fun _ => grown.trans (List.prefix_append _ _)⟩

theorem publishEntries_issues (amid : Amid own batch sent entries) :
    (Relay.publishEntries entries).Obeys (Issues codec call) (fun _ _ => True) own := by
  induction entries generalizing own sent with
  | nil => trivial
  | cons entry entries inductionHypothesis =>
      refine (publish_issues amid).bind fun result after ⟨grown, isSent⟩ => ?_
      cases result with
      | ok _ => exact inductionHypothesis ((amid.grow grown).advance isSent)
      | error error =>
          refine ⟨trivial, fun retried => ?_⟩
          have counted := List.prefix_append after [⟨.incrementRetry entry.id, retried⟩]
          have still := amid.grow (grown.trans counted)
          have stillSent := isSent.grow counted
          dsimp only
          split
          · refine (sendToDeadLetter_issues still stillSent).bind fun _ buried later => ?_
            exact inductionHypothesis ((still.grow later).advance (stillSent.grow later))
          · exact inductionHypothesis (still.advance stillSent)

theorem poll_issues (limit : Nat) :
    (Relay.poll limit).Obeys (Issues codec call) (fun _ _ => True) [] := by
  refine ⟨trivial, fun reply => ?_⟩
  cases reply with
  | error error => trivial
  | ok batch =>
      have fetched : Amid ([] ++ [⟨.fetchPending limit, .ok batch⟩]) batch [] batch :=
        ⟨⟨limit, List.mem_cons_self⟩, rfl, fun _ member => absurd member List.not_mem_nil⟩
      exact publishEntries_issues fetched

theorem dispatch_issues {message : Option AppMessage} (dispatched : call.dispatched = message)
    (senderId : Slice) :
    (Dispatcher.dispatch codec senderId message).Obeys (Issues codec call) (fun _ _ => True)
      own := by
  unfold Dispatcher.dispatch
  split
  · trivial
  · next entry built =>
    cases message with
    | none => cases built
    | some message =>
        refine ⟨⟨message, dispatched, built⟩, fun reply => ?_⟩
        cases reply with
        | error error => trivial
        | ok _ => trivial

theorem serve_issues {rpc : Nat} {request : DispatchRequest}
    (dispatched : call.dispatched = request.message) :
    (GRPCServer.serve codec rpc request).Obeys (Issues codec call) (fun _ _ => True) own := by
  have answered : (GRPCServer.dispatch codec request).Obeys (Issues codec call) (fun _ _ => True)
      own := by
    unfold GRPCServer.dispatch
    split
    · trivial
    · next message requested =>
      rw [requested] at dispatched
      refine (dispatch_issues dispatched request.senderId).bind fun result past _ => ?_
      cases result with
      | error error => trivial
      | ok _ => trivial
  exact answered.bind fun answer past _ => ⟨trivial, fun _ => trivial⟩

theorem handleMessage_issues (dispatcher : Bool) (remoteAddr plaintext : Bytes) :
    (Gateway.handleMessage codec dispatcher remoteAddr plaintext).Obeys
      (Issues codec (.client dispatcher remoteAddr plaintext)) (fun _ _ => True) own := by
  have echoed : ∀ past : Log, (Gateway.echo plaintext).Obeys
      (Issues codec (.client dispatcher remoteAddr plaintext)) (fun _ _ => True) past :=
    fun _ => ⟨trivial, fun _ => trivial⟩
  unfold Gateway.handleMessage
  split
  · exact echoed own
  · next frame message framed =>
    cases dispatcher with
    | false => cases framed
    | true =>
        refine ⟨⟨remoteAddr, plaintext, frame, message, rfl, framed, rfl⟩, fun sent => ?_⟩
        cases sent with
        | error error => exact echoed _
        | ok rpc =>
            refine ⟨trivial, fun answer => ?_⟩
            cases answer with
            | error error => exact echoed _
            | ok response => exact ⟨trivial, fun _ => trivial⟩

/-- Every call issues only what `Issues` says. -/
theorem code_issues (codec : ProtoCodec) (call : Call) :
    (code codec call).Obeys (Issues codec call) (fun _ _ => True) [] := by
  cases call with
  | dispatch senderId message => exact dispatch_issues rfl senderId
  | serve rpc request =>
      have served : (GRPCServer.serve codec rpc request).Obeys
          (Issues codec (.serve rpc request)) (fun _ _ => True) [] := serve_issues rfl
      refine served.bind fun answer past _ => ?_
      cases answer with
      | error error => trivial
      | ok _ => trivial
  | poll batch => exact (poll_issues batch).bind fun _ _ _ => trivial
  | client dispatcher remoteAddr plaintext =>
      exact handleMessage_issues dispatcher remoteAddr plaintext

end Programs

/-! ### What the state holds -/

/-- The columns of a row that an insert sets. -/
structure MadeFrom (entry : NewEntry) (row : Entry) : Prop where
  messageId : entry.messageId = some row.messageId
  topic : row.topic = entry.topic
  partitionKey : entry.partitionKey = some row.partitionKey
  payload : row.payload = entry.payload

theorem MadeFrom.sameContent {entry : NewEntry} {row other : Entry} (made : MadeFrom entry row)
    (same : row.SameContent other) : MadeFrom entry other where
  messageId := by rw [made.messageId, same.messageId]
  topic := by rw [← same.topic, made.topic]
  partitionKey := by rw [made.partitionKey, same.partitionKey]
  payload := by rw [← same.payload, made.payload]

/-- The columns of a copy that no statement changes. -/
structure Copies (copy row : Entry) : Prop where
  content : copy.SameContent row
  createdAt : copy.createdAt = row.createdAt

theorem Copies.refl (row : Entry) : Copies row row := ⟨Entry.SameContent.refl row, rfl⟩

theorem Copies.trans {copy row other : Entry} (first : Copies copy row)
    (second : Copies row other) : Copies copy other :=
  ⟨first.content.trans second.content, first.createdAt.trans second.createdAt⟩

/-- Every row is still there, with the columns that are copied. -/
def Table.Copied (before after : Table) : Prop :=
  ∀ row ∈ before.rows, ∃ kept ∈ after.rows, Copies row kept

theorem copied_update {table : Table} {id : Nat} {rewrite : Entry → Entry}
    {keepsId : ∀ row, (rewrite row).id = row.id}
    {keepsKey : ∀ row, (rewrite row).messageId = row.messageId}
    (copies : ∀ row, Copies row (rewrite row)) :
    Table.Copied table (table.update (fun row => row.id == id) rewrite keepsId keepsKey) := by
  intro row member
  by_cases selected : row.id = id
  · exact ⟨rewrite row, mem_update_row.mpr (.inl ⟨row, member, selected, rfl⟩), copies row⟩
  · exact ⟨row, mem_update_row.mpr (.inr ⟨member, selected⟩), Copies.refl row⟩

theorem copied_markPublished {table : Table} {now id : Nat} :
    Table.Copied table (markPublished table now id) :=
  copied_update fun _ => ⟨⟨rfl, rfl, rfl, rfl, rfl⟩, rfl⟩

theorem copied_markFailed {table : Table} {id : Nat} :
    Table.Copied table (markFailed table id) :=
  copied_update fun _ => ⟨⟨rfl, rfl, rfl, rfl, rfl⟩, rfl⟩

theorem copied_incrementRetry {table : Table} {id : Nat} :
    Table.Copied table (incrementRetry table id) :=
  copied_update fun _ => ⟨⟨rfl, rfl, rfl, rfl, rfl⟩, rfl⟩

/-- The row that an insert adds. -/
theorem insert_row {table inserted : Table} {now : Nat} {entry : NewEntry}
    (accepted : insert table now entry = .ok inserted) :
    ∃ added : Entry, inserted.rows = table.rows ++ [added] ∧ added.id = table.nextId ∧
      added.status = .pending ∧ MadeFrom entry added := by
  unfold insert at accepted
  split at accepted
  · cases accepted
  · cases accepted
  · next messageId partitionKey isMessage isKey =>
    split at accepted
    · cases accepted
    · obtain rfl := Except.ok.inj accepted
      exact ⟨_, rfl, rfl, rfl, isMessage, rfl, isKey, rfl⟩

/-- Where a row comes from: it was there before, with its status unless it has just
been marked, or it has just been inserted, with a larger id than all others. -/
inductive RowFrom (state : State) (command : Command) (row : Entry) : Prop where
  | kept {original : Entry} (member : original ∈ state.outbox.rows)
      (copies : Copies original row) (status : original.status = row.status)
  | marked {original : Entry} (member : original ∈ state.outbox.rows)
      (copies : Copies original row)
      (mark : command = .markPublished row.id ∨ command = .markFailed row.id)
  | added {entry : NewEntry} (inserted : command = .insert entry) (made : MadeFrom entry row)
      (pending : row.status = .pending) (largest : ∀ other ∈ state.outbox.rows, other.id < row.id)

section Effects

variable {state after : State} {command : Command} {row : Entry}

/-- A row is never lost, and keeps the columns that are copied. -/
theorem Effect.copied (effect : Effect state command after) :
    Table.Copied state.outbox after.outbox := by
  cases effect with
  | inserted accepted =>
      intro row member
      obtain ⟨added, members, -⟩ := insert_ok accepted
      exact ⟨row, (members row).mpr (.inl member), Copies.refl row⟩
  | published id now => exact copied_markPublished
  | failed id => exact copied_markFailed
  | retried id => exact copied_incrementRetry
  | _ => exact fun row member => ⟨row, member, Copies.refl row⟩

theorem Effect.rowFrom (effect : Effect state command after) (member : row ∈ after.outbox.rows) :
    RowFrom state command row := by
  cases effect with
  | inserted accepted =>
      obtain ⟨added, rows, isId, pending, made⟩ := insert_row accepted
      rcases List.mem_append.mp (rows ▸ member) with old | new
      · exact .kept old (Copies.refl row) rfl
      · obtain rfl := List.mem_singleton.mp new
        refine .added rfl made pending fun other isOld => ?_
        rw [isId]
        exact state.outbox.id_lt other isOld
  | published id now =>
      rcases mem_markPublished.mp member with ⟨original, isOld, rfl, rfl⟩ | ⟨old, -⟩
      · exact .marked isOld ⟨⟨rfl, rfl, rfl, rfl, rfl⟩, rfl⟩ (.inl rfl)
      · exact .kept old (Copies.refl row) rfl
  | failed id =>
      rcases mem_markFailed.mp member with ⟨original, isOld, rfl, rfl⟩ | ⟨old, -⟩
      · exact .marked isOld ⟨⟨rfl, rfl, rfl, rfl, rfl⟩, rfl⟩ (.inr rfl)
      · exact .kept old (Copies.refl row) rfl
  | retried id =>
      rcases mem_incrementRetry.mp member with ⟨original, isOld, rfl, rfl⟩ | ⟨old, -⟩
      · exact .kept isOld ⟨⟨rfl, rfl, rfl, rfl, rfl⟩, rfl⟩ rfl
      · exact .kept old (Copies.refl row) rfl
  | _ => exact .kept member (Copies.refl row) rfl

/-- A record after a command was there before, or has just been sent. -/
theorem Effect.log_from (effect : Effect state command after) {topic : Bytes} {record : Record}
    (member : record ∈ after.log topic) :
    record ∈ state.log topic ∨ command = .send topic record.key record.value := by
  cases effect with
  | appended target key value =>
      simp only [appendRecord] at member
      split at member
      · next same =>
        subst same
        rcases List.mem_append.mp member with old | new
        · exact .inl old
        · obtain rfl := List.mem_singleton.mp new
          exact .inr rfl
      · exact .inl member
  | _ => exact .inl member

/-- A request after a command was there before, or has just been sent. -/
theorem Effect.requests_from (effect : Effect state command after) {request : DispatchRequest}
    (member : request ∈ after.requests) :
    request ∈ state.requests ∨ command = .request request := by
  cases effect with
  | requested sent =>
      rcases List.mem_append.mp member with old | new
      · exact .inl old
      · obtain rfl := List.mem_singleton.mp new
        exact .inr rfl
  | _ => exact .inl member

end Effects

/-- Everything in the state was put there by an entry of the trace, and what was
fetched is a copy of a row. -/
structure Backed (world : World Command Reply State) : Prop where
  rows : ∀ row ∈ world.state.outbox.rows, ∃ thread entry reply,
    ⟨thread, .insert entry, reply⟩ ∈ world.trace ∧ MadeFrom entry row
  copies : ∀ thread limit batch, ⟨thread, .fetchPending limit, .ok batch⟩ ∈ world.trace →
    ∀ entry ∈ batch, ∃ row ∈ world.state.outbox.rows, Copies entry row
  logged : ∀ topic record, record ∈ world.state.log topic → ∃ thread reply,
    ⟨thread, .send topic record.key record.value, reply⟩ ∈ world.trace
  requested : ∀ request ∈ world.state.requests, ∃ thread reply,
    ⟨thread, .request request, reply⟩ ∈ world.trace

theorem Backed.initial : Backed ⟨State.initial, []⟩ where
  rows _ member := absurd member List.not_mem_nil
  copies _ _ _ member := absurd member List.not_mem_nil
  logged _ _ member := absurd member List.not_mem_nil
  requested _ member := absurd member List.not_mem_nil

/-- **The step lemma.** Every command leaves a state that the longer trace backs. -/
theorem Backed.record {world : World Command Reply State} (backed : Backed world) (thread : Nat)
    {command : Command} {choice : Choice} {reply : Reply command} {after : State}
    (executed : exec command choice world.state = some (reply, after)) :
    Backed (world.record thread command reply after) := by
  have effect := exec_effect executed
  have last : ⟨thread, command, reply⟩ ∈ (world.record thread command reply after).trace :=
    List.mem_append_right _ List.mem_cons_self
  have before : ∀ {original row}, original ∈ world.state.outbox.rows → Copies original row →
      ∃ issuer entry answer, ⟨issuer, .insert entry, answer⟩ ∈
        (world.record thread command reply after).trace ∧ MadeFrom entry row := by
    intro original row isOld copies
    obtain ⟨issuer, entry, answer, inserted, made⟩ := backed.rows original isOld
    exact ⟨issuer, entry, answer, List.mem_append_left _ inserted, made.sameContent copies.content⟩
  refine ⟨fun row member => ?_, fun fetcher limit batch member entry isEntry => ?_,
    fun topic record member => ?_, fun request member => ?_⟩
  · cases effect.rowFrom member with
    | kept old copies status => exact before old copies
    | marked old copies mark => exact before old copies
    | added inserted made pending largest =>
        subst inserted
        exact ⟨thread, _, reply, last, made⟩
  · rcases List.mem_append.mp member with old | new
    · obtain ⟨row, isRow, copies⟩ := backed.copies fetcher limit batch old entry isEntry
      obtain ⟨kept, isKept, same⟩ := effect.copied row isRow
      exact ⟨kept, isKept, copies.trans same⟩
    · -- What has just been fetched is a row.
      cases List.mem_singleton.mp new
      obtain ⟨rfl, order, isOrder, rfl⟩ := exec_fetchPending_ok executed
      have selected := isOrder.1.subset (List.mem_of_mem_take isEntry)
      exact ⟨entry, (List.mem_filter.mp selected).1, Copies.refl entry⟩
  · rcases effect.log_from member with old | rfl
    · obtain ⟨issuer, answer, sent⟩ := backed.logged topic record old
      exact ⟨issuer, answer, List.mem_append_left _ sent⟩
    · exact ⟨thread, reply, last⟩
  · rcases effect.requests_from member with old | rfl
    · obtain ⟨issuer, answer, sent⟩ := backed.requested request old
      exact ⟨issuer, answer, List.mem_append_left _ sent⟩
    · exact ⟨thread, reply, last⟩

/-! ### Codecs -/

/-- A codec of known messages reads them back when their encodings differ. -/
theorem ofList_roundTrips {messages : List (AppMessage × Bytes)} (frames : List (Frame × Bytes))
    (distinct : (messages.map Prod.snd).Nodup) (message : AppMessage) :
    (ProtoCodec.ofList messages frames).RoundTrips message := by
  intro payload marshalled
  simp only [ProtoCodec.ofList] at marshalled ⊢
  cases found : messages.find? fun known => known.1 = message with
  | none => simp [found] at marshalled
  | some known =>
      simp only [found, Except.ok.injEq] at marshalled
      have isKnown : known.1 = message := of_decide_eq_true (List.find?_some found :)
      have member := List.mem_of_find?_eq_some found
      cases read : messages.find? fun known => known.2 = payload with
      | none =>
          have missing := List.find?_eq_none.mp read known member
          exact absurd (decide_eq_true marshalled) missing
      | some other =>
          have isPayload : other.2 = payload := of_decide_eq_true (List.find?_some read :)
          have same : other = known := List.inj_on_of_nodup_map distinct
            (List.mem_of_find?_eq_some read) member (isPayload.trans marshalled.symm)
          simp only [same, isKnown]

theorem wire_messageId_bytes {codec : ProtoCodec} {message : AppMessage} {row : Entry}
    (isRow : IsRowOf codec message row) :
    message.wire.messageId.bytes = row.messageId := by
  have isWire : message.wire.messageId = wireSlice message.messageId := rfl
  rw [isWire, wireSlice_bytes, isRow.messageId]
  rfl

/-! ### Every run -/

/-- The pools of gateways, dispatchers and relays. -/
abbrev Servers := Pool Command Reply (Except String Unit) State Call

/-- Somebody submitted the message: it was passed to `Dispatch`, or a client sent it
to the gateway in a frame. -/
def Submitted (codec : ProtoCodec) (servers : Servers) (message : AppMessage) : Prop :=
  (∃ thread ∈ servers.threads, ∃ senderId, thread.call = .dispatch senderId (some message)) ∨
  ∃ thread ∈ servers.threads, ∃ remoteAddr plaintext frame,
    thread.call = .client true remoteAddr plaintext ∧
      Gateway.framedMessage codec plaintext = some (frame, message)

/-- The check of `Accepted` on a given state. -/
def accepts (servers : Servers) (message : AppMessage) : Bool :=
  servers.threads.any fun thread =>
    thread.call.dispatched == some message && thread.result?.any Except.isOk

theorem accepts_iff {servers : Servers} {message : AppMessage} :
    accepts servers message = true ↔ Accepted servers message := by
  simp only [accepts, List.any_eq_true, Bool.and_eq_true, beq_iff_eq, Option.any_eq_true]
  constructor
  · rintro ⟨thread, member, dispatched, result, isResult, isOk⟩
    refine ⟨thread, member, dispatched, ?_⟩
    cases result with
    | error error => cases isOk
    | ok _ => exact Thread.result?_eq_some isResult
  · rintro ⟨thread, member, dispatched, isDone⟩
    exact ⟨thread, member, dispatched, .ok (), by rw [Thread.result?, isDone], rfl⟩

/-- Nothing but these messages is dispatched, and no client sends anything. -/
def onlyDispatches (messages : List AppMessage) (servers : Servers) : Bool :=
  servers.threads.all fun thread =>
    match thread.call with
    | .dispatch _ (some message) => messages.contains message
    | .client .. => false
    | _ => true

theorem mem_of_onlyDispatches {codec : ProtoCodec} {messages : List AppMessage}
    {servers : Servers} (only : onlyDispatches messages servers = true) {message : AppMessage}
    (submitted : Submitted codec servers message) : message ∈ messages := by
  rw [onlyDispatches, List.all_eq_true] at only
  rcases submitted with ⟨thread, member, senderId, isCall⟩ | ⟨thread, member, _, _, _, isCall, -⟩
  · have allowed := only thread member
    rw [isCall] at allowed
    exact List.contains_iff_mem.mp allowed
  · have allowed := only thread member
    rw [isCall] at allowed
    cases allowed

/-- The request that a handler serves was sent. -/
def Call.Requested : Call → State → Prop
  | .serve _ request, state => request ∈ state.requests
  | _, _ => True

section Runs

variable {codec : ProtoCodec} {events : List (Event Call Choice)} {servers : Servers}
  (ran : (Pool.start State.initial).run (pipeline codec) events = some servers)

include ran

theorem run_backed : Backed servers.world :=
  Pool.world_invariant (fun _ thread _ _ _ _ backed executed => backed.record thread executed)
    Backed.initial ran

/-- The issuer of an entry of the trace. -/
theorem run_issuer {entry : Foundation.Entry Command Reply} (member : entry ∈ servers.world.trace) :
    ∃ thread ∈ servers.threads, ∃ past, past <+: servers.world.trace ∧
      Issues codec thread.call (ownPast past entry.thread) entry.command := by
  have obeying : servers.Obeying (Issues codec) := Pool.run_obeying (code_issues codec) ran
  obtain ⟨thread, past, found, isPast, issued⟩ := obeying.issuer member
  exact ⟨thread, List.mem_of_getElem? found, past, isPast, issued⟩

/-- A handler serves a request that was sent. -/
theorem run_served : ∀ thread ∈ servers.threads, thread.call.Requested servers.world.state := by
  have admitted : ∀ call state, (pipeline codec).admits call state = true →
      Call.Requested call state := by
    intro call state isAdmitted
    cases call with
    | serve rpc request => exact List.mem_of_getElem? (of_decide_eq_true isAdmitted)
    | _ => trivial
  refine Pool.calls_invariant admitted ?_ (fun _ member => absurd member List.not_mem_nil) ran
  intro call command choice state reply later requested executed
  cases call with
  | serve rpc request =>
      cases exec_effect executed with
      | requested sent => exact List.mem_append_left _ requested
      | _ => exact requested
  | _ => trivial

/-- A message that a call hands to `Dispatch` was submitted. -/
theorem submitted_of_dispatched {thread : Thread Command Reply (Except String Unit) Call}
    (member : thread ∈ servers.threads) {message : AppMessage}
    (dispatched : thread.call.dispatched = some message) :
    Submitted codec servers message := by
  cases isCall : thread.call with
  | dispatch senderId found =>
      rw [isCall] at dispatched
      obtain rfl : found = some message := dispatched
      exact .inl ⟨thread, member, senderId, isCall⟩
  | serve rpc request =>
      rw [isCall] at dispatched
      have isSent := run_served ran thread member
      rw [isCall] at isSent
      obtain ⟨sender, answer, sent⟩ := (run_backed ran).requested request isSent
      obtain ⟨client, isClient, past, -, remoteAddr, plaintext, frame, framed, calls, isFramed,
        carries⟩ := run_issuer ran sent
      obtain rfl := Option.some.inj (carries.symm.trans dispatched)
      exact .inr ⟨client, isClient, remoteAddr, plaintext, frame, calls, isFramed⟩
  | poll batch => rw [isCall] at dispatched; cases dispatched
  | client dispatcher remoteAddr plaintext => rw [isCall] at dispatched; cases dispatched

/-- **Every row was submitted.** -/
theorem row_submitted {row : Entry} (member : row ∈ servers.world.state.outbox.rows) :
    ∃ message, Submitted codec servers message ∧ IsRowOf codec message row := by
  obtain ⟨inserter, entry, reply, inserted, made⟩ := (run_backed ran).rows row member
  obtain ⟨thread, isThread, past, -, message, dispatched, built⟩ := run_issuer ran inserted
  obtain ⟨route, routed, marshalled, messageId, topic, key⟩ := newEntry_ok built
  refine ⟨message, submitted_of_dispatched ran isThread dispatched,
    ⟨route, routed, ?_, ?_⟩, ?_, ?_⟩
  · rw [made.topic, topic]
  · rw [← key, made.partitionKey]
  · rw [marshalled, made.payload]
  · rw [← messageId, made.messageId]

/-- **Every record is a copy of a row.** -/
theorem record_copied {topic : Bytes} {record : Record}
    (member : record ∈ servers.world.state.log topic) :
    ∃ row ∈ servers.world.state.outbox.rows, SendsCopy topic record.value row := by
  have backed := run_backed ran
  obtain ⟨sender, reply, sent⟩ := backed.logged topic record member
  obtain ⟨thread, -, past, isPast, batch, position, entry, turn, value, target⟩ :=
    run_issuer ran sent
  obtain ⟨limit, fetched⟩ := turn.fetched
  obtain ⟨row, isRow, same⟩ := backed.copies _ limit batch
    (isPast.subset (mem_ownPast.mp fetched)) entry (List.mem_of_getElem? turn.located)
  refine ⟨row, isRow, ?_, ?_⟩
  · rw [value, same.content.payload]
  · rw [← same.content.topic]
    exact target

/-- An accepted message has a settled row. -/
theorem accepted_row {message : AppMessage} (accepted : Accepted servers message) :
    ∃ row ∈ servers.world.state.outbox.rows, IsRowOf codec message row ∧
      servers.world.state.Settled row := by
  have disciplined : servers.Disciplined (discipline codec) (pipeline codec) (Call.Post codec) :=
    Pool.run_sound (fun call index world _ _ _ => code_sound codec call index world) _
      (Pool.start_disciplined (State.Safe.initial codec)) ran
  obtain ⟨sender, isSender, dispatched, isDone⟩ := accepted
  obtain ⟨row, stored, isRow⟩ := disciplined.result isSender isDone message dispatched rfl
  exact ⟨row, stored, isRow, disciplined.invariant.settled row stored⟩

/-- When every row is published, an accepted message has a row and its record is in
the log. -/
theorem accepted_logged
    (published : ∀ row ∈ servers.world.state.outbox.rows, row.status = .published)
    {message : AppMessage} (accepted : Accepted servers message) :
    ∃ row ∈ servers.world.state.outbox.rows, IsRowOf codec message row ∧
      ⟨some row.partitionKey, row.payload⟩ ∈ servers.world.state.log row.topic := by
  obtain ⟨row, stored, isRow, settled⟩ := accepted_row ran accepted
  refine ⟨row, stored, isRow, ?_⟩
  have isPublished := published row stored
  rcases settled with pending | ⟨-, member⟩ | ⟨failed, -⟩
  · cases pending.symm.trans isPublished
  · exact member
  · cases failed.symm.trans isPublished

/-- Rows with the same payload are the same row. -/
theorem eq_of_payload_eq (roundTrips : ∀ message, codec.RoundTrips message) {row other : Entry}
    (isRow : row ∈ servers.world.state.outbox.rows)
    (isOther : other ∈ servers.world.state.outbox.rows) (same : row.payload = other.payload) :
    row = other := by
  obtain ⟨message, -, ofMessage⟩ := row_submitted ran isRow
  obtain ⟨found, -, ofFound⟩ := row_submitted ran isOther
  have sameWire : found.wire = message.wire := ProtoCodec.wire_eq_of_marshal_eq (roundTrips found)
    (roundTrips message) ofFound.payload (same ▸ ofMessage.payload)
  refine SerialTable.eq_of_key_eq isRow isOther ?_
  show row.messageId = other.messageId
  rw [← wire_messageId_bytes ofMessage, ← wire_messageId_bytes ofFound, sameWire]

end Runs

end FProto.Outbox

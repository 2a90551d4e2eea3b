import FProto.Foundation.Coupling
import FProto.Sync.Concurrency

/-!
Owns where the rows of the inbox and the dedup keys come from while any number
of consumers run, and what a consumer that has finished is known to have done.

As for the outbox, what is in the state was put there by an entry of the trace,
and the code alone says which call issues which command.
-/

namespace FProto.Sync

open FProto.Foundation
open FProto.Protocol
open FProto.Kafka

/-! ### What the code issues -/

/-- The record that a call handles. -/
def Call.handled : Call → Option ConsumerMessage
  | .handle _ record => some record
  | _ => none

/-- The call handles a record that carries the message for the user. -/
structure HandlesFor (codec : ProtoCodec) (call : Call) (record : ConsumerMessage)
    (userID : Bytes) (message : AppMessage) : Prop where
  handled : call.handled = some record
  carries : Carries codec record userID message

/-- Which command a call may issue. -/
def Issues (codec : ProtoCodec) (call : Call) (_ : List (Executed Command Reply)) :
    Command → Prop
  | .setNX key => ∃ record userID message, HandlesFor codec call record userID message ∧
      key = dedupKey userID message.messageId.bytes
  | .insert entry => ∃ record userID message, HandlesFor codec call record userID message ∧
      entry = newEntry userID message record
  | .publish record => call = .publish record
  | _ => True

/-- What a call has executed once it is finished: a handler has tried to mark the
message of its record, and has tried to store it if the mark was its own. -/
def Meets (codec : ProtoCodec) (call : Call) (_ : Except String Unit)
    (own : List (Executed Command Reply)) : Prop :=
  ∀ record userID message, HandlesFor codec call record userID message →
    (∃ reply, ⟨.setNX (dedupKey userID message.messageId.bytes), reply⟩ ∈ own) ∧
      (⟨.setNX (dedupKey userID message.messageId.bytes), .ok true⟩ ∈ own →
        ∃ answer, ⟨.insert (newEntry userID message record), answer⟩ ∈ own)

section Programs

variable {codec : ProtoCodec}

theorem handle_issues (pushClient : Bool) (record : ConsumerMessage)
    (own : List (Executed Command Reply)) :
    (handle codec pushClient record).Obeys (Issues codec (.handle pushClient record))
      (fun _ _ => True) own := by
  unfold handle
  split
  · trivial
  · next message decoded =>
    split
    · trivial
    · next userID recipient =>
      have handles : HandlesFor codec (.handle pushClient record) record userID message :=
        ⟨rfl, decoded, recipient⟩
      refine ⟨⟨record, userID, message, handles, rfl⟩, fun marked => ?_⟩
      cases marked with
      | error error => trivial
      | ok set =>
          cases set with
          | false => trivial
          | true =>
              refine ⟨⟨record, userID, message, handles, rfl⟩, fun stored => ?_⟩
              cases stored with
              | error error => trivial
              | ok _ =>
                  cases pushClient with
                  | false => trivial
                  | true => exact ⟨trivial, fun _ => trivial⟩

theorem code_issues (codec : ProtoCodec) (call : Call) :
    (code codec call).Obeys (Issues codec call) (fun _ _ => True) [] := by
  cases call with
  | handle pushClient record => exact handle_issues pushClient record []
  | publish record => exact ⟨rfl, fun _ => trivial⟩
  | expire key => exact ⟨trivial, fun _ => trivial⟩

/-- The promise of a handler, for the one message that its record carries. -/
theorem meets_handle {pushClient : Bool} {record : ConsumerMessage} {userID : Bytes}
    {message : AppMessage} (carries : Carries codec record userID message)
    {own : List (Executed Command Reply)} {reply : Except String Bool}
    (marked : ⟨.setNX (dedupKey userID message.messageId.bytes), reply⟩ ∈ own)
    (stored : ⟨.setNX (dedupKey userID message.messageId.bytes), .ok true⟩ ∈ own →
      ∃ answer, ⟨.insert (newEntry userID message record), answer⟩ ∈ own)
    (result : Except String Unit) : Meets codec (.handle pushClient record) result own := by
  rintro _ user other ⟨isCall, otherCarries⟩
  cases isCall
  obtain ⟨rfl, rfl⟩ := carries.unique otherCarries
  exact ⟨⟨reply, marked⟩, stored⟩

theorem handle_meets (pushClient : Bool) (record : ConsumerMessage) :
    (handle codec pushClient record).Obeys (fun _ _ => True)
      (Meets codec (.handle pushClient record)) [] := by
  unfold handle
  split
  · next error refused =>
    rintro _ userID message ⟨isCall, carries⟩
    cases isCall
    cases refused.symm.trans carries.decoded
  · next message decoded =>
    split
    · next noRecipient =>
      rintro _ userID other ⟨isCall, carries⟩
      cases isCall
      exact absurd noRecipient (carries.recipient_ne_none decoded)
    · next userID recipient =>
      have carries : Carries codec record userID message := ⟨decoded, recipient⟩
      refine ⟨trivial, fun marked => ?_⟩
      cases marked with
      | error error => exact meets_handle carries List.mem_cons_self (fun won => by simp at won) _
      | ok set =>
          cases set with
          | false => exact meets_handle carries List.mem_cons_self (fun won => by simp at won) _
          | true =>
              -- Whatever follows, the insert has been issued.
              refine ⟨trivial, fun stored => ?_⟩
              cases stored with
              | error error =>
                  exact meets_handle carries List.mem_cons_self (fun _ => ⟨.error error, by simp⟩) _
              | ok _ =>
                  cases pushClient with
                  | false =>
                      exact meets_handle carries List.mem_cons_self (fun _ => ⟨.ok (), by simp⟩) _
                  | true =>
                      refine ⟨trivial, fun pushed => ?_⟩
                      exact meets_handle carries List.mem_cons_self (fun _ => ⟨.ok (), by simp⟩) _

theorem code_meets (codec : ProtoCodec) (call : Call) :
    (code codec call).Obeys (fun _ _ => True) (Meets codec call) [] := by
  cases call with
  | handle pushClient record => exact handle_meets pushClient record
  | publish record =>
      refine ⟨trivial, fun _ => ?_⟩
      rintro _ userID message ⟨isCall, -⟩
      cases isCall
  | expire key =>
      refine ⟨trivial, fun _ => ?_⟩
      rintro _ userID message ⟨isCall, -⟩
      cases isCall

end Programs

/-! ### What the state holds -/

/-- A `SETNX` that may have set the key. -/
def Marks (key : Bytes) : Entry Command Reply → Prop
  | ⟨_, .setNX _, .ok false⟩ => False
  | ⟨_, .setNX other, _⟩ => other = key
  | _ => False

/-- Everything in the state was put there by an entry of the trace, and what
succeeded is in the state. -/
structure Backed (world : World Command Reply State) : Prop where
  rows : ∀ row ∈ world.state.inbox.rows, ∃ thread reply,
    ⟨thread, .insert row.columns, reply⟩ ∈ world.trace
  stored : ∀ thread entry, ⟨thread, .insert entry, .ok ()⟩ ∈ world.trace →
    ∃ row ∈ world.state.inbox.rows,
      entry.userId = some row.userId ∧ entry.messageId = some row.messageId
  published : ∀ record ∈ world.state.published, ∃ thread,
    ⟨thread, .publish record, ()⟩ ∈ world.trace
  marked : ∀ key ∈ world.state.dedup, ∃ entry ∈ world.trace, Marks key entry
  seen : ∀ thread key, ⟨thread, .setNX key, .ok false⟩ ∈ world.trace →
    ∃ entry ∈ world.trace, Marks key entry

theorem Backed.initial : Backed ⟨State.initial, []⟩ where
  rows _ member := absurd member List.not_mem_nil
  stored _ _ member := absurd member List.not_mem_nil
  published _ member := absurd member List.not_mem_nil
  marked _ member := absurd member List.not_mem_nil
  seen _ _ member := absurd member List.not_mem_nil

section Steps

variable {command : Command} {choice : Choice} {state after : State} {reply : Reply command}

/-- A key after a command was there before, or has just been marked. -/
theorem dedup_from (executed : exec command choice state = some (reply, after)) (thread : Nat)
    {key : Bytes} (member : key ∈ after.dedup) :
    key ∈ state.dedup ∨ Marks key ⟨thread, command, reply⟩ := by
  cases command with
  | setNX other =>
      cases choice with
      | ok now =>
          by_cases present : other ∈ state.dedup
          · simp only [exec, present, List.insert_of_mem, Option.some.injEq,
              Prod.mk.injEq] at executed
            obtain ⟨-, rfl⟩ := executed
            exact .inl member
          · have absent : state.dedup.contains other = false := by simpa using present
            simp only [exec, absent, Bool.not_false, Option.some.injEq, Prod.mk.injEq] at executed
            obtain ⟨rfl, rfl⟩ := executed
            rcases List.mem_insert_iff.mp member with rfl | old
            · exact .inr rfl
            · exact .inl old
      | fail error => cases executed; exact .inl member
      | failApplied now error =>
          cases executed
          rcases List.mem_insert_iff.mp member with rfl | old
          · exact .inr rfl
          · exact .inl old
  | expire other =>
      cases exec_effect executed with
      | expired => exact .inl (List.mem_filter.mp member).1
  | _ => cases exec_effect executed <;> exact .inl member

/-- A `SETNX` that did not set its key found it. -/
theorem present_of_seen {key : Bytes}
    (executed : exec (.setNX key) choice state = some (.ok false, after)) :
    key ∈ state.dedup := by
  cases choice with
  | ok now =>
      simp only [exec, Option.some.injEq, Prod.mk.injEq, Except.ok.injEq, Bool.not_eq_false',
        List.contains_iff_mem] at executed
      exact executed.1
  | _ => cases executed

/-- A row after a command was there before, or has just been inserted, with a larger
id than all others. -/
theorem Effect.rows_from (effect : Effect state command reply after) {row : Inbox.Entry}
    (member : row ∈ after.inbox.rows) :
    row ∈ state.inbox.rows ∨
      command = .insert row.columns ∧ ∀ other ∈ state.inbox.rows, other.id < row.id := by
  cases effect with
  | inserted accepted =>
      rcases Inbox.insert_columns accepted member with old | ⟨rfl, isId⟩
      · exact .inl old
      · refine .inr ⟨rfl, fun other isOld => ?_⟩
        rw [isId]
        exact state.inbox.id_lt other isOld
  | _ => exact .inl member

theorem Effect.rows_grow (effect : Effect state command reply after) :
    ∀ row ∈ state.inbox.rows, row ∈ after.inbox.rows := by
  cases effect with
  | inserted accepted =>
      obtain ⟨_, _, _, -, -, -, kept, -⟩ := Inbox.insert_ok accepted
      exact kept
  | _ => exact fun _ member => member

theorem Effect.published_from (effect : Effect state command reply after)
    {record : ConsumerMessage} (member : record ∈ after.published) :
    record ∈ state.published ∨ command = .publish record := by
  cases effect with
  | published added =>
      rcases List.mem_append.mp member with old | new
      · exact .inl old
      · obtain rfl := List.mem_singleton.mp new
        exact .inr rfl
  | _ => exact .inl member

/-- An insert that succeeds leaves a row. -/
theorem stored_of_ok {entry : Inbox.NewEntry}
    (executed : exec (.insert entry) choice state = some (.ok (), after)) :
    ∃ row ∈ after.inbox.rows,
      entry.userId = some row.userId ∧ entry.messageId = some row.messageId := by
  cases exec_effect executed with
  | inserted accepted =>
      obtain ⟨userId, messageId, payload, userEq, messageEq, -, -, ⟨row, member, rfl, rfl⟩, -⟩ :=
        Inbox.insert_ok accepted
      exact ⟨row, member, userEq, messageEq⟩

/-- **The step lemma.** Every command leaves a state that the longer trace backs. -/
theorem Backed.record {world : World Command Reply State} (backed : Backed world) (thread : Nat)
    (executed : exec command choice world.state = some (reply, after)) :
    Backed (world.record thread command reply after) := by
  have effect := exec_effect executed
  have longer : ∀ {entry}, entry ∈ world.trace →
      entry ∈ (world.record thread command reply after).trace :=
    fun member => List.mem_append_left _ member
  have last : ⟨thread, command, reply⟩ ∈ (world.record thread command reply after).trace :=
    List.mem_append_right _ List.mem_cons_self
  refine ⟨fun row member => ?_, fun issuer entry member => ?_, fun record member => ?_,
    fun key member => ?_, fun issuer key member => ?_⟩
  · rcases effect.rows_from member with old | ⟨rfl, -⟩
    · obtain ⟨issuer, answer, inserted⟩ := backed.rows row old
      exact ⟨issuer, answer, longer inserted⟩
    · exact ⟨thread, reply, last⟩
  · rcases List.mem_append.mp member with old | new
    · obtain ⟨row, isRow, same⟩ := backed.stored issuer entry old
      exact ⟨row, effect.rows_grow row isRow, same⟩
    · cases List.mem_singleton.mp new
      exact stored_of_ok executed
  · rcases effect.published_from member with old | rfl
    · obtain ⟨issuer, sent⟩ := backed.published record old
      exact ⟨issuer, longer sent⟩
    · exact ⟨thread, last⟩
  · rcases dedup_from executed thread member with old | marks
    · obtain ⟨entry, isEntry, marks⟩ := backed.marked key old
      exact ⟨entry, longer isEntry, marks⟩
    · exact ⟨_, last, marks⟩
  · rcases List.mem_append.mp member with old | new
    · obtain ⟨entry, isEntry, marks⟩ := backed.seen issuer key old
      exact ⟨entry, longer isEntry, marks⟩
    · cases List.mem_singleton.mp new
      obtain ⟨entry, isEntry, marks⟩ := backed.marked key (present_of_seen executed)
      exact ⟨entry, longer isEntry, marks⟩

end Steps

/-! ### Every run -/

/-- The pools of consumers. -/
abbrev Consumers := Pool Command Reply (Except String Unit) State Call

/-- The record of a handler was published. -/
def Call.Published (call : Call) (state : State) : Prop :=
  ∀ record, call.handled = some record → record ∈ state.published

section Runs

variable {codec : ProtoCodec} {events : List (Event Call Choice)} {pool : Consumers}
  (ran : (Pool.start State.initial).run (consumers codec) events = some pool)

include ran

theorem run_backed : Backed pool.world :=
  Pool.world_invariant (fun _ thread _ _ _ _ backed executed => backed.record thread executed)
    Backed.initial ran

theorem run_issuer {entry : Entry Command Reply} (member : entry ∈ pool.world.trace) :
    ∃ thread own, pool.threads[entry.thread]? = some thread ∧
      Issues codec thread.call own entry.command := by
  have obeying : pool.Obeying (Issues codec) := Pool.run_obeying (code_issues codec) ran
  obtain ⟨thread, past, found, -, issued⟩ := obeying.issuer member
  exact ⟨thread, _, found, issued⟩

theorem run_published : ∀ thread ∈ pool.threads, thread.call.Published pool.world.state := by
  have admitted : ∀ call state, (consumers codec).admits call state = true →
      Call.Published call state := by
    intro call state isAdmitted record handled
    cases call with
    | handle pushClient found =>
        obtain rfl := Option.some.inj handled
        exact of_decide_eq_true isAdmitted
    | _ => cases handled
  refine Pool.calls_invariant admitted ?_ (fun _ member => absurd member List.not_mem_nil) ran
  intro call command choice state reply later published executed record handled
  exact (exec_effect executed).published_grows record (published record handled)

/-- A record that is published was published by a call of the environment. -/
theorem published_by_call {record : ConsumerMessage}
    (member : record ∈ pool.world.state.published) :
    ∃ thread ∈ pool.threads, thread.call = .publish record := by
  obtain ⟨issuer, sent⟩ := (run_backed ran).published record member
  obtain ⟨thread, own, found, issued⟩ := run_issuer ran sent
  exact ⟨thread, List.mem_of_getElem? found, issued⟩

/-- **Every row was handled.** Its columns are those of a record that a handler got. -/
theorem row_handled {row : Inbox.Entry} (member : row ∈ pool.world.state.inbox.rows) :
    ∃ record userID message, record ∈ pool.world.state.published ∧
      Carries codec record userID message ∧ row.columns = newEntry userID message record := by
  obtain ⟨inserter, reply, inserted⟩ := (run_backed ran).rows row member
  obtain ⟨thread, own, found, record, userID, message, handles, columns⟩ := run_issuer ran inserted
  have published := run_published ran thread (List.mem_of_getElem? found) record handles.handled
  exact ⟨record, userID, message, published, handles.carries, columns⟩

end Runs

end FProto.Sync

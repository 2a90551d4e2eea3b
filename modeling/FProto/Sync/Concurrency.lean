import FProto.Sync.Delivery

/-!
Owns any number of consumers that run `Handler.Handle` at once on the records
of the topic logs. Their commands interleave in any order, every command may
fail with or without effect, and dedup keys expire at any moment.

The table keeps pairs of user and message unique. Every row comes from a
published record for its user. Pushes are counted against credits: a thread
pushes a message only after its own `SETNX` won the key of that message, and a
key is won again only after it expired.
-/

namespace FProto.Sync

open FProto.Foundation
open FProto.Protocol
open FProto.Kafka

/-! ### The system -/

/-- A consumer handles a record, or the environment acts. -/
inductive Call where
  | handle (pushClient : Bool) (record : ConsumerMessage)
  | publish (record : ConsumerMessage)
  | expire (key : Bytes)

def code (codec : ProtoCodec) : Call → Code (Except String Unit)
  | .handle pushClient record => handle codec pushClient record
  | .publish record => do
      let _ ← (Program.issue (Command.publish record) : Code Unit)
      return .ok ()
  | .expire key => do
      let _ ← (Program.issue (Command.expire key) : Code Unit)
      return .ok ()

/-- A record is delivered any number of times after it was published. -/
def admits : Call → State → Bool
  | .handle _ record, state => record ∈ state.published
  | _, _ => true

def consumers (codec : ProtoCodec) :
    System Command Reply (Except String Unit) State Choice Call where
  exec := exec
  code := code codec
  admits := admits

/-! ### What a command can do -/

/-- Everything a command can do, with its reply. -/
inductive Effect (state : State) : (command : Command) → Reply command → State → Prop where
  | won (key : Bytes) (absent : key ∉ state.dedup) :
      Effect state (.setNX key) (.ok true) { state with dedup := key :: state.dedup }
  | seen (key : Bytes) : Effect state (.setNX key) (.ok false) state
  | markFailed (key : Bytes) (error : String) {dedup : List Bytes}
      (kept : ∀ other ∈ state.dedup, other ∈ dedup) :
      Effect state (.setNX key) (.error error) { state with dedup }
  | inserted {entry : Inbox.NewEntry} {now : Nat} {inbox : Inbox.Table}
      (accepted : Inbox.insert state.inbox now entry = .ok inbox) (reply : Except String Unit) :
      Effect state (.insert entry) reply { state with inbox }
  | notInserted (entry : Inbox.NewEntry) (error : String) :
      Effect state (.insert entry) (.error error) state
  | pushed (userID : Bytes) (message : AppMessage) (reply : Except String Unit) :
      Effect state (.pushToUser userID message) reply state
  | published (record : ConsumerMessage) :
      Effect state (.publish record) () { state with published := state.published ++ [record] }
  | expired (key : Bytes) (present : key ∈ state.dedup) :
      Effect state (.expire key) ()
        { state with dedup := state.dedup.filter fun other => other ≠ key }

theorem exec_effect {command : Command} {choice : Choice} {state after : State}
    {reply : Reply command} (executed : exec command choice state = some (reply, after)) :
    Effect state command reply after := by
  cases command with
  | setNX key =>
      cases choice with
      | ok now =>
          by_cases present : key ∈ state.dedup
          · simp only [exec, List.contains_iff_mem.mpr present, Bool.not_true, present,
              List.insert_of_mem, Option.some.injEq, Prod.mk.injEq] at executed
            obtain ⟨rfl, rfl⟩ := executed
            exact .seen key
          · have absent : state.dedup.contains key = false := by simpa using present
            simp only [exec, absent, Bool.not_false, present, not_false_iff,
              List.insert_of_not_mem, Option.some.injEq, Prod.mk.injEq] at executed
            obtain ⟨rfl, rfl⟩ := executed
            exact .won key present
      | fail error =>
          cases executed
          exact .markFailed key error fun _ member => member
      | failApplied now error =>
          cases executed
          exact .markFailed key error fun _ member => List.mem_insert_of_mem member
  | insert entry =>
      cases choice with
      | ok now =>
          simp only [exec] at executed
          split at executed
          · cases executed; exact .notInserted entry _
          · next accepted => cases executed; exact .inserted accepted _
      | fail error => cases executed; exact .notInserted entry _
      | failApplied now error =>
          simp only [exec] at executed
          split at executed
          · cases executed; exact .notInserted entry _
          · next accepted => cases executed; exact .inserted accepted _
  | pushToUser userID message => cases choice <;> cases executed <;> exact .pushed userID message _
  | publish record =>
      cases choice with
      | ok now => cases executed; exact .published record
      | _ => cases executed
  | expire key =>
      cases choice with
      | ok now =>
          simp only [exec] at executed
          split at executed
          · next present =>
            cases executed
            exact .expired key (List.contains_iff_mem.mp present)
          · cases executed
      | _ => cases executed

/-! ### Counting pushes -/

/-- A `SETNX` that set the key. -/
def isWin (key : Bytes) : Entry Command Reply → Bool
  | ⟨_, .setNX other, .ok true⟩ => other == key
  | _ => false

/-- A `PushToUser` call for the message. -/
def isPush (userID messageID : Bytes) : Entry Command Reply → Bool
  | ⟨_, .pushToUser user message, _⟩ => user == userID && message.messageId.bytes == messageID
  | _ => false

def isExpiry (key : Bytes) : Entry Command Reply → Bool
  | ⟨_, .expire other, _⟩ => other == key
  | _ => false

/-- The row was made from a published record for its user. -/
def State.Sourced (codec : ProtoCodec) (state : State) (row : Inbox.Entry) : Prop :=
  ∃ record ∈ state.published, record.value = some row.payload ∧
    ∃ message, codec.unmarshal row.payload = .ok message ∧
      message.messageId = some row.messageId ∧
      extractRecipientID message record.topic = some row.userId

/-- The invariant: rows have a source, a key was won at most once more than it
expired, and no thread pushed more often than it won. -/
structure Consistent (codec : ProtoCodec) (world : World Command Reply State) : Prop where
  sourced : ∀ row ∈ world.state.inbox.rows, world.state.Sourced codec row
  won : ∀ key, world.trace.countP (isWin key) ≤
    world.trace.countP (isExpiry key) + if key ∈ world.state.dedup then 1 else 0
  pushed : ∀ thread userID messageID,
    (world.history thread).countP (isPush userID messageID) ≤
      (world.history thread).countP (isWin (dedupKey userID messageID))

/-- What a command of a thread may rely on for the invariant to survive it. -/
def Command.Allowed (codec : ProtoCodec) (thread : Nat) (world : World Command Reply State) :
    Command → Prop
  | .insert entry => ∃ record ∈ world.state.published, ∃ userID message,
      Carries codec record userID message ∧ entry = newEntry userID message record
  | .pushToUser userID message =>
      (world.history thread).countP (isPush userID message.messageId.bytes) <
        (world.history thread).countP (isWin (dedupKey userID message.messageId.bytes))
  | _ => True

section Steps

variable {codec : ProtoCodec} {thread : Nat} {world : World Command Reply State}
  {command : Command} {reply : Reply command} {after : State}

theorem State.Sourced.grow {before after : State} {row : Inbox.Entry}
    (sourced : before.Sourced codec row)
    (grows : ∀ record ∈ before.published, record ∈ after.published) :
    after.Sourced codec row := by
  obtain ⟨record, member, source⟩ := sourced
  exact ⟨record, grows record member, source⟩

/-- Records are never taken back. -/
theorem Effect.published_grows {state : State} (effect : Effect state command reply after) :
    ∀ record ∈ state.published, record ∈ after.published := by
  cases effect with
  | published record => exact fun _ member => List.mem_append_left _ member
  | _ => exact fun _ member => member

/-- Every row a command leaves has a source. -/
theorem Effect.sourced (consistent : Consistent codec world)
    (allowed : command.Allowed codec thread world)
    (effect : Effect world.state command reply after) :
    ∀ row ∈ after.inbox.rows, after.Sourced codec row := by
  have grows := effect.published_grows
  cases effect with
  | inserted accepted =>
      obtain ⟨record, member, userID, message, carries, rfl⟩ := allowed
      obtain ⟨user, messageID, payload, userEq, messageEq, payloadEq, -, -, rows⟩ :=
        Inbox.insert_ok accepted
      have sameUser : userID = user := Option.some.inj userEq
      have sameMessage : message.messageId = some messageID := messageEq
      have samePayload : record.value = some payload := payloadEq
      intro row rowMember
      rcases rows row rowMember with old | ⟨rowUser, rowMessage, rowPayload⟩
      · exact (consistent.sourced row old).grow grows
      · have decoded := carries.decoded
        rw [samePayload] at decoded
        refine ⟨record, member, by rw [samePayload, rowPayload], message, ?_, ?_, ?_⟩
        · rw [rowPayload]
          exact decoded
        · rw [sameMessage, rowMessage]
        · rw [carries.recipient, sameUser, rowUser]
  | _ => exact fun row member => (consistent.sourced row member).grow grows

/-- A key is won only while it is absent. -/
theorem Effect.won_le (consistent : Consistent codec world)
    (effect : Effect world.state command reply after) (key : Bytes) :
    (world.record thread command reply after).trace.countP (isWin key) ≤
      (world.record thread command reply after).trace.countP (isExpiry key) +
        if key ∈ after.dedup then 1 else 0 := by
  have before := consistent.won key
  rw [World.record_trace, List.countP_append, List.countP_append, List.countP_singleton,
    List.countP_singleton]
  cases effect with
  | won other absent =>
      by_cases same : other = key
      · subst same
        simp only [absent, if_false, isWin, isExpiry, beq_self_eq_true, if_true,
          List.mem_cons_self, Bool.false_eq_true] at before ⊢
        omega
      · simpa [isWin, isExpiry, same, Ne.symm same] using before
  | markFailed other error kept =>
      by_cases present : key ∈ world.state.dedup
      · have stillPresent := kept key present
        simpa [isWin, isExpiry, present, stillPresent] using before
      · rw [if_neg present] at before
        simp only [isWin, isExpiry, Bool.false_eq_true, if_false]
        omega
  | expired other present =>
      by_cases same : other = key
      · subst same
        rw [if_pos present] at before
        simpa [isWin, isExpiry] using before
      · simpa [isWin, isExpiry, same, Ne.symm same] using before
  | _ => simpa [isWin, isExpiry] using before

/-- No thread pushes more often than it won. -/
theorem pushed_le (consistent : Consistent codec world)
    (allowed : command.Allowed codec thread world) (other : Nat) (userID messageID : Bytes) :
    ((world.record thread command reply after).history other).countP (isPush userID messageID) ≤
      ((world.record thread command reply after).history other).countP
        (isWin (dedupKey userID messageID)) := by
  have before := consistent.pushed other userID messageID
  by_cases own : other = thread
  · subst own
    rw [World.history_record_self, List.countP_append, List.countP_append,
      List.countP_singleton, List.countP_singleton]
    cases pushes : isPush userID messageID (⟨other, command, reply⟩ : Entry Command Reply) with
    | false =>
        rw [if_neg (by simp)]
        omega
    | true =>
        -- Only a push counts as one, and its thread has a credit left.
        cases command with
        | pushToUser user message =>
            simp only [isPush, Bool.and_eq_true, beq_iff_eq] at pushes
            obtain ⟨rfl, rfl⟩ := pushes
            have credit : _ < _ := allowed
            rw [if_pos rfl]
            omega
        | _ => cases pushes
  · rw [World.history_record_of_ne world own]
    exact before

/-- **The step lemma.** An allowed command keeps the invariant. -/
theorem Consistent.record (consistent : Consistent codec world)
    (allowed : command.Allowed codec thread world)
    (effect : Effect world.state command reply after) :
    Consistent codec (world.record thread command reply after) where
  sourced := effect.sourced consistent allowed
  won := effect.won_le consistent
  pushed := pushed_le consistent allowed

end Steps

/-! ### Every program -/

def discipline (codec : ProtoCodec) : Discipline Command Reply State where
  Invariant := Consistent codec
  Evolves before after := ∀ record ∈ before.state.published, record ∈ after.state.published
  evolves_refl _ _ member := member
  evolves_trans early late record member := late record (early record member)

section Programs

variable {codec : ProtoCodec} {thread : Nat} {Value : Type}
  {post : Value → World Command Reply State → Prop} {world : World Command Reply State}

/-- What allows a command is stable while other threads act. -/
theorem Command.Allowed.later {command : Command} {after : World Command Reply State}
    (allowed : command.Allowed codec thread world)
    (later : (discipline codec).Later thread world after) :
    command.Allowed codec thread after := by
  cases command with
  | insert entry =>
      obtain ⟨record, member, source⟩ := allowed
      exact ⟨record, later.evolves record member, source⟩
  | pushToUser userID message =>
      unfold Command.Allowed at allowed ⊢
      rw [later.history]
      exact allowed
  | _ => trivial

/-- One allowed command, after which the thread knows its reply. -/
theorem sound_call {command : Command} {next : Reply command → Code Value}
    (allowed : command.Allowed codec thread world)
    (following : ∀ reply after,
      (∀ record ∈ world.state.published, record ∈ after.state.published) →
      after.history thread = world.history thread ++ [⟨thread, command, reply⟩] →
      (discipline codec).Sound exec thread post (next reply) after) :
    (discipline codec).Sound exec thread post (.call command next) world := by
  intro before later consistent choice reply state executed
  have effect := exec_effect executed
  have grows := effect.published_grows
  refine ⟨consistent.record (allowed.later later) effect, grows, following reply _ ?_ ?_⟩
  · exact fun record member => grows record (later.evolves record member)
  · rw [World.history_record_self, later.history]

/-- A handler that is delivered a published record. -/
theorem handle_sound {pushClient : Bool} {record : ConsumerMessage}
    (published : record ∈ world.state.published) (fresh : world.history thread = []) :
    (discipline codec).Sound exec thread (fun _ _ => True) (handle codec pushClient record)
      world := by
  have finished : ∀ (result : Except String Unit) (after : World Command Reply State),
      (discipline codec).Sound exec thread (fun _ _ => True) (.done result) after :=
    fun _ _ _ _ _ => trivial
  unfold handle
  split
  · exact finished _ _
  · next message decoded =>
    split
    · exact finished _ _
    · next userID recipient =>
      refine sound_call trivial fun reply marked grows history => ?_
      rw [fresh, List.nil_append] at history
      cases reply with
      | error error => exact finished _ _
      | ok set =>
          cases set with
          | false => exact finished _ _
          | true =>
              have allowed : (Command.insert (newEntry userID message record)).Allowed codec
                  thread marked :=
                ⟨record, grows record published, userID, message, ⟨decoded, recipient⟩, rfl⟩
              refine sound_call allowed fun reply inserted _ insertHistory => ?_
              rw [history] at insertHistory
              cases reply with
              | error error => exact finished _ _
              | ok _ =>
                  cases pushClient with
                  | false => exact finished _ _
                  | true =>
                      have credit : (Command.pushToUser userID message).Allowed codec thread
                          inserted := by
                        unfold Command.Allowed
                        rw [insertHistory]
                        simp [isPush, isWin]
                      exact sound_call credit fun _ _ _ _ => finished _ _

theorem code_sound (call : Call) (admitted : admits call world.state = true)
    (fresh : world.history thread = []) :
    (discipline codec).Sound exec thread (fun _ _ => True) (code codec call) world := by
  cases call with
  | handle pushClient record => exact handle_sound (of_decide_eq_true admitted) fresh
  | publish record => exact sound_call trivial fun _ _ _ _ => fun _ _ _ => trivial
  | expire key => exact sound_call trivial fun _ _ _ _ => fun _ _ _ => trivial

end Programs

/-! ### Every run -/

theorem Consistent.initial (codec : ProtoCodec) : Consistent codec ⟨State.initial, []⟩ where
  sourced _ member := absurd member List.not_mem_nil
  won _ := Nat.zero_le _
  pushed _ _ _ := Nat.le_refl _

/-- **No duplicate row, no misdelivered row, no duplicate push.** In every state
of every schedule, pairs of user and message are unique, every row is the
value of a published record that decodes to the row's message for the row's
user, and a message was pushed at most once more than its dedup key expired. -/
theorem no_duplicate_delivery {codec : ProtoCodec} {events : List (Event Call Choice)}
    {pool : Pool Command Reply (Except String Unit) State Call}
    (ran : (Pool.start State.initial).run (consumers codec) events = some pool) :
    (pool.world.state.inbox.rows.map fun row => (row.userId, row.messageId)).Nodup ∧
    (∀ row ∈ pool.world.state.inbox.rows, pool.world.state.Sourced codec row) ∧
    (∀ userID messageID, pool.world.trace.countP (isPush userID messageID) ≤
      1 + pool.world.trace.countP (isExpiry (dedupKey userID messageID))) := by
  have disciplined : pool.Disciplined (discipline codec) (consumers codec) fun _ _ _ => True :=
    Pool.run_sound (fun call _ _ _ admitted fresh => code_sound call admitted fresh) events
      (Pool.start_disciplined (Consistent.initial codec)) ran
  have consistent : Consistent codec pool.world := disciplined.invariant
  refine ⟨pool.world.state.inbox.keys_nodup, consistent.sourced, fun userID messageID => ?_⟩
  have pushes := pool.world.countP_trace_le_of_history (isPush userID messageID)
    (isWin (dedupKey userID messageID)) fun thread => consistent.pushed thread userID messageID
  have wins := consistent.won (dedupKey userID messageID)
  split at wins
  · omega
  · omega

/-- Two consumers handle the same record, its key expires, and it is delivered
again: one row and two pushes. -/
def sampleSchedule : List (Event Call Choice) :=
  let record : ConsumerMessage := { topic := utf8 "user-aa", value := some sampleChatPayload }
  [.spawn (.publish record), .step 0 (.ok 0),
    .spawn (.handle true record), .spawn (.handle true record),
    .step 1 (.ok 1), .step 2 (.ok 1), .step 1 (.ok 2), .step 1 (.fail "offline"),
    .spawn (.expire (dedupKey [0xaa] [7])), .step 3 (.ok 3),
    .spawn (.handle true record), .step 4 (.ok 4), .step 4 (.ok 5), .step 4 (.ok 6)]

theorem no_duplicate_delivery_after_expiry :
    let codec := ProtoCodec.ofList [(sampleChat, sampleChatPayload)] []
    ∃ pool, (Pool.start State.initial).run (consumers codec) sampleSchedule = some pool ∧
      pool.world.state.inbox.rows.length = 1 ∧
      pool.world.trace.countP (isPush [0xaa] [7]) = 2 ∧
      pool.world.trace.countP (isPush [0xaa] [7]) ≤
        1 + pool.world.trace.countP (isExpiry (dedupKey [0xaa] [7])) := by
  intro codec
  have evaluated : ((Pool.start State.initial).run (consumers codec) sampleSchedule).map
      (fun pool => (pool.world.state.inbox.rows.length,
        pool.world.trace.countP (isPush [0xaa] [7]))) = some (1, 2) := by
    decide +kernel
  obtain ⟨pool, ran, measured⟩ := Option.map_eq_some_iff.mp evaluated
  obtain ⟨stored, pushes⟩ := Prod.mk.inj measured
  exact ⟨pool, ran, stored, pushes, (no_duplicate_delivery ran).2.2 _ _⟩

end FProto.Sync

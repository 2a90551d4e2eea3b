import FProto.Outbox.KeyOrder

/-!
Owns the accounts of one relay on a healthy database: where every row has gone,
and how often it was tried.

One relay polls; other calls insert rows before any of its commands. Every
database call succeeds, and a `Send` succeeds or fails without a trace. What was
done with a row is read off the commands of the polls. The columns of the row
tell the same story (`Entry.story`), and all the accounts follow from that.
-/

namespace FProto.Outbox

open FProto.Foundation
open FProto.Kafka
open FProto.Outbox.Relay (maxRetries)

/-! ### The system -/

/-- The rows that other calls insert before a command of the relay, each with the
clock of the database, and what the environment decides about the command. -/
structure Moment where
  inserts : List (Nat × NewEntry)
  choice : Choice

/-- Inserts one after the other. A refused one leaves the table alone. -/
def insertAll : Table → List (Nat × NewEntry) → Table
  | table, [] => table
  | table, (now, entry) :: inserts =>
      match insert table now entry with
      | .error _ => insertAll table inserts
      | .ok grown => insertAll grown inserts

/-- Database calls succeed, and a `Send` that fails has appended nothing. -/
def healthy : Command → Choice → Bool
  | .send _ _ _, .failAppended _ => false
  | .send _ _ _, _ => true
  | _, .fail _ => false
  | _, _ => true

def healthyExec (command : Command) (moment : Moment) (state : State) :
    Option (Reply command × State) :=
  if healthy command moment.choice then
    exec command moment.choice { state with outbox := insertAll state.outbox moment.inserts }
  else none

/-- One whole poll. -/
def Relay.healthyNext (batch : Nat) (polls : Polls) (moments : List Moment) : Option Polls :=
  match (Relay.poll batch).run healthyExec moments polls.state with
  | none => none
  | some (_, state) =>
      some { state, logs := polls.logs ++ [(Relay.poll batch).log healthyExec moments polls.state] }

/-! ### The accounts -/

/-- What the relay did with a row: appended it to its topic, failed to do so, or
appended it to the dead-letter topic. -/
inductive Act where
  | published
  | failed
  | buried
deriving DecidableEq

/-- The acts of a poll. In `publish` and `sendToDeadLetter` the command after a
`Send` names the row. -/
def acts : Log → List (Nat × Act)
  | ⟨.send _ _ _, .ok _⟩ :: ⟨.markPublished id, _⟩ :: log => (id, .published) :: acts log
  | ⟨.send _ _ _, .ok _⟩ :: ⟨.markFailed id, _⟩ :: log => (id, .buried) :: acts log
  | ⟨.send _ _ _, .error _⟩ :: ⟨.incrementRetry id, _⟩ :: log => (id, .failed) :: acts log
  | _ :: log => acts log
  | [] => []

def Polls.acts (polls : Polls) : List (Nat × Act) := polls.logs.flatMap FProto.Outbox.acts

/-- What was done with one row, oldest first. -/
def actsOf (id : Nat) (acts : List (Nat × Act)) : List Act :=
  acts.filterMap fun act => if act.1 = id then some act.2 else none

/-- The record that an act appended to the log of a topic. -/
def recordOf (table : Table) (topic : Bytes) (act : Nat × Act) : Option Record :=
  match table.rows.find? (fun row => row.id == act.1), act.2 with
  | some row, .published =>
      if row.topic = topic then some ⟨some row.partitionKey, row.payload⟩ else none
  | some row, .buried =>
      if topicDeadLetter = topic then some ⟨some row.topic, row.payload⟩ else none
  | _, _ => none

/-- The account of a row, for what was done with it. -/
structure Entry.Accounted (row : Entry) (done : List Act) : Prop where
  once : done.count .published ≤ 1
  buriedOnce : done.count .buried ≤ 1
  notBoth : ¬(.published ∈ done ∧ .buried ∈ done)
  published : row.status = .published ↔ .published ∈ done
  failed : row.status = .failed ↔ .buried ∈ done
  retries : row.retryCount = done.count .failed
  tried : ∀ early late, done = early ++ .buried :: late → maxRetries ≤ early.count .failed

/-- The books of the relay: the topic logs hold what they held at first and what
the acts appended, every act is about a row, and every row has its account. -/
structure Polls.Accounted (start : Bytes → List Record) (polls : Polls) : Prop where
  appended : ∀ topic, polls.state.log topic =
    start topic ++ polls.acts.filterMap (recordOf polls.state.outbox topic)
  known : ∀ act ∈ polls.acts, ∃ row ∈ polls.state.outbox.rows, row.id = act.1
  rows : ∀ row ∈ polls.state.outbox.rows, row.Accounted (actsOf row.id polls.acts)

/-! ### The story of a row -/

/-- What was done with a row, as its columns tell it. -/
def Entry.story (row : Entry) : List Act :=
  List.replicate row.retryCount .failed ++
    match row.status with
    | .pending => []
    | .published => [.published]
    | .failed => [.buried]

theorem early_of_story {retries : Nat} {early late : List Act}
    (story : List.replicate retries Act.failed ++ [.buried] = early ++ .buried :: late) :
    early = List.replicate retries .failed := by
  induction retries generalizing early with
  | zero =>
      cases early with
      | nil => rfl
      | cons act early => simp at story
  | succ retries inductionHypothesis =>
      cases early with
      | nil => simp [List.replicate_succ] at story
      | cons act early =>
          rw [List.replicate_succ, List.cons_append, List.cons_append, List.cons.injEq] at story
          rw [← story.1, inductionHypothesis story.2, List.replicate_succ]

/-- How often the columns tell of an act. -/
theorem Entry.count_story (row : Entry) :
    row.story.count .failed = row.retryCount ∧
      row.story.count .published = (if row.status = .published then 1 else 0) ∧
      row.story.count .buried = if row.status = .failed then 1 else 0 := by
  unfold Entry.story
  cases row.status with
  | _ => simp [List.count_replicate]

/-- A row whose columns tell what was done with it has its account. -/
theorem Entry.accounted_story {row : Entry}
    (retries : row.status = .failed → maxRetries ≤ row.retryCount) : row.Accounted row.story := by
  obtain ⟨failed, published, buried⟩ := row.count_story
  have publishedIff : .published ∈ row.story ↔ row.status = .published := by
    rw [← List.count_pos_iff, published]
    split <;> simp_all
  have buriedIff : .buried ∈ row.story ↔ row.status = .failed := by
    rw [← List.count_pos_iff, buried]
    split <;> simp_all
  refine ⟨?_, ?_, fun both => ?_, publishedIff.symm, buriedIff.symm, failed.symm,
    fun early late story => ?_⟩
  · rw [published]
    split <;> omega
  · rw [buried]
    split <;> omega
  · have isPublished := publishedIff.mp both.1
    rw [buriedIff.mp both.2] at isPublished
    cases isPublished
  · have status : row.status = .failed := by
      apply buriedIff.mp
      rw [story]
      exact List.mem_append_right _ List.mem_cons_self
    unfold Entry.story at story
    rw [status] at story
    rw [early_of_story story, List.count_replicate_self]
    exact retries status

/-! ### Acts that are added -/

theorem actsOf_concat_self (acts : List (Nat × Act)) (id : Nat) (act : Act) :
    actsOf id (acts ++ [(id, act)]) = actsOf id acts ++ [act] := by
  simp [actsOf, List.filterMap_append]

theorem actsOf_concat_of_ne (acts : List (Nat × Act)) {id other : Nat} (different : id ≠ other)
    (act : Act) : actsOf other (acts ++ [(id, act)]) = actsOf other acts := by
  simp [actsOf, List.filterMap_append, different]

/-- The columns of every row tell what was done with it, and every act is about a
row. -/
structure Told (table : Table) (acts : List (Nat × Act)) : Prop where
  story : ∀ row ∈ table.rows, actsOf row.id acts = row.story
  retries : ∀ row ∈ table.rows, row.status = .failed → maxRetries ≤ row.retryCount
  known : ∀ act ∈ acts, ∃ row ∈ table.rows, row.id = act.1

/-- **The step lemma of a row.** A statement on one row that makes its story longer by
an act tells of that act. -/
theorem Told.update {table : Table} {acts : List (Nat × Act)} {row : Entry} {act : Act}
    {rewrite : Entry → Entry} (told : Told table acts) (member : row ∈ table.rows)
    (keepsId : ∀ row, (rewrite row).id = row.id)
    (keepsKey : ∀ row, (rewrite row).messageId = row.messageId)
    (story : (rewrite row).story = row.story ++ [act])
    (retries : (rewrite row).status = .failed → maxRetries ≤ (rewrite row).retryCount) :
    Told (table.update (fun other => other.id == row.id) rewrite keepsId keepsKey)
      (acts ++ [(row.id, act)]) := by
  have rewritten : ∀ other ∈ table.rows, other.id = row.id → other = row :=
    fun other otherMember same => SerialTable.eq_of_id_eq otherMember member same
  refine ⟨fun other otherMember => ?_, fun other otherMember failed => ?_, fun added isAdded => ?_⟩
  · rcases mem_update_row.mp otherMember with ⟨original, isRow, same, rfl⟩ | ⟨old, different⟩
    · obtain rfl := rewritten original isRow same
      rw [keepsId, actsOf_concat_self, told.story original isRow, story]
    · rw [actsOf_concat_of_ne acts (Ne.symm different), told.story other old]
  · rcases mem_update_row.mp otherMember with ⟨original, isRow, same, rfl⟩ | ⟨old, different⟩
    · obtain rfl := rewritten original isRow same
      exact retries failed
    · exact told.retries other old failed
  · have kept : ∀ other ∈ table.rows, ∃ found ∈
        (table.update (fun other => other.id == row.id) rewrite keepsId keepsKey).rows,
        found.id = other.id := by
      intro other isRow
      by_cases same : other.id = row.id
      · exact ⟨rewrite other, mem_update_row.mpr (.inl ⟨other, isRow, same, rfl⟩), keepsId other⟩
      · exact ⟨other, mem_update_row.mpr (.inr ⟨isRow, same⟩), rfl⟩
    rcases List.mem_append.mp isAdded with old | new
    · obtain ⟨other, isRow, same⟩ := told.known added old
      obtain ⟨found, isFound, sameId⟩ := kept other isRow
      exact ⟨found, isFound, sameId.trans same⟩
    · obtain rfl := List.mem_singleton.mp new
      exact kept row member

/-- A new row is pending and nothing was done with it. -/
theorem insert_fresh {table after : Table} {now : Nat} {entry : NewEntry}
    (inserted : insert table now entry = .ok after) :
    ∃ row : Entry, (∀ other, other ∈ after.rows ↔ other ∈ table.rows ∨ other = row) ∧
      row.id = table.nextId ∧ row.story = [] ∧ row.status = .pending := by
  unfold insert at inserted
  split at inserted
  · cases inserted
  · cases inserted
  · split at inserted
    · cases inserted
    · obtain rfl := Except.ok.inj inserted
      exact ⟨_, fun other => SerialTable.mem_insert, rfl, rfl, rfl⟩

theorem Told.insert {table after : Table} {acts : List (Nat × Act)} {now : Nat} {entry : NewEntry}
    (told : Told table acts) (inserted : Outbox.insert table now entry = .ok after) :
    Told after acts := by
  obtain ⟨row, members, serial, story, pending⟩ := insert_fresh inserted
  refine ⟨fun other member => ?_, fun other member failed => ?_, fun act isAct => ?_⟩
  · rcases (members other).mp member with old | rfl
    · exact told.story other old
    · -- An act is about an earlier row, and that has a smaller id.
      rw [story, actsOf, List.filterMap_eq_nil_iff]
      intro act isAct
      obtain ⟨earlier, isRow, same⟩ := told.known act isAct
      have below := table.id_lt earlier isRow
      rw [if_neg (by omega)]
  · rcases (members other).mp member with old | rfl
    · exact told.retries other old failed
    · rw [pending] at failed
      cases failed
  · obtain ⟨earlier, isRow, same⟩ := told.known act isAct
    exact ⟨earlier, (members earlier).mpr (.inl isRow), same⟩

/-! ### The topic logs -/

theorem find_row {table : Table} {row : Entry} (member : row ∈ table.rows) :
    table.rows.find? (fun other => other.id == row.id) = some row := by
  cases found : table.rows.find? (fun other => other.id == row.id) with
  | none =>
      have absent := List.find?_eq_none.mp found row member
      simp at absent
  | some other =>
      have same : other.id = row.id := by simpa using List.find?_some found
      rw [SerialTable.eq_of_id_eq (List.mem_of_find?_eq_some found) member same]

/-- Acts keep their records while the rows keep their content. -/
theorem recordOf_keeps {before after : Table} (keeps : Table.Keeps before after) (topic : Bytes)
    {act : Nat × Act} (known : ∃ row ∈ before.rows, row.id = act.1) :
    recordOf after topic act = recordOf before topic act := by
  obtain ⟨row, member, same⟩ := known
  obtain ⟨kept, keptMember, content⟩ := keeps row member
  unfold recordOf
  rw [← same, find_row member, content.id, find_row keptMember]
  cases act.2 with
  | _ => simp only [content.topic, content.partitionKey, content.payload]

/-- The logs hold what they held at first and what the acts appended. -/
def Appended (start log : Bytes → List Record) (table : Table) (acts : List (Nat × Act)) : Prop :=
  ∀ topic, log topic = start topic ++ acts.filterMap (recordOf table topic)

theorem Appended.keeps {start log : Bytes → List Record} {before after : Table}
    {acts : List (Nat × Act)} (appended : Appended start log before acts)
    (told : Told before acts) (keeps : Table.Keeps before after) :
    Appended start log after acts := by
  intro topic
  rw [appended topic]
  congr 1
  apply List.filterMap_congr
  intro act isAct
  exact (recordOf_keeps keeps topic (told.known act isAct)).symm

/-- A new act of a row appends its record to one log. -/
theorem Appended.concat {start log grown : Bytes → List Record} {table : Table}
    {acts : List (Nat × Act)} {act : Nat × Act} (appended : Appended start log table acts)
    (records : ∀ topic, grown topic = log topic ++ (recordOf table topic act).toList) :
    Appended start grown table (acts ++ [act]) := by
  intro topic
  rw [records topic, appended topic, List.filterMap_append, List.append_assoc]
  cases recorded : recordOf table topic act with
  | none => simp [recorded]
  | some record => simp [recorded]

theorem appendRecord_published {table : Table} {row : Entry} (member : row ∈ table.rows)
    (log : Bytes → List Record) (topic : Bytes) :
    appendRecord log row.topic ⟨some row.partitionKey, row.payload⟩ topic =
      log topic ++ (recordOf table topic (row.id, .published)).toList := by
  unfold appendRecord recordOf
  rw [find_row member]
  by_cases same : topic = row.topic
  · simp [same]
  · simp [same, Ne.symm same]

theorem appendRecord_buried {table : Table} {row : Entry} (member : row ∈ table.rows)
    (log : Bytes → List Record) (topic : Bytes) :
    appendRecord log topicDeadLetter ⟨some row.topic, row.payload⟩ topic =
      log topic ++ (recordOf table topic (row.id, .buried)).toList := by
  unfold appendRecord recordOf
  rw [find_row member]
  by_cases same : topic = topicDeadLetter
  · simp [same]
  · simp [same, Ne.symm same]

theorem recordOf_failed (table : Table) (topic : Bytes) (id : Nat) :
    recordOf table topic (id, .failed) = none := by
  unfold recordOf
  cases table.rows.find? fun row => row.id == id with
  | none => rfl
  | some row => rfl

/-! ### One command -/

/-- Inserts keep the rows, and the books of the rows and of the logs. -/
theorem mem_insertAll {table : Table} {row : Entry} (member : row ∈ table.rows)
    (inserts : List (Nat × NewEntry)) : row ∈ (insertAll table inserts).rows := by
  induction inserts generalizing table with
  | nil => exact member
  | cons head inserts inductionHypothesis =>
      unfold insertAll
      split
      · exact inductionHypothesis member
      · next grown inserted =>
        obtain ⟨_, members, -⟩ := insert_fresh inserted
        exact inductionHypothesis ((members row).mpr (.inl member))

theorem Told.insertAll {table : Table} {acts : List (Nat × Act)} (told : Told table acts)
    (inserts : List (Nat × NewEntry)) : Told (Outbox.insertAll table inserts) acts := by
  induction inserts generalizing table with
  | nil => exact told
  | cons head inserts inductionHypothesis =>
      unfold Outbox.insertAll
      split
      · exact inductionHypothesis told
      · next grown inserted => exact inductionHypothesis (told.insert inserted)

theorem keeps_insertAll (table : Table) (inserts : List (Nat × NewEntry)) :
    Table.Keeps table (insertAll table inserts) := by
  intro row member
  exact ⟨row, mem_insertAll member inserts, Entry.SameContent.refl row⟩

section Commands

variable {moment : Moment} {state after : State}

/-- The table when the command is executed. -/
abbrev State.met (state : State) (moment : Moment) : Table :=
  insertAll state.outbox moment.inserts

theorem healthyExec_send {topic : Bytes} {key : Slice} {value : Bytes}
    {reply : Except String Unit}
    (executed : healthyExec (.send topic key value) moment state = some (reply, after)) :
    after.outbox = state.met moment ∧
      (reply = .ok () ∧ after.log = appendRecord state.log topic ⟨key, value⟩ ∨
        ∃ error, reply = .error error ∧ after.log = state.log) := by
  obtain ⟨inserts, choice⟩ := moment
  cases choice with
  | ok now =>
      cases executed
      exact ⟨rfl, .inl ⟨rfl, rfl⟩⟩
  | fail error =>
      cases executed
      exact ⟨rfl, .inr ⟨error, rfl, rfl⟩⟩
  | _ => cases executed

theorem healthyExec_markPublished {id : Nat} {reply : Except String Unit}
    (executed : healthyExec (.markPublished id) moment state = some (reply, after)) :
    reply = .ok () ∧ (∃ now, after.outbox = markPublished (state.met moment) now id) ∧
      after.log = state.log := by
  obtain ⟨inserts, choice⟩ := moment
  cases choice with
  | ok now =>
      cases executed
      exact ⟨rfl, ⟨now, rfl⟩, rfl⟩
  | _ => cases executed

theorem healthyExec_markFailed {id : Nat} {reply : Except String Unit}
    (executed : healthyExec (.markFailed id) moment state = some (reply, after)) :
    after.outbox = markFailed (state.met moment) id ∧ after.log = state.log := by
  obtain ⟨inserts, choice⟩ := moment
  cases choice with
  | ok now =>
      cases executed
      exact ⟨rfl, rfl⟩
  | _ => cases executed

theorem healthyExec_incrementRetry {id : Nat} {reply : Except String Unit}
    (executed : healthyExec (.incrementRetry id) moment state = some (reply, after)) :
    after.outbox = incrementRetry (state.met moment) id ∧ after.log = state.log := by
  obtain ⟨inserts, choice⟩ := moment
  cases choice with
  | ok now =>
      cases executed
      exact ⟨rfl, rfl⟩
  | _ => cases executed

theorem healthyExec_fetchPending {limit : Nat} {reply : Except String (List Entry)}
    (executed : healthyExec (.fetchPending limit) moment state = some (reply, after)) :
    after.outbox = state.met moment ∧ after.log = state.log ∧
      ∃ order, IsPendingOrder (state.met moment) order ∧ reply = .ok (order.take limit) := by
  obtain ⟨inserts, choice⟩ := moment
  cases choice with
  | fetched order =>
      change exec (.fetchPending limit) (.fetched order)
        { state with outbox := insertAll state.outbox inserts } = some (reply, after) at executed
      simp only [exec] at executed
      split at executed
      · next isOrder =>
        cases executed
        exact ⟨rfl, rfl, order, isOrder, rfl⟩
      · cases executed
  | _ => cases executed

end Commands

/-! ### The books -/

/-- The books of a table and the topic logs. -/
structure Books (start : Bytes → List Record) (table : Table) (log : Bytes → List Record)
    (acts : List (Nat × Act)) : Prop where
  told : Told table acts
  appended : Appended start log table acts

namespace Books

variable {start log : Bytes → List Record} {table : Table} {acts : List (Nat × Act)} {row : Entry}

theorem insertAll (books : Books start table log acts) (inserts : List (Nat × NewEntry)) :
    Books start (Outbox.insertAll table inserts) log acts :=
  ⟨books.told.insertAll inserts, books.appended.keeps books.told (keeps_insertAll table inserts)⟩

/-- A pending row was sent to its topic and is marked. -/
theorem publish (books : Books start table log acts) (member : row ∈ table.rows)
    (pending : row.status = .pending) (now : Nat) :
    Books start (markPublished table now row.id)
      (appendRecord log row.topic ⟨some row.partitionKey, row.payload⟩)
      (acts ++ [(row.id, .published)]) := by
  have marked : { row with status := .published, publishedAt := some now } ∈
      (markPublished table now row.id).rows :=
    mem_markPublished.mpr (.inl ⟨row, member, rfl, rfl⟩)
  refine ⟨?_, ?_⟩
  · apply books.told.update member
    · simp [Entry.story, pending]
    · intro impossible
      cases impossible
  · apply (books.appended.keeps books.told keeps_markPublished).concat
    exact appendRecord_published marked log

/-- A pending row was not sent to its topic, which is counted. -/
theorem retry (books : Books start table log acts) (member : row ∈ table.rows)
    (pending : row.status = .pending) :
    Books start (incrementRetry table row.id) log (acts ++ [(row.id, .failed)]) := by
  refine ⟨?_, ?_⟩
  · apply books.told.update member
    · simp [Entry.story, pending, List.replicate_succ']
    · intro failed
      rw [show _ = row.status from rfl, pending] at failed
      cases failed
  · apply (books.appended.keeps books.told keeps_incrementRetry).concat
    intro topic
    rw [recordOf_failed]
    simp

/-- A pending row that was tried often enough was sent to the dead-letter topic and
is marked. -/
theorem bury (books : Books start table log acts) (member : row ∈ table.rows)
    (pending : row.status = .pending) (retries : maxRetries ≤ row.retryCount) :
    Books start (markFailed table row.id)
      (appendRecord log topicDeadLetter ⟨some row.topic, row.payload⟩)
      (acts ++ [(row.id, .buried)]) := by
  have marked := mem_markFailed.mpr (.inl ⟨row, member, rfl, rfl⟩)
  refine ⟨?_, ?_⟩
  · apply books.told.update member
    · simp [Entry.story, pending]
    · intro _
      exact retries
  · apply (books.appended.keeps books.told keeps_markFailed).concat
    exact appendRecord_buried marked log

end Books

/-! ### One poll -/

section Poll

variable {start : Bytes → List Record} {state after : State} {past : List (Nat × Act)}
  {row : Entry} {log : Log}

/-- A command that changes nothing: only the inserts before it count. -/
theorem Books.met {moment : Moment} (books : Books start state.outbox state.log past)
    (outbox : after.outbox = state.met moment) (kept : after.log = state.log) :
    Books start after.outbox after.log past ∧
      ∀ other ∈ state.outbox.rows, other ∈ after.outbox.rows := by
  rw [outbox, kept]
  exact ⟨books.insertAll moment.inserts, fun other isRow => mem_insertAll isRow moment.inserts⟩

/-- `publish` of a pending row publishes it, or leaves it as it is. -/
theorem publish_books {result : Except String Unit}
    (books : Books start state.outbox state.log past) (member : row ∈ state.outbox.rows)
    (pending : row.status = .pending)
    (executes : Executes healthyExec (Relay.publish row) state log result after) :
    Table.Spares state.outbox after.outbox row.id ∧ ∃ topic key value,
      (result = .ok () ∧ log = [⟨.send topic key value, .ok ()⟩, ⟨.markPublished row.id, .ok ()⟩] ∧
        Books start after.outbox after.log (past ++ [(row.id, .published)])) ∨
      (∃ error, result = .error error ∧ log = [⟨.send topic key value, .error error⟩] ∧
        Books start after.outbox after.log past ∧ row ∈ after.outbox.rows) := by
  obtain ⟨sent, middle, early, late, rfl, sending, rest⟩ := executes.bind_inv
  obtain ⟨rfl, moment, executed⟩ := sending.issue_inv
  obtain ⟨outbox, outcome⟩ := healthyExec_send executed
  rcases outcome with ⟨rfl, grown⟩ | ⟨error, rfl, kept⟩
  · obtain ⟨rfl, second, marked⟩ := rest.issue_inv
    obtain ⟨rfl, ⟨now, published⟩, kept⟩ := healthyExec_markPublished marked
    rw [State.met, outbox] at published
    have met : ∀ other ∈ state.outbox.rows,
        other ∈ (insertAll (state.met moment) second.inserts).rows :=
      fun other isRow => mem_insertAll (mem_insertAll isRow moment.inserts) second.inserts
    refine ⟨fun other isRow different => ?_, _, _, _, .inl ⟨rfl, rfl, ?_⟩⟩
    · rw [published]
      exact mem_markPublished.mpr (.inr ⟨met other isRow, different⟩)
    · rw [published, kept, grown]
      exact ((books.insertAll moment.inserts).insertAll second.inserts).publish (met row member)
        pending now
  · cases rest
    obtain ⟨same, rows⟩ := books.met outbox kept
    exact ⟨fun other isRow _ => rows other isRow, _, _, _,
      .inr ⟨error, rfl, rfl, same, rows row member⟩⟩

/-- A failed `Send` of a pending row is counted. -/
theorem incrementRetry_books {reply : Except String Unit}
    (books : Books start state.outbox state.log past) (member : row ∈ state.outbox.rows)
    (pending : row.status = .pending)
    (executes : Executes healthyExec (Store.incrementRetry row.id) state log reply after) :
    log = [⟨.incrementRetry row.id, reply⟩] ∧
      Table.Spares state.outbox after.outbox row.id ∧
      Books start after.outbox after.log (past ++ [(row.id, .failed)]) ∧
      { row with retryCount := row.retryCount + 1 } ∈ after.outbox.rows := by
  obtain ⟨rfl, moment, executed⟩ := executes.issue_inv
  obtain ⟨counted, kept⟩ := healthyExec_incrementRetry executed
  have met := mem_insertAll member moment.inserts
  rw [counted, kept]
  refine ⟨rfl, fun other isRow different => ?_, ?_, ?_⟩
  · exact mem_incrementRetry.mpr (.inr ⟨mem_insertAll isRow moment.inserts, different⟩)
  · exact (books.insertAll moment.inserts).retry met pending
  · exact mem_incrementRetry.mpr (.inl ⟨row, met, rfl, rfl⟩)

/-- `sendToDeadLetter` of the copy of a pending row marks it failed, or leaves it as
it is. -/
theorem sendToDeadLetter_books {copy : Entry} (books : Books start state.outbox state.log past)
    (member : row ∈ state.outbox.rows) (pending : row.status = .pending)
    (retries : maxRetries ≤ row.retryCount) (content : copy.SameContent row)
    (executes : Executes healthyExec (Relay.sendToDeadLetter copy) state log () after) :
    Table.Spares state.outbox after.outbox row.id ∧ ∃ topic key value,
      (∃ reply, log = [⟨.send topic key value, .ok ()⟩, ⟨.markFailed row.id, reply⟩] ∧
        Books start after.outbox after.log (past ++ [(row.id, .buried)])) ∨
      (∃ error, log = [⟨.send topic key value, .error error⟩] ∧
        Books start after.outbox after.log past) := by
  obtain ⟨sent, middle, early, late, rfl, sending, rest⟩ := executes.bind_inv
  obtain ⟨rfl, moment, executed⟩ := sending.issue_inv
  obtain ⟨outbox, outcome⟩ := healthyExec_send executed
  rcases outcome with ⟨rfl, grown⟩ | ⟨error, rfl, kept⟩
  · obtain ⟨reply, _, marking, _, rfl, marks, done⟩ := rest.bind_inv
    obtain ⟨rfl, second, marked⟩ := marks.issue_inv
    cases done
    obtain ⟨failed, kept⟩ := healthyExec_markFailed marked
    rw [State.met, outbox] at failed
    have met : ∀ other ∈ state.outbox.rows,
        other ∈ (insertAll (state.met moment) second.inserts).rows :=
      fun other isRow => mem_insertAll (mem_insertAll isRow moment.inserts) second.inserts
    rw [content.id] at failed ⊢
    refine ⟨fun other isRow different => ?_, _, _, _, .inl ⟨reply, rfl, ?_⟩⟩
    · rw [failed]
      exact mem_markFailed.mpr (.inr ⟨met other isRow, different⟩)
    · rw [failed, kept, grown, content.topic, content.payload]
      exact ((books.insertAll moment.inserts).insertAll second.inserts).bury (met row member)
        pending retries
  · cases rest
    obtain ⟨same, rows⟩ := books.met outbox kept
    exact ⟨fun other isRow _ => rows other isRow, _, _, _, .inr ⟨error, rfl, same⟩⟩

/-- A failed `Send` to the dead-letter topic is no act. -/
theorem acts_error {topic : Bytes} {key : Slice} {value : Bytes} {error : String} {rest : Log}
    (fresh : Fresh rest) :
    acts (⟨.send topic key value, .error error⟩ :: rest) = acts rest := by
  rcases fresh with rfl | ⟨_, _, _, _, _, rfl⟩ <;> rfl

/-- The loop keeps the books. It works on copies of pending rows that nobody else
changes, so each copy is still the row when its turn comes. -/
theorem publishEntries_books {entries : List Entry}
    (books : Books start state.outbox state.log past)
    (waiting : Table.Waiting state.outbox entries) (distinct : (entries.map Entry.id).Nodup)
    (executes : Executes healthyExec (Relay.publishEntries entries) state log () after) :
    Fresh log ∧ Books start after.outbox after.log (past ++ acts log) := by
  induction entries generalizing state log past with
  | nil =>
      cases executes
      exact ⟨.inl rfl, by simpa [acts] using books⟩
  | cons entry entries inductionHypothesis =>
      obtain ⟨⟨member, pending⟩, others⟩ := List.forall_mem_cons.mp waiting
      obtain ⟨absent, distinct⟩ := List.nodup_cons.mp distinct
      obtain ⟨result, middle, early, late, rfl, publishing, rest⟩ := executes.bind_inv
      obtain ⟨spares, topic, key, value, outcome⟩ := publish_books books member pending publishing
      have spared := Table.Waiting.spared others absent spares
      rcases outcome with ⟨rfl, rfl, published⟩ | ⟨error, rfl, rfl, same, still⟩
      · obtain ⟨-, kept⟩ := inductionHypothesis published spared distinct rest
        refine ⟨.inr ⟨_, _, _, _, _, rfl⟩, ?_⟩
        rw [List.append_assoc] at kept
        exact kept
      · obtain ⟨reply, counted, counting, left, rfl, incrementing, continuing⟩ := rest.bind_inv
        obtain ⟨rfl, spares, counts, retried⟩ :=
          incrementRetry_books same still pending incrementing
        have spared := Table.Waiting.spared spared absent spares
        have remaining : Books start after.outbox after.log
            (past ++ [(entry.id, .failed)] ++ acts left) := by
          dsimp only at continuing
          split at continuing
          · next enough =>
            obtain ⟨_, buried, burying, later, rfl, deadLetter, last⟩ := continuing.bind_inv
            obtain ⟨spares, _, _, _, outcome⟩ := sendToDeadLetter_books counts retried pending
              enough ⟨rfl, rfl, rfl, rfl, rfl⟩ deadLetter
            have spared := Table.Waiting.spared spared absent spares
            rcases outcome with ⟨reply, rfl, books⟩ | ⟨error, rfl, books⟩
            · obtain ⟨-, kept⟩ := inductionHypothesis books spared distinct last
              rw [List.append_assoc] at kept
              exact kept
            · obtain ⟨fresh, kept⟩ := inductionHypothesis books spared distinct last
              rw [List.singleton_append, acts_error fresh]
              exact kept
          · exact (inductionHypothesis counts spared distinct continuing).2
        refine ⟨.inr ⟨_, _, _, _, _, rfl⟩, ?_⟩
        rw [List.append_assoc] at remaining
        exact remaining

/-- A poll keeps the books. -/
theorem poll_books {batch : Nat} (books : Books start state.outbox state.log past)
    (executes : Executes healthyExec (Relay.poll batch) state log () after) :
    Books start after.outbox after.log (past ++ acts log) := by
  obtain ⟨fetched, middle, early, late, rfl, fetching, rest⟩ := executes.bind_inv
  obtain ⟨rfl, moment, executed⟩ := fetching.issue_inv
  obtain ⟨outbox, kept, order, isOrder, rfl⟩ := healthyExec_fetchPending executed
  have same := (books.met outbox kept).1
  rw [← outbox] at isOrder
  exact (publishEntries_books same (isOrder.waiting_take batch) (isOrder.nodup_take batch) rest).2

end Poll

/-! ### Every run -/

theorem Relay.healthyNext_books {start : Bytes → List Record} {batch : Nat} {polls after : Polls}
    {moments : List Moment}
    (books : Books start polls.state.outbox polls.state.log polls.acts)
    (stepped : Relay.healthyNext batch polls moments = some after) :
    Books start after.state.outbox after.state.log after.acts := by
  unfold Relay.healthyNext at stepped
  split at stepped
  · cases stepped
  · next state ran =>
    cases stepped
    have kept := poll_books books (executes_of_run ran)
    simpa [Polls.acts] using kept

/-- The second row arrives while the first one is tried for the first time. -/
example :
    let entry : NewEntry :=
      { messageId := some [1], topic := utf8 "user-aa", partitionKey := some [0xaa], payload := [] }
    ∃ polls, run (Relay.healthyNext 100) { state := State.initial, logs := [] }
        [[⟨[(1, entry)], .fetched [pendingRow 1 0]⟩, ⟨[], .fail "kafka: broker down"⟩,
            ⟨[(2, { entry with messageId := some [2] })], .ok 3⟩],
          [⟨[], .fetched [pendingRow 1 1, pendingRow 2 0]⟩, ⟨[], .ok 4⟩, ⟨[], .ok 5⟩, ⟨[], .ok 6⟩,
            ⟨[], .ok 7⟩]] = some polls ∧
      polls.acts = [(1, .failed), (1, .published), (2, .published)] :=
  ⟨_, rfl, rfl⟩

end FProto.Outbox

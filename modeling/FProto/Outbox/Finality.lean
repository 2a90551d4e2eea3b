import FProto.Foundation.Guarantee
import FProto.Outbox.Relay

/-!
Owns the finality of the outbox statuses `published` and `failed` while any
number of relays poll one table and rows are inserted.

A relay works on the rows that it fetched as pending. Neither the fetch nor the
updates lock a row or look at its status, so a relay that fetched before another
one settled a row settles it again. The statuses are final exactly in the runs
where no relay does that with the other outcome.
-/

namespace FProto.Outbox

open FProto.Foundation
open FProto.Kafka

/-! ### The system -/

inductive RelayCall where
  | poll (batch : Nat)
  | insert (entry : NewEntry)

def relayCode : RelayCall → Code Unit
  | .poll batch => Relay.poll batch
  | .insert entry => do
      let _ ← Store.insert entry
      return ()

def relays : System Command Reply Unit State Choice RelayCall where
  exec := exec
  code := relayCode
  admits _ _ := true

abbrev RelayPool := Pool Command Reply Unit State RelayCall

abbrev TraceEntry := Foundation.Entry Command Reply

/-- The status of the row with an id. -/
def Table.status (table : Table) (id : Nat) : Option Status :=
  (table.rows.find? fun row => row.id == id).map Entry.status

/-- The row and the status that a successful update has set. -/
def markOf : TraceEntry → Option (Nat × Status)
  | ⟨_, .markPublished id, .ok _⟩ => some (id, .published)
  | ⟨_, .markFailed id, .ok _⟩ => some (id, .failed)
  | _ => none

/-- Some relay set the status of the row. -/
def Marked (trace : List TraceEntry) (id : Nat) (status : Status) : Prop :=
  ∃ entry ∈ trace, markOf entry = some (id, status)

/-- After its own commands `own`, a relay sends the copy of a row to the dead-letter
topic: the row has just failed for the last time. -/
def DeadLetters (own : Log) (id : Nat) (command : Command) : Prop :=
  ∃ before reply limit entries entry, own = before ++ [⟨.incrementRetry id, reply⟩] ∧
    ⟨.fetchPending limit, .ok entries⟩ ∈ before ∧ entry ∈ entries ∧ entry.id = id ∧
    Relay.maxRetries ≤ entry.retryCount + 1 ∧
    command = .send topicDeadLetter (some entry.topic) entry.payload

/-- Between two states of a run: a row that is published or failed stays so, and no
copy of a published row is sent to the dead-letter topic. -/
structure Final (early late : RelayPool) : Prop where
  status : ∀ id (status : Status), status = .published ∨ status = .failed →
    Table.status early.world.state.outbox id = some status →
    Table.status late.world.state.outbox id = some status
  copies : ∀ past entry id, early.world.trace <+: past → past ++ [entry] <+: late.world.trace →
    Table.status early.world.state.outbox id = some .published →
    ¬DeadLetters (ownPast past entry.thread) id entry.command

/-- The condition on an event: a relay does not mark a row as published that was
marked as failed since its fetch, and does not mark a row as failed or send it
to the dead-letter topic that was marked as published since its fetch. -/
def NoStaleMark (pool : RelayPool) : Event RelayCall Choice → Prop
  | .step thread choice => ∀ call command following earlier limit entries later,
      pool.threads[thread]? = some ⟨call, .call command following, true⟩ →
      pool.world.trace = earlier ++ ⟨thread, .fetchPending limit, .ok entries⟩ :: later →
      (∀ id now, command = .markPublished id → choice = .ok now → ¬Marked later id .failed) ∧
      (∀ id now, command = .markFailed id → choice = .ok now → ¬Marked later id .published) ∧
      ∀ id, DeadLetters (ownPast pool.world.trace thread) id command →
        ¬Marked later id .published
  | _ => True

/-! ### The status of a row -/

section Table

variable {table : Table} {id : Nat}

theorem status_eq_some_of_mem {row : Entry} (member : row ∈ table.rows) :
    Table.status table row.id = some row.status := by
  unfold Table.status
  cases found : table.rows.find? fun other => other.id == row.id with
  | none => exact absurd (List.find?_eq_none.mp found row member) (by simp)
  | some other =>
      have same := SerialTable.eq_of_id_eq (List.mem_of_find?_eq_some found) member
        (by simpa using List.find?_some found)
      rw [same, Option.map_some]

/-- `UPDATE ... WHERE id = $1`. -/
theorem status_update {target : Nat} {rewrite : Entry → Entry} (change : Status → Status)
    (keepsId : ∀ row, (rewrite row).id = row.id)
    (keepsKey : ∀ row, (rewrite row).messageId = row.messageId)
    (changes : ∀ row, (rewrite row).status = change row.status) :
    Table.status (table.update (fun row => row.id == target) rewrite keepsId keepsKey) id =
      if id = target then (Table.status table id).map change else Table.status table id := by
  have sameTest : ((fun row : Entry => row.id == id) ∘
      fun row => if row.id == target then rewrite row else row) = fun row => row.id == id := by
    funext row
    simp only [Function.comp_apply]
    split
    · rw [keepsId]
    · rfl
  simp only [Table.status, SerialTable.update, List.find?_map, sameTest, Option.map_map]
  cases found : table.rows.find? fun row => row.id == id with
  | none => simp
  | some row =>
      have isRow : row.id = id := by simpa using List.find?_some found
      by_cases same : id = target
      · simp [isRow, same, changes]
      · simp [isRow, same]

theorem status_insert {now : Nat} {entry : NewEntry} {after : Table}
    (accepted : insert table now entry = .ok after) :
    Table.status after id = Table.status table id ∨
      (Table.status table id = none ∧ Table.status after id = some .pending) := by
  unfold insert at accepted
  split at accepted
  · cases accepted
  · cases accepted
  · split at accepted
    · cases accepted
    · obtain rfl := Except.ok.inj accepted
      simp only [Table.status, SerialTable.insert, List.find?_append]
      cases table.rows.find? fun row => row.id == id with
      | some row => exact .inl rfl
      | none =>
          rw [Option.none_or, List.find?_singleton]
          split
          · exact .inr ⟨rfl, rfl⟩
          · exact .inl rfl

theorem status_markPublished (now target : Nat) :
    Table.status (markPublished table now target) id =
      if id = target then (Table.status table id).map fun _ => .published
      else Table.status table id :=
  status_update (fun _ => .published) _ _ fun _ => rfl

theorem status_markFailed (target : Nat) :
    Table.status (markFailed table target) id =
      if id = target then (Table.status table id).map fun _ => .failed
      else Table.status table id :=
  status_update (fun _ => .failed) _ _ fun _ => rfl

theorem status_incrementRetry (target : Nat) :
    Table.status (incrementRetry table target) id = Table.status table id := by
  have updated : Table.status (incrementRetry table target) id =
      if id = target then (Table.status table id).map fun status => status
      else Table.status table id :=
    status_update (fun status => status) _ _ fun _ => rfl
  rw [updated, Option.map_id', ite_self]

end Table

/-- **One command, one status.** A successful update sets its status; another command
keeps the status, or inserts the row. -/
theorem exec_status {command : Command} {choice : Choice} {state after : State}
    {reply : Reply command} (executed : exec command choice state = some (reply, after))
    (thread id : Nat) :
    (∃ status, markOf ⟨thread, command, reply⟩ = some (id, status) ∧
      Table.status after.outbox id = (Table.status state.outbox id).map fun _ => status) ∨
    ((∀ status, markOf ⟨thread, command, reply⟩ ≠ some (id, status)) ∧
      (Table.status after.outbox id = Table.status state.outbox id ∨
        (Table.status state.outbox id = none ∧
          Table.status after.outbox id = some .pending))) := by
  cases command with
  | markPublished target =>
      cases choice with
      | ok now =>
          cases executed
          rw [status_markPublished]
          by_cases same : id = target
          · exact .inl ⟨.published, by rw [same]; rfl, if_pos same⟩
          · exact .inr ⟨fun _ isMark => same (by cases isMark; rfl), .inl (if_neg same)⟩
      | fail error => cases executed; exact .inr ⟨fun _ isMark => (by cases isMark), .inl rfl⟩
      | _ => cases executed
  | markFailed target =>
      cases choice with
      | ok now =>
          cases executed
          rw [status_markFailed]
          by_cases same : id = target
          · exact .inl ⟨.failed, by rw [same]; rfl, if_pos same⟩
          · exact .inr ⟨fun _ isMark => same (by cases isMark; rfl), .inl (if_neg same)⟩
      | fail error => cases executed; exact .inr ⟨fun _ isMark => (by cases isMark), .inl rfl⟩
      | _ => cases executed
  | insert entry =>
      refine .inr ⟨fun _ isMark => (by cases isMark), ?_⟩
      cases exec_effect executed with
      | unchanged => exact .inl rfl
      | inserted accepted => exact status_insert accepted
  | incrementRetry target =>
      refine .inr ⟨fun _ isMark => (by cases isMark), .inl ?_⟩
      cases exec_effect executed with
      | unchanged => rfl
      | retried => exact status_incrementRetry target
  | _ =>
      refine .inr ⟨fun _ isMark => (by cases isMark), .inl ?_⟩
      cases exec_effect executed <;> rfl

/-! ### The guarantee of a relay -/

/-- The relay fetched the row. -/
def Fetched (own : Log) (id : Nat) : Prop :=
  ∃ limit entries, ⟨.fetchPending limit, .ok entries⟩ ∈ own ∧ ∃ entry ∈ entries, entry.id = id

/-- A relay marks only rows that it fetched. -/
def MarksFetched (_ : RelayCall) (own : Log) : Command → Prop
  | .markPublished id => Fetched own id
  | .markFailed id => Fetched own id
  | _ => True

theorem Fetched.grow {own : Log} {id : Nat} (fetched : Fetched own id) (more : Log) :
    Fetched (own ++ more) id := by
  obtain ⟨limit, entries, member, isEntry⟩ := fetched
  exact ⟨limit, entries, List.mem_append_left _ member, isEntry⟩

section Programs

variable {call : RelayCall} {own : Log}

theorem publish_obeys {entry : Entry} (fetched : Fetched own entry.id) :
    (Relay.publish entry).Obeys (MarksFetched call) (fun _ after => own <+: after) own := by
  refine ⟨trivial, fun sent => ?_⟩
  cases sent with
  | error error => exact List.prefix_append _ _
  | ok _ =>
      refine ⟨fetched.grow _, fun reply => ?_⟩
      exact (List.prefix_append _ _).trans (List.prefix_append _ _)

theorem sendToDeadLetter_obeys {entry : Entry} (fetched : Fetched own entry.id) :
    (Relay.sendToDeadLetter entry).Obeys (MarksFetched call) (fun _ after => own <+: after) own := by
  refine ⟨trivial, fun sent => ?_⟩
  cases sent with
  | error error => exact List.prefix_append _ _
  | ok _ =>
      refine ⟨fetched.grow _, fun reply => ?_⟩
      exact (List.prefix_append _ _).trans (List.prefix_append _ _)

theorem publishEntries_obeys {entries : List Entry}
    (fetched : ∀ entry ∈ entries, Fetched own entry.id) :
    (Relay.publishEntries entries).Obeys (MarksFetched call) (fun _ _ => True) own := by
  induction entries generalizing own with
  | nil => trivial
  | cons entry entries inductionHypothesis =>
      obtain ⟨entryFetched, restFetched⟩ := List.forall_mem_cons.mp fetched
      have following : ∀ after, own <+: after →
          (Relay.publishEntries entries).Obeys (MarksFetched call) (fun _ _ => True) after := by
        rintro _ ⟨more, rfl⟩
        exact inductionHypothesis fun other member => (restFetched other member).grow more
      refine (publish_obeys entryFetched).bind fun result after grown => ?_
      cases result with
      | ok _ => exact following after grown
      | error error =>
          refine ⟨trivial, fun retried => ?_⟩
          have counted := grown.trans (List.prefix_append after [⟨.incrementRetry entry.id, retried⟩])
          dsimp only
          split
          · obtain ⟨more, same⟩ := counted
            have still := entryFetched.grow more
            rw [same] at still
            refine (sendToDeadLetter_obeys still).bind fun _ buried later => ?_
            exact following buried (.trans ⟨more, same⟩ later)
          · exact following _ counted

theorem relayCode_obeys (call : RelayCall) :
    (relayCode call).Obeys (MarksFetched call) (fun _ _ => True) [] := by
  cases call with
  | insert entry => exact ⟨trivial, fun _ => trivial⟩
  | poll batch =>
      refine ⟨trivial, fun fetched => ?_⟩
      cases fetched with
      | error error => trivial
      | ok entries =>
          exact publishEntries_obeys fun entry member =>
            ⟨batch, entries, List.mem_cons_self, entry, member, rfl⟩

end Programs

theorem fetched_of_mark {call : RelayCall} {own : Log} {thread : Nat} {command : Command}
    {reply : Reply command} {id : Nat} {status : Status} (allowed : MarksFetched call own command)
    (isMark : markOf ⟨thread, command, reply⟩ = some (id, status)) : Fetched own id := by
  cases command with
  | markPublished target => cases reply <;> cases isMark; exact allowed
  | markFailed target => cases reply <;> cases isMark; exact allowed
  | _ => cases isMark

theorem DeadLetters.fetched {own : Log} {id : Nat} {command : Command}
    (isCopy : DeadLetters own id command) : Fetched own id := by
  obtain ⟨before, reply, limit, entries, entry, rfl, fetch, member, same, -⟩ := isCopy
  exact ⟨limit, entries, List.mem_append_left _ fetch, entry, member, same⟩

/-! ### Where a status comes from -/

/-- Since its status was `start` the row is present, and is settled only because a
relay marked it. -/
structure Tracks (id : Nat) (start : Option Status) (later : List TraceEntry)
    (now : Option Status) : Prop where
  marked : ∀ status, status ≠ .pending → now = some status →
    start = some status ∨ Marked later id status
  present : start ≠ none → now ≠ none

theorem Marked.grow {trace : List TraceEntry} {id : Nat} {status : Status}
    (marked : Marked trace id status) {longer : List TraceEntry} (grows : trace ⊆ longer) :
    Marked longer id status := by
  obtain ⟨entry, member, isMark⟩ := marked
  exact ⟨entry, grows member, isMark⟩

theorem Tracks.step {id thread : Nat} {start : Option Status} {later : List TraceEntry}
    {command : Command} {choice : Choice} {state after : State} {reply : Reply command}
    (tracks : Tracks id start later (Table.status state.outbox id))
    (executed : exec command choice state = some (reply, after)) :
    Tracks id start (later ++ [⟨thread, command, reply⟩]) (Table.status after.outbox id) := by
  rcases exec_status executed thread id with
    ⟨set, isMark, changed⟩ | ⟨-, kept | ⟨-, inserted⟩⟩
  · rw [changed]
    refine ⟨fun status _ isStatus => .inr ?_, fun started => ?_⟩
    · obtain ⟨old, -, rfl⟩ := Option.map_eq_some_iff.mp isStatus
      exact ⟨_, List.mem_append_right _ List.mem_cons_self, isMark⟩
    · rw [Ne, Option.map_eq_none_iff]
      exact tracks.present started
  · rw [kept]
    refine ⟨fun status settled isStatus => ?_, tracks.present⟩
    exact (tracks.marked status settled isStatus).imp_right
      fun marked => marked.grow (List.subset_append_left _ _)
  · rw [inserted]
    refine ⟨fun status settled isStatus => ?_, fun _ impossible => by cases impossible⟩
    exact absurd (Option.some.inj isStatus).symm settled

/-- The invariant of a pool. -/
structure Watched (initial : Table) (pool : RelayPool) : Prop where
  obeying : pool.Obeying MarksFetched
  whole : ∀ id, Tracks id (Table.status initial id) pool.world.trace
    (Table.status pool.world.state.outbox id)
  fetched : ∀ earlier thread limit entries later,
    pool.world.trace = earlier ++ ⟨thread, .fetchPending limit, .ok entries⟩ :: later →
    ∀ entry ∈ entries, Tracks entry.id (some .pending) later
      (Table.status pool.world.state.outbox entry.id)
  latest : ∀ past entry id status, pool.world.trace = past ++ [entry] →
    markOf entry = some (id, status) → Table.status pool.world.state.outbox id = some status

theorem start_watched (state : State) : Watched state.outbox (Pool.start state) where
  obeying := Pool.start_obeying state
  whole _ := ⟨fun _ _ isStatus => .inl isStatus, fun present => present⟩
  fetched _ _ _ _ _ isTrace := by simp [Pool.start] at isTrace
  latest _ _ _ _ isTrace := by simp [Pool.start] at isTrace

section Steps

variable {initial : Table} {pool after : RelayPool} {event : Event RelayCall Choice} {thread : Nat}
  {choice : Choice} {call : RelayCall} {command : Command} {following : Reply command → Code Unit}
  {reply : Reply command} {state : State}

/-- A row that a thread fetched was pending then. -/
theorem Watched.of_fetched (watched : Watched initial pool) {id : Nat}
    (fetched : Fetched (ownPast pool.world.trace thread) id) :
    ∃ earlier limit entries later,
      pool.world.trace = earlier ++ ⟨thread, .fetchPending limit, .ok entries⟩ :: later ∧
      Tracks id (some .pending) later (Table.status pool.world.state.outbox id) := by
  obtain ⟨limit, entries, member, entry, isEntry, rfl⟩ := fetched
  obtain ⟨earlier, later, isTrace⟩ := List.append_of_mem (mem_ownPast.mp member)
  exact ⟨earlier, limit, entries, later, isTrace,
    watched.fetched earlier thread limit entries later isTrace entry isEntry⟩

/-- A successful update has set its status. -/
theorem Watched.status_of_mark (watched : Watched initial pool)
    (found : pool.threads[thread]? = some ⟨call, .call command following, true⟩)
    (executed : exec command choice pool.world.state = some (reply, state)) {id : Nat}
    {status : Status} (isMark : markOf ⟨thread, command, reply⟩ = some (id, status)) :
    Table.status state.outbox id = some status := by
  obtain ⟨_, _, _, _, -, tracks⟩ :=
    watched.of_fetched (fetched_of_mark (watched.obeying.allows found) isMark)
  have present := tracks.present (fun impossible => by cases impossible)
  rcases exec_status executed thread id with ⟨set, isSet, changed⟩ | ⟨unmarked, -⟩
  · rw [isMark] at isSet
    cases isSet
    rw [changed]
    obtain ⟨old, isOld⟩ := Option.ne_none_iff_exists'.mp present
    rw [isOld, Option.map_some]
  · exact absurd isMark (unmarked status)

/-- Fetched rows are pending. -/
theorem status_of_fetch {limit : Nat} {entries : List Entry}
    (executed : exec (.fetchPending limit) choice pool.world.state = some (.ok entries, state))
    {entry : Entry} (member : entry ∈ entries) :
    Table.status state.outbox entry.id = some .pending := by
  obtain ⟨rfl, order, isOrder, rfl⟩ := exec_fetchPending_ok executed
  have selected := isOrder.1.subset (List.mem_of_mem_take member)
  obtain ⟨isRow, pending⟩ := List.mem_filter.mp selected
  rw [status_eq_some_of_mem isRow, decide_eq_true_iff.mp pending]

theorem Watched.next (watched : Watched initial pool)
    (stepped : pool.next relays event = some after) : Watched initial after := by
  have obeying := watched.obeying.next relayCode_obeys stepped
  rcases Pool.next_cases stepped with
    ⟨_, -, -, rfl⟩ |
    ⟨thread, choice, call, command, following, reply, state, rfl, found, executed, rfl⟩ |
    ⟨_, _, _, _, -, -, rfl⟩
  · exact ⟨obeying, watched.whole, watched.fetched, watched.latest⟩
  · refine ⟨obeying, fun id => (watched.whole id).step executed,
      fun earlier reader limit entries later isTrace entry member => ?_,
      fun past entry id status isTrace isMark => ?_⟩
    · rcases concat_eq_append_cons isTrace with ⟨rfl, -, isFetch⟩ | ⟨before, rfl, sameTrace⟩
      · cases isFetch
        rw [World.record_state, status_of_fetch executed member]
        refine ⟨fun status settled isStatus => ?_, fun _ impossible => by cases impossible⟩
        exact absurd (Option.some.inj isStatus).symm settled
      · exact (watched.fetched earlier reader limit entries before sameTrace entry member).step
          executed
    · obtain ⟨-, sameEntry⟩ := List.append_inj' isTrace rfl
      obtain rfl := List.singleton_inj.mp sameEntry
      exact watched.status_of_mark found executed isMark
  · exact ⟨obeying, watched.whole, watched.fetched, watched.latest⟩

/-! ### The law and its condition -/

/-- The row had the status at the beginning, or some relay set it. -/
def Once (initial : Table) (trace : List TraceEntry) (id : Nat) (status : Status) : Prop :=
  Table.status initial id = some status ∨ Marked trace id status

theorem Once.grow {trace longer : List TraceEntry} {id : Nat} {status : Status}
    (once : Once initial trace id status) (grows : trace <+: longer) :
    Once initial longer id status :=
  once.imp_right fun marked => marked.grow grows.subset

/-- The law for the states of a run up to now. -/
structure FinalSoFar (initial : Table) (pool : RelayPool) : Prop where
  status : ∀ id status, status ≠ .pending → Once initial pool.world.trace id status →
    Table.status pool.world.state.outbox id = some status
  copies : ∀ past entry id, past ++ [entry] <+: pool.world.trace →
    DeadLetters (ownPast past entry.thread) id entry.command → ¬Once initial past id .published

theorem start_finalSoFar (state : State) : FinalSoFar state.outbox (Pool.start state) where
  status id status _ once := by
    rcases once with isStatus | ⟨_, member, -⟩
    · exact isStatus
    · exact absurd member List.not_mem_nil
  copies past entry _ isPast := absurd isPast.length_le (by simp [Pool.start])

/-- The condition holds when the law survives the command. -/
theorem noStaleMark_of_final (final : FinalSoFar initial after) (watched : Watched initial after)
    (found : pool.threads[thread]? = some ⟨call, .call command following, true⟩)
    (executed : exec command choice pool.world.state = some (reply, state))
    (grown : after.world.trace = pool.world.trace ++ [⟨thread, command, reply⟩]) :
    NoStaleMark pool (.step thread choice) := by
  -- A mark that contradicts an earlier one is the latest, so the law fails after it.
  have contradicts : ∀ {later : List TraceEntry} {id : Nat} {set old : Status},
      later ⊆ pool.world.trace → markOf ⟨thread, command, reply⟩ = some (id, set) →
      old ≠ .pending → set ≠ old → ¬Marked later id old := by
    intro later id set old isLater isMark settled different marked
    have now := watched.latest _ _ id set grown isMark
    have before : Once initial after.world.trace id old := by
      rw [grown]
      exact .inr (marked.grow (List.Subset.trans isLater (List.subset_append_left _ _)))
    rw [final.status id old settled before] at now
    exact different (Option.some.inj now).symm
  intro otherCall otherCommand rest earlier limit entries later located isTrace
  rw [found] at located
  cases located
  have isLater : later ⊆ pool.world.trace := by
    rw [isTrace]
    exact List.Subset.trans (List.subset_cons_self _ _) (List.subset_append_right _ _)
  refine ⟨?_, ?_, fun id isCopy marked => ?_⟩
  · rintro id now rfl rfl
    cases executed
    exact contradicts isLater rfl (by decide) (by decide)
  · rintro id now rfl rfl
    cases executed
    exact contradicts isLater rfl (by decide) (by decide)
  · have isLast : pool.world.trace ++ [⟨thread, command, reply⟩] <+: after.world.trace :=
      grown ▸ List.prefix_rfl
    exact final.copies pool.world.trace _ id isLast isCopy (.inr (marked.grow isLater))

/-- What a successful update is. -/
theorem command_of_mark (executed : exec command choice pool.world.state = some (reply, state))
    {id : Nat} {status : Status} (isMark : markOf ⟨thread, command, reply⟩ = some (id, status)) :
    (∃ now, choice = .ok now) ∧
      ((command = .markPublished id ∧ status = .published) ∨
        (command = .markFailed id ∧ status = .failed)) := by
  cases command with
  | markPublished target =>
      cases choice with
      | ok now => cases executed; cases isMark; exact ⟨⟨now, rfl⟩, .inl ⟨rfl, rfl⟩⟩
      | fail error => cases executed; cases isMark
      | _ => cases executed
  | markFailed target =>
      cases choice with
      | ok now => cases executed; cases isMark; exact ⟨⟨now, rfl⟩, .inr ⟨rfl, rfl⟩⟩
      | fail error => cases executed; cases isMark
      | _ => cases executed
  | _ => cases isMark

/-- A settled row that a relay fetched was marked since. -/
theorem Watched.marked_since (watched : Watched initial pool) {id : Nat} {status : Status}
    (fetched : Fetched (ownPast pool.world.trace thread) id) (settled : status ≠ .pending)
    (now : Table.status pool.world.state.outbox id = some status) :
    ∃ earlier limit entries later,
      pool.world.trace = earlier ++ ⟨thread, .fetchPending limit, .ok entries⟩ :: later ∧
      Marked later id status := by
  obtain ⟨earlier, limit, entries, later, isTrace, tracks⟩ := watched.of_fetched fetched
  refine ⟨earlier, limit, entries, later, isTrace, ?_⟩
  rcases tracks.marked status settled now with pending | marked
  · exact absurd (Option.some.inj pending).symm settled
  · exact marked

/-- Under the condition a mark repeats the status of a row that is settled. -/
theorem Watched.mark_eq_of_settled (watched : Watched initial pool)
    (found : pool.threads[thread]? = some ⟨call, .call command following, true⟩)
    (executed : exec command choice pool.world.state = some (reply, state))
    (noStale : NoStaleMark pool (.step thread choice)) {id : Nat} {set status : Status}
    (isMark : markOf ⟨thread, command, reply⟩ = some (id, set)) (settled : status ≠ .pending)
    (old : Table.status pool.world.state.outbox id = some status) : set = status := by
  obtain ⟨earlier, limit, entries, later, isTrace, marked⟩ := watched.marked_since
    (fetched_of_mark (watched.obeying.allows found) isMark) settled old
  obtain ⟨notFailed, notPublished, -⟩ :=
    noStale call command following earlier limit entries later found isTrace
  obtain ⟨⟨clock, isOk⟩, ⟨isCommand, rfl⟩ | ⟨isCommand, rfl⟩⟩ := command_of_mark executed isMark
  · cases status with
    | pending => exact absurd rfl settled
    | published => rfl
    | failed => exact absurd marked (notFailed id clock isCommand isOk)
  · cases status with
    | pending => exact absurd rfl settled
    | published => exact absurd marked (notPublished id clock isCommand isOk)
    | failed => rfl

/-- Without a mark by the last command the row had its status before. -/
theorem Once.of_concat {trace : List TraceEntry} {last : TraceEntry} {id : Nat} {status : Status}
    (once : Once initial (trace ++ [last]) id status) (unmarked : markOf last ≠ some (id, status)) :
    Once initial trace id status := by
  refine once.imp_right ?_
  rintro ⟨entry, member, isMark⟩
  rcases List.mem_append.mp member with early | isLast
  · exact ⟨entry, early, isMark⟩
  · rw [List.mem_singleton.mp isLast] at isMark
    exact absurd isMark unmarked

/-- The law survives a command when the condition holds. -/
theorem finalSoFar_step (final : FinalSoFar initial pool) (watched : Watched initial pool)
    (found : pool.threads[thread]? = some ⟨call, .call command following, true⟩)
    (executed : exec command choice pool.world.state = some (reply, state))
    (noStale : NoStaleMark pool (.step thread choice)) :
    FinalSoFar initial
      { world := pool.world.record thread command reply state
        threads := pool.threads.set thread ⟨call, following reply, true⟩ } := by
  refine ⟨fun id status settled once => ?_, fun past entry id isPast isCopy once => ?_⟩
  · rw [World.record_trace] at once
    rw [World.record_state]
    have before := fun unmarked => final.status id status settled (once.of_concat unmarked)
    rcases exec_status executed thread id with ⟨set, isMark, -⟩ | ⟨unmarked, kept | ⟨absent, -⟩⟩
    · have now := watched.status_of_mark found executed isMark
      by_cases same : set = status
      · rw [now, same]
      · have old := before fun isStatus => same (by rw [isMark] at isStatus; cases isStatus; rfl)
        exact absurd (watched.mark_eq_of_settled found executed noStale isMark settled old) same
    · rw [kept]
      exact before (unmarked status)
    · rw [before (unmarked status)] at absent
      cases absent
  · rcases List.prefix_concat_iff.mp isPast with isLast | isEarly
    · obtain ⟨rfl, sameEntry⟩ := List.append_inj' isLast rfl
      obtain rfl := List.singleton_inj.mp sameEntry
      have published : Status.published ≠ .pending := by decide
      obtain ⟨earlier, limit, entries, later, isTrace, marked⟩ :=
        watched.marked_since isCopy.fetched published (final.status id .published published once)
      exact (noStale call command following earlier limit entries later found isTrace).2.2 id isCopy
        marked
    · exact final.copies past entry id isEarly isCopy once

end Steps

/-! ### Every run -/

theorem reached_watched {state : State} {events : List (Event RelayCall Choice)} {pool : RelayPool}
    (ran : (Pool.start state).run relays events = some pool) : Watched state.outbox pool :=
  run_invariant (fun _ _ _ watched stepped => watched.next stepped) (start_watched state) ran

/-- The law holds all along a run if and only if the condition holds at each event. -/
theorem always_finalSoFar_iff (state : State) (events : List (Event RelayCall Choice)) :
    Always (fun pool event => pool.next relays event) (Pool.start state) events
        (FinalSoFar state.outbox) ↔
      EachStep (fun pool event => pool.next relays event) (Pool.start state) events
        NoStaleMark := by
  refine always_iff_eachStep (Watched state.outbox) (start_watched state) (start_finalSoFar state)
    ?_ events
  intro pool event after watched final stepped
  have afterWatched := watched.next stepped
  refine ⟨afterWatched, ?_⟩
  rcases Pool.next_cases stepped with
    ⟨_, rfl, -, rfl⟩ |
    ⟨thread, choice, call, command, following, reply, left, rfl, found, executed, rfl⟩ |
    ⟨_, _, _, _, rfl, -, rfl⟩
  · exact iff_of_true ⟨final.status, final.copies⟩ trivial
  · exact ⟨fun afterFinal => noStaleMark_of_final afterFinal afterWatched found executed rfl,
      finalSoFar_step final watched found executed⟩
  · exact iff_of_true ⟨final.status, final.copies⟩ trivial

/-- A status that a row once had was its status in some state of the run. -/
theorem exists_early_of_once {state : State} {events : List (Event RelayCall Choice)}
    {pool : RelayPool} (ran : (Pool.start state).run relays events = some pool)
    {past : List TraceEntry} (isPast : past <+: pool.world.trace) {id : Nat} {status : Status}
    (once : Once state.outbox past id status) :
    ∃ earlier early, earlier <+: events ∧ (Pool.start state).run relays earlier = some early ∧
      early.world.trace <+: past ∧ Table.status early.world.state.outbox id = some status := by
  rcases once with isStatus | ⟨entry, member, isMark⟩
  · exact ⟨[], Pool.start state, List.nil_prefix, rfl, List.nil_prefix, isStatus⟩
  · obtain ⟨before, rest, split⟩ := List.append_of_mem member
    have isBefore : before ++ [entry] <+: past := ⟨rest, by rw [split]; simp⟩
    obtain ⟨earlier, early, isEarlier, reached, isTrace⟩ :=
      Pool.exists_past_of_trace ran List.nil_prefix (isBefore.trans isPast)
    exact ⟨earlier, early, isEarlier, reached, isTrace ▸ isBefore,
      (reached_watched reached).latest before entry id status isTrace isMark⟩

/-- **When outbox statuses are final.** For every run of any number of relays and
inserts from any outbox, the following are equivalent: between any two states of
the run a row that is published or failed stays so, and no copy of a published
row is sent to the dead-letter topic; and no relay marks or dead-letters a row
with the other outcome after some relay settled it since its fetch. -/
theorem outbox_status_final_iff (state : State) (events : List (Event RelayCall Choice)) :
    (∀ past future early late, past <+: future → future <+: events →
      (Pool.start state).run relays past = some early →
      (Pool.start state).run relays future = some late → Final early late) ↔
    EachStep (fun pool event => pool.next relays event) (Pool.start state) events
      NoStaleMark := by
  rw [← always_finalSoFar_iff]
  constructor
  · intro final past middle isPast ran
    refine ⟨fun id status settled once => ?_, fun before entry id isBefore isCopy once => ?_⟩
    · obtain ⟨earlier, early, isEarlier, reached, -, isStatus⟩ :=
        exists_early_of_once ran List.prefix_rfl once
      refine (final earlier past early middle isEarlier isPast reached ran).status id status ?_
        isStatus
      cases status with
      | pending => exact absurd rfl settled
      | published => exact .inl rfl
      | failed => exact .inr rfl
    · obtain ⟨earlier, early, isEarlier, reached, grows, isStatus⟩ :=
        exists_early_of_once ran ((List.prefix_append _ _).trans isBefore) once
      exact (final earlier past early middle isEarlier isPast reached ran).copies before entry id
        grows isBefore isStatus isCopy
  · intro always past future early late isPast isFuture reached ran
    have law := always future late isFuture ran
    have once : ∀ {id : Nat} {status : Status}, status ≠ .pending →
        Table.status early.world.state.outbox id = some status →
        Once state.outbox early.world.trace id status :=
      fun settled isStatus => ((reached_watched reached).whole _).marked _ settled isStatus
    have grows := Pool.trace_of_prefix isPast reached ran
    refine ⟨fun id status settled isStatus => ?_,
      fun before entry id isEarly isBefore isStatus isCopy => ?_⟩
    · have notPending : status ≠ .pending := by
        rcases settled with rfl | rfl <;> decide
      exact law.status id status notPending ((once notPending isStatus).grow grows)
    · exact law.copies before entry id isBefore isCopy ((once (by decide) isStatus).grow isEarly)

/-- A row that failed four times. -/
def failingRow : Entry where
  id := 1
  messageId := [1]
  topic := utf8 "user-aa"
  partitionKey := [0xaa]
  payload := [7]
  status := .pending
  retryCount := 4
  createdAt := 1
  publishedAt := none

/-- The code that leaves it in the outbox. -/
def insertFailing : Code Unit := do
  let _ ← Store.insert
    { messageId := some [1], topic := utf8 "user-aa", partitionKey := some [0xaa], payload := [7] }
  let _ ← Store.incrementRetry 1
  let _ ← Store.incrementRetry 1
  let _ ← Store.incrementRetry 1
  let _ ← Store.incrementRetry 1
  return ()

/-- Two relays fetch a row. One of them publishes it, the other one fails, sends it
to the dead-letter topic and marks it as failed. -/
theorem published_row_fails :
    let past : List (Event RelayCall Choice) :=
      [.spawn (.poll 100), .spawn (.poll 100), .step 0 (.fetched [failingRow]),
        .step 1 (.fetched [failingRow]), .step 1 (.ok 2), .step 1 (.ok 3)]
    let rest : List (Event RelayCall Choice) :=
      [.step 0 (.fail "kafka: broker down"), .step 0 (.ok 4), .step 0 (.ok 5), .step 0 (.ok 6)]
    ∃ state early late,
      insertFailing.run exec [.ok 1, .ok 1, .ok 1, .ok 1, .ok 1] State.initial = some ((), state) ∧
      (Pool.start state).run relays past = some early ∧
      (Pool.start state).run relays (past ++ rest) = some late ∧
      Table.status early.world.state.outbox 1 = some .published ∧
      early.world.state.log topicDeadLetter = [] ∧
      Table.status late.world.state.outbox 1 = some .failed ∧
      late.world.state.log topicDeadLetter = [⟨some (utf8 "user-aa"), [7]⟩] ∧
      ¬Final early late := by
  intro past rest
  refine ⟨_, _, _, rfl, rfl, rfl, rfl, rfl, rfl, rfl, fun final => ?_⟩
  have stays := final.status 1 .published (.inl rfl) rfl
  cases stays

end FProto.Outbox

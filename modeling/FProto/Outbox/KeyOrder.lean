import FProto.Outbox.Relay

/-!
Owns the order in which one relay publishes rows with the same topic and
partition key.

`FetchPending` returns the oldest rows first, but a poll goes on after a failed
`Send`, so a newer row can overtake an older one with the same key that is sent
again by a later poll. The order is kept in every run in which no poll lets a
row overtake another one like that.
-/

namespace FProto.Outbox

open FProto.Foundation

/-! ### Attempts -/

/-- The rows that a relay tried to publish, and whether `Send` succeeded. In
`publish` a `Send` that succeeds is followed by `MarkPublished`; one that fails
is followed by `IncrementRetry`. -/
def attempts : Log → List (Nat × Bool)
  | ⟨.send _ _ _, .ok _⟩ :: ⟨.markPublished id, _⟩ :: log => (id, true) :: attempts log
  | ⟨.send _ _ _, .error _⟩ :: ⟨.incrementRetry id, _⟩ :: log => (id, false) :: attempts log
  | _ :: log => attempts log
  | [] => []

/-- The state and what every poll executed, oldest first. -/
structure Polls where
  state : State
  logs : List Log

def Polls.attempts (polls : Polls) : List (Nat × Bool) := polls.logs.flatMap FProto.Outbox.attempts

/-- One whole poll. -/
def Relay.next (batch : Nat) (polls : Polls) (choices : List Choice) : Option Polls :=
  match (Relay.poll batch).run exec choices polls.state with
  | none => none
  | some (_, state) =>
      some { state, logs := polls.logs ++ [(Relay.poll batch).log exec choices polls.state] }

/-- The rows go to the same partition and the first one is older. -/
structure Entry.Precedes (older newer : Entry) : Prop where
  topic : older.topic = newer.topic
  partitionKey : older.partitionKey = newer.partitionKey
  createdAt : older.createdAt < newer.createdAt

/-- Of two rows that were both published the older one was sent first. -/
def KeepsOrder (table : Table) (polls : Polls) : Prop :=
  ∀ older ∈ table.rows, ∀ newer ∈ table.rows, older.Precedes newer →
    (older.id, true) ∈ polls.attempts → (newer.id, true) ∈ polls.attempts →
    polls.attempts.idxOf (older.id, true) < polls.attempts.idxOf (newer.id, true)

/-- The condition on a poll: after a failed `Send` of a row no `Send` of a newer row
with the same topic and partition key succeeds. -/
def NoOvertaking (table : Table) (batch : Nat) (polls : Polls) (choices : List Choice) : Prop :=
  ∀ older ∈ table.rows, ∀ newer ∈ table.rows, older.Precedes newer →
    ¬[(older.id, false), (newer.id, true)].Sublist
      (attempts ((Relay.poll batch).log exec choices polls.state))

/-! ### What a relay does to the table -/

/-- The row is pending. -/
def Table.Pending (table : Table) (id : Nat) : Prop :=
  ∃ row ∈ table.rows, row.id = id ∧ row.status = .pending

/-- The rows keep their id and age, and none becomes pending. -/
structure Table.Advances (before after : Table) : Prop where
  rows : after.rows.map (fun row => (row.id, row.createdAt)) =
    before.rows.map fun row => (row.id, row.createdAt)
  pending : ∀ id, Table.Pending after id → Table.Pending before id

namespace Table.Advances

theorem refl (table : Table) : Table.Advances table table := ⟨rfl, fun _ => id⟩

theorem trans {first second third : Table} (early : Table.Advances first second)
    (late : Table.Advances second third) : Table.Advances first third :=
  ⟨late.rows.trans early.rows, fun id pending => early.pending id (late.pending id pending)⟩

/-- A row keeps its age. -/
theorem row {before after : Table} (advances : Table.Advances before after) {original : Entry}
    (member : original ∈ before.rows) :
    ∃ kept ∈ after.rows, kept.id = original.id ∧ kept.createdAt = original.createdAt := by
  have listed : (original.id, original.createdAt) ∈
      after.rows.map fun row => (row.id, row.createdAt) := by
    rw [advances.rows]
    exact List.mem_map_of_mem member
  obtain ⟨kept, keptMember, same⟩ := List.mem_map.mp listed
  exact ⟨kept, keptMember, congrArg Prod.fst same, congrArg Prod.snd same⟩

/-- `UPDATE ... WHERE id = $1` that does not set `pending`. -/
theorem update (table : Table) (id : Nat) {rewrite : Entry → Entry}
    (keepsId : ∀ row, (rewrite row).id = row.id)
    (keepsKey : ∀ row, (rewrite row).messageId = row.messageId)
    (keepsAge : ∀ row, (rewrite row).createdAt = row.createdAt)
    (settles : ∀ row, (rewrite row).status = .pending → row.status = .pending) :
    Table.Advances table (table.update (fun row => row.id == id) rewrite keepsId keepsKey) := by
  refine ⟨?_, fun other => ?_⟩
  · simp only [SerialTable.update, List.map_map]
    refine List.map_congr_left fun row _ => ?_
    simp only [Function.comp_apply]
    split
    · rw [keepsId, keepsAge]
    · rfl
  · rintro ⟨row, member, sameId, pending⟩
    rcases (SerialTable.mem_update _ _ keepsId keepsKey).mp member with
      ⟨original, originalMember, -, rfl⟩ | ⟨old, -⟩
    · exact ⟨original, originalMember, (keepsId original).symm.trans sameId,
        settles original pending⟩
    · exact ⟨row, old, sameId, pending⟩

end Table.Advances

/-- Only an insert makes a row pending. -/
theorem Effect.advances {state after : State} {command : Command}
    (effect : Effect state command after) (noInsert : ∀ entry, command ≠ .insert entry) :
    Table.Advances state.outbox after.outbox := by
  cases effect with
  | inserted accepted => exact absurd rfl (noInsert _)
  | published id now =>
      exact .update _ _ (fun _ => by rfl) (fun _ => by rfl) (fun _ => by rfl)
        (fun _ impossible => by cases impossible)
  | failed id =>
      exact .update _ _ (fun _ => by rfl) (fun _ => by rfl) (fun _ => by rfl)
        (fun _ impossible => by cases impossible)
  | retried id =>
      exact .update _ _ (fun _ => by rfl) (fun _ => by rfl) (fun _ => by rfl)
        (fun _ pending => by exact pending)
  | _ => exact .refl _

/-! ### What a poll attempts -/

/-- The log does not go on with the end of an attempt. -/
def Fresh (log : Log) : Prop :=
  log = [] ∨ ∃ topic key value reply rest, log = ⟨.send topic key value, reply⟩ :: rest

/-- What `publish` executed. -/
theorem publish_executes {entry : Entry} {state after : State} {log : Log}
    {result : Except String Unit}
    (executes : Executes exec (Relay.publish entry) state log result after) :
    Table.Advances state.outbox after.outbox ∧ ∃ topic key value,
      log = [⟨.send topic key value, .ok ()⟩, ⟨.markPublished entry.id, result⟩] ∨
        ∃ error, log = [⟨.send topic key value, .error error⟩] ∧ result = .error error := by
  obtain ⟨sent, middle, early, late, rfl, sending, rest⟩ := executes.bind_inv
  obtain ⟨rfl, choice, executed⟩ := sending.issue_inv
  have first := (exec_effect executed).advances (fun _ impossible => by cases impossible)
  cases sent with
  | error error =>
      cases rest
      exact ⟨first, _, _, _, .inr ⟨error, rfl, rfl⟩⟩
  | ok _ =>
      obtain ⟨rfl, choice, executed⟩ := rest.issue_inv
      have second := (exec_effect executed).advances (fun _ impossible => by cases impossible)
      exact ⟨first.trans second, _, _, _, .inl rfl⟩

theorem sendToDeadLetter_executes {entry : Entry} {state after : State} {log : Log}
    (executes : Executes exec (Relay.sendToDeadLetter entry) state log () after) :
    Table.Advances state.outbox after.outbox ∧ ∃ topic key value,
      (∃ reply, log = [⟨.send topic key value, .ok ()⟩, ⟨.markFailed entry.id, reply⟩]) ∨
        ∃ error, log = [⟨.send topic key value, .error error⟩] := by
  obtain ⟨sent, middle, early, late, rfl, sending, rest⟩ := executes.bind_inv
  obtain ⟨rfl, choice, executed⟩ := sending.issue_inv
  have first := (exec_effect executed).advances (fun _ impossible => by cases impossible)
  cases sent with
  | error error =>
      cases rest
      exact ⟨first, _, _, _, .inr ⟨error, rfl⟩⟩
  | ok _ =>
      obtain ⟨reply, _, marked, _, rfl, marking, done⟩ := rest.bind_inv
      obtain ⟨rfl, choice, executed⟩ := marking.issue_inv
      cases done
      have second := (exec_effect executed).advances (fun _ impossible => by cases impossible)
      exact ⟨first.trans second, _, _, _, .inl ⟨reply, rfl⟩⟩

/-- A failed `Send` to the dead-letter topic is no attempt. -/
theorem attempts_error {topic : Bytes} {key : Slice} {value : Bytes} {error : String} {rest : Log}
    (fresh : Fresh rest) :
    attempts (⟨.send topic key value, .error error⟩ :: rest) = attempts rest := by
  rcases fresh with rfl | ⟨_, _, _, _, _, rfl⟩ <;> rfl

/-- The loop tries every entry once, in order. -/
theorem publishEntries_executes {entries : List Entry} {state after : State} {log : Log}
    (executes : Executes exec (Relay.publishEntries entries) state log () after) :
    Fresh log ∧ Table.Advances state.outbox after.outbox ∧
      (attempts log).map Prod.fst = entries.map Entry.id := by
  induction entries generalizing state log with
  | nil =>
      cases executes
      exact ⟨.inl rfl, .refl _, rfl⟩
  | cons entry entries inductionHypothesis =>
      obtain ⟨result, published, early, late, rfl, publishing, rest⟩ := executes.bind_inv
      obtain ⟨first, topic, key, value, shape⟩ := publish_executes publishing
      cases result with
      | ok _ =>
          obtain ⟨-, second, following⟩ := inductionHypothesis rest
          rcases shape with rfl | ⟨error, -, impossible⟩
          · refine ⟨.inr ⟨_, _, _, _, _, rfl⟩, first.trans second, ?_⟩
            simp only [List.cons_append, List.nil_append, attempts, List.map_cons, following]
          · cases impossible
      | error error =>
          obtain ⟨retried, counted, counting, left, rfl, incrementing, continuing⟩ :=
            rest.bind_inv
          obtain ⟨rfl, choice, executed⟩ := incrementing.issue_inv
          have second := (exec_effect executed).advances (fun _ impossible => by cases impossible)
          -- The rest of the iteration adds no attempt.
          have remaining : Table.Advances counted.outbox after.outbox ∧
              (attempts left).map Prod.fst = entries.map Entry.id := by
            dsimp only at continuing
            split at continuing
            · obtain ⟨_, buried, burying, later, rfl, deadLetter, last⟩ := continuing.bind_inv
              obtain ⟨fresh, third, following⟩ := inductionHypothesis last
              obtain ⟨sent, _, _, _, shape⟩ := sendToDeadLetter_executes deadLetter
              refine ⟨sent.trans third, ?_⟩
              rcases shape with ⟨reply, rfl⟩ | ⟨error, rfl⟩
              · exact following
              · rw [List.singleton_append, attempts_error fresh, following]
            · exact (inductionHypothesis continuing).2
          obtain ⟨third, following⟩ := remaining
          rcases shape with rfl | ⟨error, rfl, -⟩
          · refine ⟨.inr ⟨_, _, _, _, _, rfl⟩, first.trans (second.trans third), ?_⟩
            simp only [List.cons_append, List.nil_append, attempts, List.map_cons, following]
          · refine ⟨.inr ⟨_, _, _, _, _, rfl⟩, first.trans (second.trans third), ?_⟩
            simp only [List.cons_append, List.nil_append, attempts, List.map_cons, following]

/-- A poll tries the oldest pending rows, oldest first. -/
theorem poll_executes {batch : Nat} {state after : State} {log : Log}
    (executes : Executes exec (Relay.poll batch) state log () after) :
    Table.Advances state.outbox after.outbox ∧
      (attempts log = [] ∨ ∃ order, IsPendingOrder state.outbox order ∧
        (attempts log).map Prod.fst = (order.take batch).map Entry.id) := by
  obtain ⟨fetched, middle, early, late, rfl, fetching, rest⟩ := executes.bind_inv
  obtain ⟨rfl, choice, executed⟩ := fetching.issue_inv
  have first := (exec_effect executed).advances (fun _ impossible => by cases impossible)
  cases fetched with
  | error error =>
      cases rest
      exact ⟨first, .inl rfl⟩
  | ok entries =>
      obtain ⟨rfl, order, isOrder, rfl⟩ := exec_fetchPending_ok executed
      obtain ⟨-, second, following⟩ := publishEntries_executes rest
      exact ⟨second, .inr ⟨order, isOrder, following⟩⟩

/-! ### The order of the attempts -/

theorem idxOf_lt_of_sublist {Value : Type} [BEq Value] [LawfulBEq Value] {first second : Value}
    {values : List Value} (inOrder : [first, second].Sublist values) (distinct : values.Nodup) :
    values.idxOf first < values.idxOf second := by
  obtain ⟨early, late, rfl, isEarly, isLate⟩ := List.cons_sublist_iff.mp inOrder
  have notEarly : second ∉ early := fun member =>
    (List.disjoint_of_nodup_append distinct) member (List.singleton_sublist.mp isLate)
  rw [List.idxOf_append_of_mem isEarly, List.idxOf_append_of_notMem notEarly]
  exact Nat.lt_add_right _ (List.idxOf_lt_length_iff.mpr isEarly)

/-- An older pending row comes before a newer one that is fetched. -/
theorem IsPendingOrder.take_sublist {table : Table} {order : List Entry}
    (isOrder : IsPendingOrder table order) {older newer : Entry} {batch : Nat}
    (older_mem : older ∈ order) (newer_mem : newer ∈ order.take batch)
    (younger : older.createdAt < newer.createdAt) : [older, newer].Sublist (order.take batch) := by
  obtain ⟨early, late, split⟩ := List.append_of_mem newer_mem
  have whole : order = early ++ newer :: (late ++ order.drop batch) := by
    conv_lhs => rw [← List.take_append_drop batch order, split]
    simp
  have sorted := isOrder.2
  rw [whole] at older_mem sorted
  have notLater : older ∉ newer :: (late ++ order.drop batch) := by
    intro member
    rcases List.mem_cons.mp member with rfl | later
    · exact Nat.lt_irrefl _ younger
    · have ordered := List.rel_of_pairwise_cons (List.pairwise_append.mp sorted).2.1 later
      exact Nat.not_lt.mpr ordered younger
  have isEarly := (List.mem_append.mp older_mem).resolve_right notLater
  rw [split]
  exact (List.singleton_sublist.mpr isEarly).append
    (List.singleton_sublist.mpr List.mem_cons_self)

theorem IsPendingOrder.mem_iff {table : Table} {order : List Entry}
    (isOrder : IsPendingOrder table order) {row : Entry} :
    row ∈ order ↔ row ∈ table.rows ∧ row.status = .pending := by
  rw [isOrder.1.mem_iff, pendingRows, List.mem_filter, decide_eq_true_iff]

theorem IsPendingOrder.waiting_take {table : Table} {order : List Entry}
    (isOrder : IsPendingOrder table order) (batch : Nat) : Table.Waiting table (order.take batch) :=
  fun _ member => isOrder.mem_iff.mp (List.mem_of_mem_take member)

/-- A poll tries every row once. -/
theorem IsPendingOrder.nodup_take {table : Table} {order : List Entry}
    (isOrder : IsPendingOrder table order) (batch : Nat) :
    ((order.take batch).map Entry.id).Nodup := by
  have pending : ((pendingRows table).map Entry.id).Nodup :=
    table.ids_nodup.sublist (List.filter_sublist.map _)
  exact ((isOrder.1.map _).nodup_iff.mpr pending).sublist ((List.take_sublist _ _).map _)

section Poll

variable {batch : Nat} {table : Table} {tried : List (Nat × Bool)} {order : List Entry}

/-- Only pending rows are tried. -/
theorem pending_of_tried (isOrder : IsPendingOrder table order)
    (ids : tried.map Prod.fst = (order.take batch).map Entry.id) {id : Nat} {sent : Bool}
    (member : (id, sent) ∈ tried) :
    ∃ row ∈ order.take batch, row.id = id ∧ row ∈ table.rows ∧ row.status = .pending := by
  have listed : id ∈ (order.take batch).map Entry.id := by
    rw [← ids]
    exact List.mem_map.mpr ⟨_, member, rfl⟩
  obtain ⟨row, fetched, same⟩ := List.mem_map.mp listed
  exact ⟨row, fetched, same, isOrder.mem_iff.mp (List.mem_of_mem_take fetched)⟩

/-- When a poll publishes a row, it tried every older pending row before. -/
theorem older_tried (isOrder : IsPendingOrder table order)
    (ids : tried.map Prod.fst = (order.take batch).map Entry.id) {older newer : Entry}
    (older_mem : older ∈ table.rows) (newer_mem : newer ∈ table.rows)
    (younger : older.createdAt < newer.createdAt) (pending : Table.Pending table older.id)
    (published : (newer.id, true) ∈ tried) :
    ∃ sent, [(older.id, sent), (newer.id, true)].Sublist tried := by
  have olderFetchable : older ∈ order := by
    obtain ⟨row, member, same, isPending⟩ := pending
    obtain rfl := SerialTable.eq_of_id_eq member older_mem same
    exact isOrder.mem_iff.mpr ⟨member, isPending⟩
  have newerFetched : newer ∈ order.take batch := by
    obtain ⟨row, fetched, same, member, -⟩ := pending_of_tried isOrder ids published
    obtain rfl := SerialTable.eq_of_id_eq member newer_mem same
    exact fetched
  have inOrder := (isOrder.take_sublist olderFetchable newerFetched younger).map Entry.id
  rw [← ids] at inOrder
  obtain ⟨pair, isPair, same⟩ := List.sublist_map_iff.mp inOrder
  obtain ⟨⟨first, sent⟩, ⟨second, other⟩, rfl⟩ : ∃ first second, pair = [first, second] :=
    List.length_eq_two.mp (by simpa using (congrArg List.length same).symm)
  simp only [List.map_cons, List.map_nil, List.cons.injEq, and_true] at same
  obtain ⟨rfl, rfl⟩ := same
  have distinct : (tried.map Prod.fst).Nodup := ids ▸ isOrder.nodup_take batch
  have sameAttempt : (newer.id, other) = (newer.id, true) :=
    List.inj_on_of_nodup_map distinct (isPair.subset (by simp)) published rfl
  rw [sameAttempt] at isPair
  exact ⟨sent, isPair⟩

end Poll

/-- What a poll tries, in terms of the rows that were there at the beginning. -/
structure Tries (initial table : Table) (tried : List (Nat × Bool)) : Prop where
  distinct : tried.Nodup
  pending : ∀ id sent, (id, sent) ∈ tried → Table.Pending table id
  older : ∀ older ∈ initial.rows, ∀ newer ∈ initial.rows, older.createdAt < newer.createdAt →
    Table.Pending table older.id → (newer.id, true) ∈ tried →
    ∃ sent, [(older.id, sent), (newer.id, true)].Sublist tried

theorem poll_tries {initial : Table} {batch : Nat} {state after : State} {log : Log}
    (advances : Table.Advances initial state.outbox)
    (executes : Executes exec (Relay.poll batch) state log () after) :
    Tries initial state.outbox (attempts log) := by
  rcases (poll_executes executes).2 with none | ⟨order, isOrder, ids⟩
  · rw [none]
    exact ⟨List.nodup_nil, fun _ _ member => absurd member List.not_mem_nil,
      fun _ _ _ _ _ _ member => absurd member List.not_mem_nil⟩
  · refine ⟨List.Nodup.of_map Prod.fst (ids ▸ isOrder.nodup_take batch), fun id sent member => ?_,
      fun older older_mem newer newer_mem younger pending published => ?_⟩
    · obtain ⟨row, -, same, isRow, isPending⟩ := pending_of_tried isOrder ids member
      exact ⟨row, isRow, same, isPending⟩
    · obtain ⟨olderNow, olderNow_mem, olderId, olderAge⟩ := advances.row older_mem
      obtain ⟨newerNow, newerNow_mem, newerId, newerAge⟩ := advances.row newer_mem
      rw [← olderAge, ← newerAge] at younger
      rw [← olderId] at pending ⊢
      rw [← newerId] at published ⊢
      exact older_tried isOrder ids olderNow_mem newerNow_mem younger pending published

/-! ### Every run -/

theorem Relay.next_inv {batch : Nat} {polls after : Polls} {choices : List Choice}
    (stepped : Relay.next batch polls choices = some after) :
    Executes exec (Relay.poll batch) polls.state ((Relay.poll batch).log exec choices polls.state) ()
        after.state ∧
      after.attempts =
        polls.attempts ++ attempts ((Relay.poll batch).log exec choices polls.state) := by
  unfold Relay.next at stepped
  split at stepped
  · cases stepped
  · next state ran =>
    cases stepped
    exact ⟨executes_of_run ran, by simp [Polls.attempts]⟩

/-- The invariant: an older row was sent before every newer one, or is never sent
again. -/
structure InOrder (initial : Table) (polls : Polls) : Prop where
  advances : Table.Advances initial polls.state.outbox
  sent : ∀ older ∈ initial.rows, ∀ newer ∈ initial.rows, older.Precedes newer →
    (newer.id, true) ∈ polls.attempts →
    ((older.id, true) ∈ polls.attempts ∧
      polls.attempts.idxOf (older.id, true) < polls.attempts.idxOf (newer.id, true)) ∨
    ((older.id, true) ∉ polls.attempts ∧ ¬Table.Pending polls.state.outbox older.id)

/-- **The step lemma.** -/
theorem InOrder.next {initial : Table} {batch : Nat} {polls after : Polls} {choices : List Choice}
    (inOrder : InOrder initial polls) (noOvertaking : NoOvertaking initial batch polls choices)
    (stepped : Relay.next batch polls choices = some after) : InOrder initial after := by
  obtain ⟨executes, grown⟩ := Relay.next_inv stepped
  have advances := (poll_executes executes).1
  have tries := poll_tries inOrder.advances executes
  refine ⟨inOrder.advances.trans advances, fun older older_mem newer newer_mem precedes => ?_⟩
  have overtakes := noOvertaking older older_mem newer newer_mem precedes
  generalize attempts ((Relay.poll batch).log exec choices polls.state) = tried
    at grown tries overtakes
  rw [grown]
  intro published
  -- A row that is not pending is not tried and does not become pending.
  have settled : (older.id, true) ∉ polls.attempts → ¬Table.Pending polls.state.outbox older.id →
      (older.id, true) ∉ polls.attempts ++ tried ∧ ¬Table.Pending after.state.outbox older.id := by
    intro unsent notPending
    refine ⟨fun member => ?_, fun pending => notPending (advances.pending _ pending)⟩
    rcases List.mem_append.mp member with early | now
    · exact unsent early
    · exact notPending (tries.pending _ _ now)
  by_cases before : (newer.id, true) ∈ polls.attempts
  · rcases inOrder.sent older older_mem newer newer_mem precedes before with
      ⟨sent, first⟩ | ⟨unsent, notPending⟩
    · left
      rw [List.idxOf_append_of_mem sent, List.idxOf_append_of_mem before]
      exact ⟨List.mem_append_left _ sent, first⟩
    · exact .inr (settled unsent notPending)
  · have now := (List.mem_append.mp published).resolve_left before
    rw [List.idxOf_append_of_notMem before]
    by_cases sent : (older.id, true) ∈ polls.attempts
    · left
      rw [List.idxOf_append_of_mem sent]
      exact ⟨List.mem_append_left _ sent, Nat.lt_add_right _ (List.idxOf_lt_length_iff.mpr sent)⟩
    · by_cases pending : Table.Pending polls.state.outbox older.id
      · obtain ⟨result, pair⟩ :=
          tries.older older older_mem newer newer_mem precedes.createdAt pending now
        cases result with
        | false => exact absurd pair overtakes
        | true =>
            left
            rw [List.idxOf_append_of_notMem sent]
            exact ⟨List.mem_append_right _ (pair.subset (by simp)),
              Nat.add_lt_add_left (idxOf_lt_of_sublist pair tries.distinct) _⟩
      · exact .inr (settled sent pending)

/-- **When the relay keeps the order of a key.** From any outbox, all along every run
of polls by one relay with any failures: of two published rows with the same
topic and partition key the one with the earlier `created_at` was sent first,
if no poll sends a row after it failed to send an older one with the same topic
and key. -/
theorem key_order_of_noOvertaking (batch : Nat) (state : State) (polls : List (List Choice))
    (noOvertaking : EachStep (Relay.next batch) { state, logs := [] } polls
      (NoOvertaking state.outbox batch)) :
    Always (Relay.next batch) { state, logs := [] } polls (KeepsOrder state.outbox) := by
  have start : InOrder state.outbox { state, logs := [] } :=
    ⟨.refl _, fun _ _ _ _ _ published => absurd published List.not_mem_nil⟩
  have inOrder := always_of_eachStep start
    (fun _ _ _ inOrder noOvertaking stepped => inOrder.next noOvertaking stepped) noOvertaking
  intro past middle isPast ran older older_mem newer newer_mem precedes sent published
  rcases (inOrder past middle isPast ran).sent older older_mem newer newer_mem precedes published
    with ⟨-, first⟩ | ⟨unsent, -⟩
  · exact first
  · exact absurd sent unsent

/-- Two messages of one sender. -/
def insertTwo : Code (Except String Unit) := do
  let entry : NewEntry :=
    { messageId := some [1], topic := utf8 "user-aa", partitionKey := some [0xaa], payload := [] }
  let _ ← Store.insert entry
  Store.insert { entry with messageId := some [2] }

/-- Their rows; the number is id, message id and age. -/
def pendingRow (number retryCount : Nat) : Entry where
  id := number
  messageId := [UInt8.ofNat number]
  topic := utf8 "user-aa"
  partitionKey := [0xaa]
  payload := []
  status := .pending
  retryCount := retryCount
  createdAt := number
  publishedAt := none

/-- One poll publishes both rows. -/
def publishBoth : List Choice :=
  [.fetched [pendingRow 1 0, pendingRow 2 0], .ok 3, .ok 4, .ok 5, .ok 6]

theorem key_order_of_noOvertaking_single :
    ∃ state polls, insertTwo.run exec [.ok 1, .ok 2] State.initial = some (.ok (), state) ∧
      run (Relay.next 100) { state, logs := [] } [publishBoth] = some polls ∧
      polls.attempts = [(1, true), (2, true)] ∧ KeepsOrder state.outbox polls := by
  refine ⟨_, _, rfl, rfl, rfl, ?_⟩
  refine key_order_of_noOvertaking 100 _ [publishBoth] ?_ _ _ List.prefix_rfl rfl
  refine eachStep_concat.mpr ⟨eachStep_nil, fun middle after ran _ => ?_⟩
  obtain rfl := Option.some.inj ran
  intro older _ newer _ _ pair
  have failed : (older.id, false) ∈ [(1, true), (2, true)] := pair.subset List.mem_cons_self
  simp at failed

/-- The first row fails once, so the second one is sent before it. -/
theorem newer_row_overtakes :
    ∃ state polls, insertTwo.run exec [.ok 1, .ok 2] State.initial = some (.ok (), state) ∧
      run (Relay.next 100) { state, logs := [] }
        [[.fetched [pendingRow 1 0, pendingRow 2 0], .fail "kafka: broker down", .ok 3, .ok 4, .ok 5],
          [.fetched [pendingRow 1 1], .ok 6, .ok 7]] = some polls ∧
      state.outbox.rows = [pendingRow 1 0, pendingRow 2 0] ∧
      polls.attempts = [(1, false), (2, true), (1, true)] ∧
      ¬KeepsOrder state.outbox polls := by
  refine ⟨_, _, rfl, rfl, rfl, rfl, fun keeps => ?_⟩
  have first := keeps (pendingRow 1 0) List.mem_cons_self (pendingRow 2 0)
    (List.mem_cons_of_mem _ List.mem_cons_self) ⟨rfl, rfl, by decide⟩
    (List.mem_cons_of_mem _ (List.mem_cons_of_mem _ List.mem_cons_self))
    (List.mem_cons_of_mem _ List.mem_cons_self)
  exact absurd first (by decide)

end FProto.Outbox

import FProto.Outbox.KeyOrder

/-!
Owns the time a relay needs to empty its outbox when nothing is inserted, the
database answers and the dead-letter topic accepts what it is sent.

Rows that fail keep their place at the front of every batch. What a poll does to
them is counted in attempts: a row has as many left as it may fail before it is
given up. A poll with a full batch uses up as many attempts as the batch is
large; a poll with a smaller one tries every pending row, so the row with the
most attempts left has one less.
-/

namespace FProto.Outbox

open FProto.Foundation
open FProto.Kafka
open FProto.Outbox.Relay (maxRetries)

/-! ### The system -/

/-- How a `Send` to the topic of a row ends. A record may be appended although
the call fails. -/
inductive SendResult where
  | accepted (now : Nat)
  | refused (error : String)
  | unconfirmed (error : String)

/-- What the environment decides about a poll whose database calls and dead-letter
sends succeed: the order of rows of the same age, and how the `Send` of every
row ends. -/
structure Conditions where
  order : Table → List Entry
  isOrder : ∀ table, IsPendingOrder table (order table)
  sends : Nat → SendResult

/-- The decisions after a failed `Send`: the retry is counted, and a row that failed
for the last time goes to the dead-letter topic and is marked. -/
def giveUpChoices (entry : Entry) : List Choice :=
  if maxRetries ≤ entry.retryCount + 1 then [.ok 0, .ok 0, .ok 0] else [.ok 0]

/-- The decisions about the commands for one entry. -/
def Conditions.choicesFor (conditions : Conditions) (entry : Entry) : List Choice :=
  match conditions.sends entry.id with
  | .accepted now => [.ok now, .ok now]
  | .refused error => .fail error :: giveUpChoices entry
  | .unconfirmed error => .failAppended error :: giveUpChoices entry

/-- The decisions about the commands of a poll. -/
def Conditions.choices (conditions : Conditions) (batch : Nat) (table : Table) : List Choice :=
  .fetched (conditions.order table) ::
    ((conditions.order table).take batch).flatMap conditions.choicesFor

/-- One whole poll. -/
def Relay.pollUnder (batch : Nat) (state : State) (conditions : Conditions) : Option State :=
  match (Relay.poll batch).run exec (conditions.choices batch state.outbox) state with
  | none => none
  | some (_, after) => some after

/-! ### Attempts that are left -/

/-- How often a pending row may fail before it is given up. -/
def Entry.attemptsLeft (row : Entry) : Nat :=
  if row.status = .pending then max 1 (maxRetries - row.retryCount) else 0

/-- The attempts that some rows have left together. -/
def totalLeft (rows : List Entry) : Nat :=
  rows.foldr (fun row total => row.attemptsLeft + total) 0

def Table.attemptsLeft (table : Table) : Nat :=
  totalLeft table.rows

/-- The most attempts that a row has left. -/
def Table.mostLeft (table : Table) : Nat :=
  (table.rows.map Entry.attemptsLeft).foldr max 0

/-- A bound for the polls until no row is pending. -/
def Table.pollsLeft (table : Table) (batch : Nat) : Nat :=
  table.attemptsLeft / batch + table.mostLeft

theorem Entry.attemptsLeft_pos {row : Entry} : 0 < row.attemptsLeft ↔ row.status = .pending := by
  unfold Entry.attemptsLeft
  split
  · next pending => exact iff_of_true (by omega) pending
  · next settled => exact iff_of_false (Nat.lt_irrefl 0) settled

theorem Entry.attemptsLeft_le (row : Entry) : row.attemptsLeft ≤ maxRetries := by
  unfold Entry.attemptsLeft maxRetries
  split <;> omega

theorem foldr_max_le_iff {values : List Nat} {bound : Nat} :
    values.foldr max 0 ≤ bound ↔ ∀ value ∈ values, value ≤ bound := by
  induction values with
  | nil => simp
  | cons value values inductionHypothesis =>
      rw [List.foldr_cons, Nat.max_le, inductionHypothesis, List.forall_mem_cons]

theorem Table.mostLeft_le_iff {table : Table} {bound : Nat} :
    table.mostLeft ≤ bound ↔ ∀ row ∈ table.rows, row.attemptsLeft ≤ bound := by
  unfold Table.mostLeft
  rw [foldr_max_le_iff, List.forall_mem_map]

theorem Table.le_mostLeft {table : Table} {row : Entry} (member : row ∈ table.rows) :
    row.attemptsLeft ≤ table.mostLeft :=
  Table.mostLeft_le_iff.mp (Nat.le_refl _) row member

theorem totalLeft_cons (row : Entry) (rows : List Entry) :
    totalLeft (row :: rows) = row.attemptsLeft + totalLeft rows := rfl

/-- When every row pays its price, the total pays the price of any one of them. -/
theorem totalLeft_map {rewrite : Entry → Entry} {price : Entry → Nat} {rows : List Entry}
    (each : ∀ row ∈ rows, (rewrite row).attemptsLeft + price row ≤ row.attemptsLeft) :
    totalLeft (rows.map rewrite) ≤ totalLeft rows ∧
      ∀ row ∈ rows, totalLeft (rows.map rewrite) + price row ≤ totalLeft rows := by
  induction rows with
  | nil => exact ⟨Nat.le_refl _, fun _ member => absurd member List.not_mem_nil⟩
  | cons head rows inductionHypothesis =>
      obtain ⟨first, others⟩ := List.forall_mem_cons.mp each
      obtain ⟨less, paid⟩ := inductionHypothesis others
      rw [List.map_cons, totalLeft_cons, totalLeft_cons]
      refine ⟨by omega, fun row member => ?_⟩
      rcases List.mem_cons.mp member with rfl | later
      · omega
      · have paidLater := paid row later
        omega

/-- Pending rows share all attempts, at most `maxRetries` each. -/
theorem Table.attemptsLeft_le (table : Table) :
    table.attemptsLeft ≤ maxRetries * (pendingRows table).length := by
  unfold Table.attemptsLeft pendingRows
  induction table.rows with
  | nil => simp [totalLeft]
  | cons row rows inductionHypothesis =>
      have each := row.attemptsLeft_le
      rw [totalLeft_cons, List.filter_cons]
      split
      · rw [List.length_cons, Nat.mul_succ]
        omega
      · next settled =>
        have none : row.attemptsLeft = 0 := by
          apply Nat.eq_zero_of_not_pos
          intro left
          exact settled (decide_eq_true (Entry.attemptsLeft_pos.mp left))
        omega

theorem pendingRows_eq_nil {table : Table} (none : table.mostLeft = 0) :
    pendingRows table = [] := by
  apply List.filter_eq_nil_iff.mpr
  intro row member pending
  have left := Entry.attemptsLeft_pos.mpr (of_decide_eq_true pending)
  have most := Table.le_mostLeft member
  omega

theorem Table.attemptsLeft_eq_zero {table : Table} (none : table.mostLeft = 0) :
    table.attemptsLeft = 0 := by
  have bound := table.attemptsLeft_le
  rw [pendingRows_eq_nil none] at bound
  exact Nat.le_zero.mp bound

/-! ### What attempts use up -/

/-- The rows were tried: every attempt used up one of those that the row had left. -/
structure Table.Works (before after : Table) (tried : List Nat) : Prop where
  rows : ∀ kept ∈ after.rows, ∃ row ∈ before.rows, row.id = kept.id ∧
    kept.attemptsLeft + tried.count row.id ≤ row.attemptsLeft
  total : after.attemptsLeft + tried.length ≤ before.attemptsLeft

theorem Table.Works.refl (table : Table) : Table.Works table table [] :=
  ⟨fun kept member => ⟨kept, member, rfl, Nat.le_refl _⟩, Nat.le_refl _⟩

theorem Table.Works.trans {first second third : Table} {early late : List Nat}
    (former : Table.Works first second early) (latter : Table.Works second third late) :
    Table.Works first third (early ++ late) := by
  refine ⟨fun kept member => ?_, ?_⟩
  · obtain ⟨middle, isMiddle, middleId, middleLeft⟩ := latter.rows kept member
    obtain ⟨row, isRow, rowId, rowLeft⟩ := former.rows middle isMiddle
    refine ⟨row, isRow, rowId.trans middleId, ?_⟩
    rw [← rowId] at middleLeft
    rw [List.count_append]
    omega
  · have formerTotal := former.total
    have latterTotal := latter.total
    rw [List.length_append]
    omega

/-- A statement on one row. -/
theorem Table.works_update {table : Table} {row : Entry} {rewrite : Entry → Entry} (times : Nat)
    (member : row ∈ table.rows) (keepsId : ∀ row, (rewrite row).id = row.id)
    (keepsKey : ∀ row, (rewrite row).messageId = row.messageId)
    (used : (rewrite row).attemptsLeft + times ≤ row.attemptsLeft) :
    Table.Works table (table.update (fun other => other.id == row.id) rewrite keepsId keepsKey)
      (List.replicate times row.id) := by
  have only : ∀ other ∈ table.rows, other.id = row.id → other = row :=
    fun other isRow same => SerialTable.eq_of_id_eq isRow member same
  refine ⟨fun kept isKept => ?_, ?_⟩
  · rcases mem_update_row.mp isKept with ⟨original, isRow, same, rfl⟩ | ⟨old, different⟩
    · obtain rfl := only original isRow same
      refine ⟨original, member, (keepsId original).symm, ?_⟩
      rwa [List.count_replicate_self]
    · refine ⟨kept, old, rfl, ?_⟩
      rw [List.count_replicate, if_neg (by simpa using Ne.symm different)]
      exact Nat.le_refl _
  · -- The price of the attempts is paid by the one row.
    have each : ∀ other ∈ table.rows,
        (if other.id == row.id then rewrite other else other).attemptsLeft +
          (if other.id = row.id then times else 0) ≤ other.attemptsLeft := by
      intro other isRow
      by_cases same : other.id = row.id
      · obtain rfl := only other isRow same
        simpa using used
      · simp [same]
    have paid := (totalLeft_map each).2 row member
    rw [if_pos rfl] at paid
    rw [List.length_replicate]
    exact paid

theorem Entry.attemptsLeft_of_ne {row : Entry} (settled : row.status ≠ .pending) :
    row.attemptsLeft = 0 :=
  if_neg settled

/-- A pending row is settled. -/
theorem works_settle {table : Table} {row : Entry} {rewrite : Entry → Entry}
    (member : row ∈ table.rows) (pending : row.status = .pending)
    (keepsId : ∀ row, (rewrite row).id = row.id)
    (keepsKey : ∀ row, (rewrite row).messageId = row.messageId)
    (settled : (rewrite row).status ≠ .pending) :
    Table.Works table (table.update (fun other => other.id == row.id) rewrite keepsId keepsKey)
      [row.id] := by
  have used : (rewrite row).attemptsLeft + 1 ≤ row.attemptsLeft := by
    rw [Entry.attemptsLeft_of_ne settled]
    exact Entry.attemptsLeft_pos.mpr pending
  exact Table.works_update 1 member keepsId keepsKey used

theorem works_publish {table : Table} {row : Entry} (member : row ∈ table.rows)
    (pending : row.status = .pending) (now : Nat) :
    Table.Works table (markPublished table now row.id) [row.id] := by
  apply works_settle member pending
  intro impossible
  cases impossible

/-- A pending row failed, and not for the last time. -/
theorem works_retry {table : Table} {row : Entry} (member : row ∈ table.rows)
    (pending : row.status = .pending) (notLast : ¬maxRetries ≤ row.retryCount + 1) :
    Table.Works table (incrementRetry table row.id) [row.id] := by
  apply Table.works_update 1 member
  unfold Entry.attemptsLeft maxRetries
  unfold maxRetries at notLast
  simp only [pending, if_true]
  omega

/-- A pending row failed for the last time and is marked. -/
theorem works_giveUp {table : Table} {row : Entry} (member : row ∈ table.rows)
    (pending : row.status = .pending) :
    Table.Works table (markFailed (incrementRetry table row.id) row.id) [row.id] := by
  have counted : Table.Works table (incrementRetry table row.id) [] := by
    apply Table.works_update 0 member
    unfold Entry.attemptsLeft maxRetries
    simp only [pending, if_true]
    omega
  have retried : { row with retryCount := row.retryCount + 1 } ∈
      (incrementRetry table row.id).rows :=
    mem_incrementRetry.mpr (.inl ⟨row, member, rfl, rfl⟩)
  exact counted.trans (works_settle retried pending _ _ (fun impossible => by cases impossible))

/-! ### One poll -/

section Poll

variable {state : State} {entry : Entry} {entries : List Entry}

/-- The rest of an iteration after a failed `Send`. -/
theorem giveUp_run (member : entry ∈ state.outbox.rows) (pending : entry.status = .pending)
    (rest : Code Unit) :
    ∃ after, Table.Works state.outbox after.outbox [entry.id] ∧
      Table.Spares state.outbox after.outbox entry.id ∧
      ∀ choices,
        (do
          let _ ← Store.incrementRetry entry.id
          if maxRetries ≤ entry.retryCount + 1 then
            Relay.sendToDeadLetter entry
          rest : Code Unit).run exec (giveUpChoices entry ++ choices) state =
          rest.run exec choices after := by
  unfold giveUpChoices
  by_cases last : maxRetries ≤ entry.retryCount + 1
  · refine ⟨{ state with
        outbox := markFailed (incrementRetry state.outbox entry.id) entry.id
        log := appendRecord state.log topicDeadLetter ⟨some entry.topic, entry.payload⟩ },
      works_giveUp member pending, spares_incrementRetry.trans spares_markFailed, fun choices => ?_⟩
    simp only [last, if_true]
    rfl
  · refine ⟨{ state with outbox := incrementRetry state.outbox entry.id },
      works_retry member pending last, spares_incrementRetry, fun choices => ?_⟩
    simp only [last, if_false]
    rfl

/-- An iteration of the loop tries one row. -/
theorem publishEntries_cons_run (conditions : Conditions) (member : entry ∈ state.outbox.rows)
    (pending : entry.status = .pending) (entries : List Entry) :
    ∃ after, Table.Works state.outbox after.outbox [entry.id] ∧
      Table.Spares state.outbox after.outbox entry.id ∧
      ∀ choices, (Relay.publishEntries (entry :: entries)).run exec
          (conditions.choicesFor entry ++ choices) state =
        (Relay.publishEntries entries).run exec choices after := by
  unfold Conditions.choicesFor
  cases conditions.sends entry.id with
  | accepted now =>
      refine ⟨{ state with
          outbox := markPublished state.outbox now entry.id
          log := appendRecord state.log entry.topic ⟨some entry.partitionKey, entry.payload⟩ },
        works_publish member pending now, spares_markPublished, fun choices => rfl⟩
  | refused error => exact giveUp_run member pending (Relay.publishEntries entries)
  | unconfirmed error =>
      let appended : State := { state with
        log := appendRecord state.log entry.topic ⟨some entry.partitionKey, entry.payload⟩ }
      have stillMember : entry ∈ appended.outbox.rows := member
      exact giveUp_run stillMember pending (Relay.publishEntries entries)

/-- The loop tries every row once. -/
theorem publishEntries_run (conditions : Conditions)
    (waiting : Table.Waiting state.outbox entries) (distinct : (entries.map Entry.id).Nodup) :
    ∃ after, (Relay.publishEntries entries).run exec (entries.flatMap conditions.choicesFor) state =
        some ((), after) ∧
      Table.Works state.outbox after.outbox (entries.map Entry.id) := by
  induction entries generalizing state with
  | nil => exact ⟨state, rfl, Table.Works.refl state.outbox⟩
  | cons entry entries inductionHypothesis =>
      obtain ⟨⟨member, pending⟩, others⟩ := List.forall_mem_cons.mp waiting
      obtain ⟨absent, distinct⟩ := List.nodup_cons.mp distinct
      obtain ⟨middle, works, spares, ran⟩ :=
        publishEntries_cons_run conditions member pending entries
      have spared := Table.Waiting.spared others absent spares
      obtain ⟨after, rest, later⟩ := inductionHypothesis spared distinct
      refine ⟨after, ?_, works.trans later⟩
      rw [List.flatMap_cons, ran, rest]

/-- A poll tries as many pending rows as the batch allows. -/
theorem pollUnder_works (batch : Nat) (state : State) (conditions : Conditions) :
    ∃ after, Relay.pollUnder batch state conditions = some after ∧
      Table.Works state.outbox after.outbox
        (((conditions.order state.outbox).take batch).map Entry.id) := by
  have isOrder := conditions.isOrder state.outbox
  obtain ⟨after, ran, works⟩ :=
    publishEntries_run conditions (isOrder.waiting_take batch) (isOrder.nodup_take batch)
  have fetched : exec (.fetchPending batch) (.fetched (conditions.order state.outbox)) state =
      some (.ok ((conditions.order state.outbox).take batch), state) := if_pos isOrder
  refine ⟨after, ?_, works⟩
  unfold Relay.pollUnder Conditions.choices Relay.poll Store.fetchPending
  rw [Program.issue_bind, Program.run_call fetched]
  simp only [ran]

end Poll

/-- **The step lemma.** A poll uses up a whole batch of attempts, or one of the most
that a row has left. -/
theorem pollUnder_pollsLeft {batch : Nat} (positive : 0 < batch) (state : State)
    (conditions : Conditions) :
    ∃ after, Relay.pollUnder batch state conditions = some after ∧
      after.outbox.pollsLeft batch ≤ state.outbox.pollsLeft batch - 1 := by
  obtain ⟨after, ran, works⟩ := pollUnder_works batch state conditions
  refine ⟨after, ran, ?_⟩
  have isOrder := conditions.isOrder state.outbox
  generalize conditions.order state.outbox = order at works isOrder
  have total := works.total
  rw [List.length_map, List.length_take] at total
  unfold Table.pollsLeft
  by_cases full : batch ≤ order.length
  · rw [Nat.min_eq_left full] at total
    have most : after.outbox.mostLeft ≤ state.outbox.mostLeft := by
      apply Table.mostLeft_le_iff.mpr
      intro kept isKept
      obtain ⟨row, isRow, -, left⟩ := works.rows kept isKept
      have bound := Table.le_mostLeft isRow
      omega
    have fewer := Nat.div_le_div_right (c := batch) total
    rw [Nat.add_div_right _ positive] at fewer
    omega
  · -- Every pending row is tried.
    have most : after.outbox.mostLeft ≤ state.outbox.mostLeft - 1 := by
      apply Table.mostLeft_le_iff.mpr
      intro kept isKept
      obtain ⟨row, isRow, -, left⟩ := works.rows kept isKept
      have bound := Table.le_mostLeft isRow
      by_cases pending : row.status = .pending
      · have tried : 0 < ((order.take batch).map Entry.id).count row.id := by
          rw [List.take_of_length_le (by omega), List.count_pos_iff]
          exact List.mem_map_of_mem (isOrder.mem_iff.mpr ⟨isRow, pending⟩)
        omega
      · rw [Entry.attemptsLeft_of_ne pending] at left
        omega
    have fewer := Nat.div_le_div_right (c := batch) (Nat.le_of_add_right_le total)
    by_cases none : state.outbox.mostLeft = 0
    · rw [Table.attemptsLeft_eq_zero none, Nat.zero_div] at fewer
      omega
    · omega

/-! ### Every run -/

/-- **The relay drains the outbox.** From any outbox, with any batch size, any order of
rows of the same age and any failures of sends to the topics of the rows: when
nothing is inserted and all database calls and dead-letter sends succeed, no row
is pending after `maxRetries * n / batch + maxRetries` polls or more, where `n` is
the number of pending rows at the beginning. -/
theorem relay_drains (state : State) (batch : Nat) (positive : 0 < batch)
    (conditions : List Conditions)
    (enough : maxRetries * (pendingRows state.outbox).length / batch + maxRetries ≤
      conditions.length) :
    ∃ after, run (Relay.pollUnder batch) state conditions = some after ∧
      pendingRows after.outbox = [] := by
  have bound : state.outbox.pollsLeft batch ≤ conditions.length := by
    have total := Nat.div_le_div_right (c := batch) state.outbox.attemptsLeft_le
    have most : state.outbox.mostLeft ≤ maxRetries :=
      Table.mostLeft_le_iff.mpr fun row _ => row.attemptsLeft_le
    unfold Table.pollsLeft
    omega
  obtain ⟨after, ran, drained⟩ := run_drains (fun state : State => state.outbox.pollsLeft batch)
    (pollUnder_pollsLeft positive) bound
  exact ⟨after, ran, pendingRows_eq_nil (Nat.eq_zero_of_add_eq_zero_left drained)⟩

/-- The pending rows by age. -/
def byAge (table : Table) : List Entry :=
  (pendingRows table).mergeSort fun left right => left.createdAt ≤ right.createdAt

theorem isPendingOrder_byAge (table : Table) : IsPendingOrder table (byAge table) := by
  refine ⟨List.mergeSort_perm _ _, ?_⟩
  have sorted := List.pairwise_mergeSort
    (fun first second third (early : decide (first.createdAt ≤ second.createdAt) = true) late => by
      simp only [decide_eq_true_eq] at early late ⊢
      omega)
    (fun left right => by
      simp only [Bool.or_eq_true, decide_eq_true_eq]
      omega)
    (pendingRows table)
  exact sorted.imp fun ordered => of_decide_eq_true ordered

/-- Kafka refuses the first row and accepts the others. -/
def refuseFirst : Conditions where
  order := byAge
  isOrder := isPendingOrder_byAge
  sends id := if id = 1 then .refused "kafka: broker down" else .accepted 3

theorem relay_drains_two_rows :
    ∃ state, insertTwo.run exec [.ok 1, .ok 2] State.initial = some (.ok (), state) ∧
      (pendingRows state.outbox).length = 2 ∧
      ∃ after, run (Relay.pollUnder 1) state (List.replicate 15 refuseFirst) = some after ∧
        pendingRows after.outbox = [] :=
  ⟨_, rfl, rfl, relay_drains _ 1 (by decide) _ (by decide)⟩

end FProto.Outbox

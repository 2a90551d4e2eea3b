import Mathlib.Data.List.Basic

/-!
Owns promises, and mailboxes in which messages and reads wait for each other: a
message goes to the read that has waited longest, or is queued; a read takes the
first queued message, or waits. Reads are numbered in the order in which they are
made.

**Main result.** Whatever the order of messages and reads, a mailbox is determined by
the messages and the number of reads: each read has the message of its number, and
only what has no partner waits (`Holds.deliver`, `Holds.read`).
-/

namespace FProto.Foundation

/-- The messages among events, with one event more. -/
theorem filterMap_concat {Event Message : Type} (message? : Event → Option Message)
    (events : List Event) (event : Event) :
    (events ++ [event]).filterMap message? =
      events.filterMap message? ++ (message? event).toList := by
  rw [List.filterMap_append, List.filterMap_cons, List.filterMap_nil]
  cases message? event <;> rfl

inductive Promise (Value : Type) where
  | pending
  | fulfilled (value : Value)
  | rejected (error : String)
deriving DecidableEq

namespace Promise

variable {Value : Type}

/-- Fulfil a promise. One that is settled stays as it is. -/
def fulfill (value : Value) : Promise Value → Promise Value
  | .pending => .fulfilled value
  | settled => settled

/-- Reject a promise, which keeps one that is settled too. -/
def reject (error : String) : Promise Value → Promise Value
  | .pending => .rejected error
  | settled => settled

def value? : Promise Value → Option Value
  | .fulfilled value => some value
  | _ => none

/-- Fulfil one of many promises. -/
def resolve (promises : List (Promise Value)) (index : Nat) (value : Value) :
    List (Promise Value) :=
  promises.modify index (fulfill value)

/-- The values of the fulfilled promises, in order. -/
def values (promises : List (Promise Value)) : List Value :=
  promises.filterMap value?

/-- A promise that is settled stays so. -/
theorem getElem?_resolve_of_settled {promises : List (Promise Value)} {index : Nat}
    {promise : Promise Value} (there : promises[index]? = some promise)
    (settled : promise ≠ .pending) (other : Nat) (value : Value) :
    (resolve promises other value)[index]? = some promise := by
  rw [resolve, List.getElem?_modify, there]
  cases promise with
  | pending => exact absurd rfl settled
  | fulfilled _ | rejected _ => simp [fulfill]

/-- What is pending after a promise is resolved was pending, and is another one. -/
theorem pending_of_resolve {promises : List (Promise Value)} {index other : Nat} {value : Value}
    (pending : (resolve promises other value)[index]? = some .pending) :
    promises[index]? = some .pending ∧ index ≠ other := by
  rw [resolve, List.getElem?_modify] at pending
  cases there : promises[index]? with
  | none => simp [there] at pending
  | some promise =>
      by_cases same : other = index
      · cases promise <;> simp [there, same, fulfill] at pending
      · simp only [there, same, if_false, Option.map_eq_map, Option.map_some] at pending
        exact ⟨pending, Ne.symm same⟩

/-- What is pending after a promise is added was pending, or is the one added. -/
theorem pending_of_concat {promises : List (Promise Value)} {last : Promise Value} {index : Nat}
    (pending : (promises ++ [last])[index]? = some .pending) :
    promises[index]? = some .pending ∨ index = promises.length ∧ last = .pending := by
  rw [List.getElem?_append] at pending
  split at pending
  · exact .inl pending
  · next outside =>
    obtain ⟨isLast, same⟩ := List.getElem?_eq_some_iff.mp pending
    rw [List.length_singleton] at isLast
    exact .inr ⟨by omega, by simpa using same⟩

/-- Fulfil several promises with one value. -/
def resolveAll (promises : List (Promise Value)) (indices : List Nat) (value : Value) :
    List (Promise Value) :=
  indices.foldl (fun promises index => resolve promises index value) promises

theorem getElem?_resolveAll_of_settled {promises : List (Promise Value)} {index : Nat}
    {promise : Promise Value} (there : promises[index]? = some promise)
    (settled : promise ≠ .pending) (indices : List Nat) (value : Value) :
    (resolveAll promises indices value)[index]? = some promise := by
  induction indices generalizing promises with
  | nil => exact there
  | cons other indices inductionHypothesis =>
      exact inductionHypothesis (getElem?_resolve_of_settled there settled other value)

theorem pending_of_resolveAll {promises : List (Promise Value)} {index : Nat}
    {indices : List Nat} {value : Value}
    (pending : (resolveAll promises indices value)[index]? = some .pending) :
    promises[index]? = some .pending ∧ index ∉ indices := by
  induction indices generalizing promises with
  | nil => exact ⟨pending, List.not_mem_nil⟩
  | cons other indices inductionHypothesis =>
      obtain ⟨early, outside⟩ := inductionHypothesis pending
      obtain ⟨before, different⟩ := pending_of_resolve early
      exact ⟨before, List.not_mem_cons_of_ne_of_not_mem different outside⟩

end Promise

structure Mailbox (Message : Type) where
  queue : List Message
  waiters : List Nat
  promises : List (Promise Message)
deriving DecidableEq

namespace Mailbox

variable {Message : Type}

def empty : Mailbox Message := ⟨[], [], []⟩

def deliver (box : Mailbox Message) (message : Message) : Mailbox Message :=
  match box.waiters with
  | [] => { box with queue := box.queue ++ [message] }
  | waiter :: rest =>
      { box with waiters := rest, promises := Promise.resolve box.promises waiter message }

def read (box : Mailbox Message) : Mailbox Message :=
  match box.queue with
  | [] =>
      { box with
        waiters := box.waiters ++ [box.promises.length]
        promises := box.promises ++ [.pending] }
  | message :: rest =>
      { box with queue := rest, promises := box.promises ++ [.fulfilled message] }

/-! ### What the reads have got -/

/-- The promise of a read: the message of the same number, once it is there. -/
def answer (messages : List Message) (index : Nat) : Promise Message :=
  match messages[index]? with
  | some message => .fulfilled message
  | none => .pending

def answers (messages : List Message) (count : Nat) : List (Promise Message) :=
  (List.range count).map (answer messages)

section Answers

variable (messages : List Message) (message : Message) {count index : Nat}

@[simp] theorem length_answers (count : Nat) : (answers messages count).length = count := by
  simp [answers]

theorem answers_succ (count : Nat) :
    answers messages (count + 1) = answers messages count ++ [answer messages count] := by
  simp [answers, List.range_succ]

theorem getElem?_answers (inside : index < count) :
    (answers messages count)[index]? = some (answer messages index) := by
  simp [answers, inside]

theorem answer_of_le (missing : messages.length ≤ index) : answer messages index = .pending := by
  rw [answer, List.getElem?_eq_none missing]

theorem answer_append_of_lt (there : index < messages.length) :
    answer (messages ++ [message]) index = answer messages index := by
  rw [answer, answer, List.getElem?_append_left there]

theorem answer_append_length :
    answer (messages ++ [message]) messages.length = .fulfilled message := by
  rw [answer, List.getElem?_concat_length]

theorem answer_append_of_ne (different : index ≠ messages.length) :
    answer (messages ++ [message]) index = answer messages index := by
  rcases Nat.lt_or_gt_of_ne different with there | missing
  · exact answer_append_of_lt messages message there
  · have stillMissing : (messages ++ [message]).length ≤ index := by
      rw [List.length_append]
      exact missing
    rw [answer_of_le _ (Nat.le_of_lt missing), answer_of_le _ stillMissing]

/-- A message that no read is waiting for changes no promise. -/
theorem answers_append_of_le (early : count ≤ messages.length) :
    answers (messages ++ [message]) count = answers messages count := by
  apply List.map_congr_left
  intro index member
  exact answer_append_of_lt messages message
    (Nat.lt_of_lt_of_le (List.mem_range.mp member) early)

/-- The next message fulfils the first promise that is pending. -/
theorem resolve_answers (count : Nat) :
    Promise.resolve (answers messages count) messages.length message =
      answers (messages ++ [message]) count := by
  apply List.ext_getElem?
  intro index
  rw [Promise.resolve, List.getElem?_modify]
  by_cases inside : index < count
  · rw [getElem?_answers messages inside, getElem?_answers _ inside]
    by_cases same : messages.length = index
    · subst same
      rw [answer_of_le messages (Nat.le_refl _), answer_append_length]
      simp [Promise.fulfill]
    · rw [answer_append_of_ne messages message (Ne.symm same)]
      simp [same]
  · have outside : ∀ messages : List Message, (answers messages count)[index]? = none := by
      intro messages
      rw [List.getElem?_eq_none]
      simpa using inside
    rw [outside, outside]
    simp

theorem values_answers (count : Nat) :
    Promise.values (answers messages count) = messages.take count := by
  induction count with
  | zero => rfl
  | succ count inductionHypothesis =>
      rw [answers_succ, Promise.values, List.filterMap_append]
      show Promise.values (answers messages count) ++ _ = _
      rw [inductionHypothesis, List.take_add_one, answer]
      cases messages[count]? <;> rfl

end Answers

/-! ### Histories -/

/-- The mailbox after some messages and a number of reads, in any order. -/
structure Holds (box : Mailbox Message) (messages : List Message) (count : Nat) : Prop where
  queue : box.queue = messages.drop count
  waiters : box.waiters = (List.range count).drop messages.length
  promises : box.promises = answers messages count

theorem holds_empty : Holds (empty : Mailbox Message) [] 0 := ⟨rfl, rfl, rfl⟩

section Steps

variable {box : Mailbox Message} {messages : List Message} {count : Nat}

/-- No read waits when there are as many messages. -/
theorem Holds.waiters_eq_nil (holds : box.Holds messages count) (early : count ≤ messages.length) :
    box.waiters = [] := by
  rw [holds.waiters, List.drop_eq_nil_of_le]
  rw [List.length_range]
  exact early

/-- The read that waits longest is the one that the next message belongs to. -/
theorem Holds.waiters_eq_cons (holds : box.Holds messages count)
    (waiting : messages.length < count) :
    box.waiters = messages.length :: (List.range count).drop (messages.length + 1) := by
  rw [holds.waiters, List.drop_eq_getElem_cons (by rwa [List.length_range]), List.getElem_range]

theorem Holds.queue_eq_nil (holds : box.Holds messages count) (missing : messages.length ≤ count) :
    box.queue = [] := by
  rw [holds.queue, List.drop_eq_nil_of_le missing]

theorem Holds.deliver (holds : box.Holds messages count) (message : Message) :
    (box.deliver message).Holds (messages ++ [message]) count := by
  have more : (messages ++ [message]).length = messages.length + 1 := List.length_append
  by_cases waiting : messages.length < count
  · rw [Mailbox.deliver, holds.waiters_eq_cons waiting]
    refine ⟨?_, ?_, ?_⟩
    · show box.queue = _
      rw [holds.queue_eq_nil (Nat.le_of_lt waiting), List.drop_eq_nil_of_le]
      rw [more]
      exact waiting
    · show (List.range count).drop (messages.length + 1) = _
      rw [more]
    · show Promise.resolve box.promises _ _ = _
      rw [holds.promises, resolve_answers]
  · have early : count ≤ messages.length := Nat.le_of_not_lt waiting
    rw [Mailbox.deliver, holds.waiters_eq_nil early]
    refine ⟨?_, ?_, ?_⟩
    · show box.queue ++ [message] = _
      rw [holds.queue, List.drop_append_of_le_length early]
    · show [] = _
      rw [List.drop_eq_nil_of_le]
      rw [List.length_range, more]
      exact Nat.le_succ_of_le early
    · show box.promises = _
      rw [holds.promises, answers_append_of_le messages message early]

theorem Holds.read (holds : box.Holds messages count) :
    box.read.Holds messages (count + 1) := by
  by_cases there : count < messages.length
  · have first : box.queue = messages.get ⟨count, there⟩ :: messages.drop (count + 1) := by
      rw [holds.queue, List.drop_eq_getElem_cons there]
      rfl
    rw [Mailbox.read, first]
    refine ⟨rfl, ?_, ?_⟩
    · show box.waiters = _
      rw [holds.waiters_eq_nil (Nat.le_of_lt there), List.drop_eq_nil_of_le]
      rw [List.length_range]
      exact there
    · show box.promises ++ [_] = _
      have answered : answer messages count = .fulfilled (messages.get ⟨count, there⟩) := by
        rw [answer, List.getElem?_eq_getElem there]
        rfl
      rw [holds.promises, answers_succ, answered]
  · have missing : messages.length ≤ count := Nat.le_of_not_lt there
    rw [Mailbox.read, holds.queue_eq_nil missing]
    refine ⟨?_, ?_, ?_⟩
    · show [] = _
      rw [List.drop_eq_nil_of_le (Nat.le_succ_of_le missing)]
    · show box.waiters ++ [box.promises.length] = _
      rw [holds.waiters, holds.promises, length_answers, List.range_succ,
        List.drop_append_of_le_length (by rwa [List.length_range])]
    · show box.promises ++ [.pending] = _
      rw [holds.promises, answers_succ, answer_of_le messages missing]

/-- Messages and reads never both wait. -/
theorem Holds.exclusive (holds : box.Holds messages count) : box.queue = [] ∨ box.waiters = [] := by
  rcases Nat.le_total messages.length count with missing | early
  · exact .inl (holds.queue_eq_nil missing)
  · exact .inr (holds.waiters_eq_nil early)

/-- What was given to reads and what is queued are all messages. -/
theorem Holds.values_append_queue (holds : box.Holds messages count) :
    Promise.values box.promises ++ box.queue = messages := by
  rw [holds.promises, values_answers, holds.queue, List.take_append_drop]

end Steps

end Mailbox

end FProto.Foundation

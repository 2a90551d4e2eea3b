import FProto.Foundation.Simulation
import Mathlib.Logic.Function.Basic

/-!
Owns a shared map of keys with fields, in which a whole key lapses: the
commands that read and change it, what the environment makes of a command, and
the encoding of such a map in another one.

The rule is `Encoding.simulation`: programs that encode the keys, fields and
values of one map do on another map what the plain programs do, in every
schedule.
-/

namespace FProto.Foundation

/-! ### The fields of one key -/

/-- The fields of one key and the last moment at which it is there. A key without
fields does not exist. -/
@[ext] structure Shelf (Field Value : Type) where
  entries : List (Field × Value)
  deadline : Option Nat
  absent : entries = [] → deadline = none

namespace Shelf

variable {Field Value : Type}

def empty : Shelf Field Value := ⟨[], none, fun _ => rfl⟩

/-- A key is gone with its last field. -/
def make (entries : List (Field × Value)) (deadline : Option Nat) : Shelf Field Value where
  entries := entries
  deadline := if entries.isEmpty then none else deadline
  absent noEntry := by rw [noEntry]; rfl

/-- Postpone the deadline of a key that exists. -/
def touch (shelf : Shelf Field Value) (deadline : Nat) : Shelf Field Value :=
  make shelf.entries (some deadline)

/-- What is left at a moment. -/
def lapse (shelf : Shelf Field Value) (clock : Nat) : Shelf Field Value :=
  if shelf.deadline.any fun deadline => decide (deadline < clock) then empty else shelf

variable [DecidableEq Field]

def find (shelf : Shelf Field Value) (field : Field) : Option Value :=
  (shelf.entries.find? fun entry => entry.1 = field).map Prod.snd

def without (shelf : Shelf Field Value) (field : Field) : List (Field × Value) :=
  shelf.entries.filter fun entry => entry.1 ≠ field

def put (shelf : Shelf Field Value) (field : Field) (value : Value) : Shelf Field Value where
  entries := (field, value) :: shelf.without field
  deadline := shelf.deadline
  absent noEntry := absurd noEntry (List.cons_ne_nil _ _)

def remove (shelf : Shelf Field Value) (field : Field) : Shelf Field Value :=
  make (shelf.without field) shelf.deadline

theorem find_eq_none_iff {shelf : Shelf Field Value} {field : Field} :
    shelf.find field = none ↔ ∀ entry ∈ shelf.entries, entry.1 ≠ field := by
  simp [find]

theorem find_put_of_ne {shelf : Shelf Field Value} {field other : Field}
    (different : other ≠ field) (value : Value) (missing : shelf.find other = none) :
    (shelf.put field value).find other = none := by
  rw [find_eq_none_iff] at missing ⊢
  intro entry member
  rcases List.mem_cons.mp member with rfl | old
  · exact different.symm
  · exact missing entry (List.mem_of_mem_filter old)

theorem find_remove_self (shelf : Shelf Field Value) (field : Field) :
    (shelf.remove field).find field = none := by
  rw [find_eq_none_iff]
  intro entry member
  simpa using List.of_mem_filter member

theorem find_remove {shelf : Shelf Field Value} {field other : Field}
    (missing : shelf.find other = none) : (shelf.remove field).find other = none := by
  rw [find_eq_none_iff] at missing ⊢
  exact fun entry member => missing entry (List.mem_of_mem_filter member)

theorem find_lapse {shelf : Shelf Field Value} {field : Field} (missing : shelf.find field = none)
    (clock : Nat) : (shelf.lapse clock).find field = none := by
  unfold lapse
  split
  · rfl
  · exact missing

end Shelf

/-! ### The map and its commands -/

/-- Keys with their fields at the current moment. -/
@[ext] structure ExpiringMap (Key Field Value : Type) where
  clock : Nat
  shelf : Key → Shelf Field Value

/-- The commands of a map. Time passes in between: `wait`. -/
inductive Access (Key Field Value : Type) where
  | find (key : Key) (field : Field)
  | put (key : Key) (field : Field) (value : Value)
  | touch (key : Key) (duration : Nat)
  | remove (key : Key) (field : Field)
  | clear (key : Key)
  | wait (duration : Nat)

/-- The time that passes. -/
def Access.duration {Key Field Value : Type} : Access Key Field Value → Nat
  | .wait duration => duration
  | _ => 0

/-- What the environment makes of a command: it is carried out, it fails without
effect, or it is carried out and the answer is lost. -/
inductive Fate (Error : Type) where
  | done
  | failed (error : Error)
  | lost (error : Error)

section Commands

variable {Key Field Value Error : Type}

/-- What a caller is told. -/
abbrev Access.Reply (Error : Type) : Access Key Field Value → Type
  | .find _ _ => Except Error (Option Value)
  | .put _ _ _ => Except Error Unit
  | .touch _ _ => Except Error Unit
  | .remove _ _ => Except Error Unit
  | .clear _ => Except Error Unit
  | .wait _ => Unit

/-- The answer to a command and its effect under the fate. -/
def Fate.settle {Content : Type} (map : ExpiringMap Key Field Value) (answer : Content)
    (changed : ExpiringMap Key Field Value) :
    Fate Error → Except Error Content × ExpiringMap Key Field Value
  | .done => (.ok answer, changed)
  | .failed error => (.error error, map)
  | .lost error => (.error error, changed)

namespace ExpiringMap

def empty : ExpiringMap Key Field Value := ⟨0, fun _ => .empty⟩

/-- Later, without the keys that have lapsed. -/
def wait (map : ExpiringMap Key Field Value) (duration : Nat) : ExpiringMap Key Field Value where
  clock := map.clock + duration
  shelf key := (map.shelf key).lapse (map.clock + duration)

/-- Change one key. -/
def change [DecidableEq Key] (map : ExpiringMap Key Field Value) (key : Key)
    (changed : Shelf Field Value → Shelf Field Value) : ExpiringMap Key Field Value :=
  { map with shelf := Function.update map.shelf key (changed (map.shelf key)) }

end ExpiringMap

variable [DecidableEq Key] [DecidableEq Field]

namespace Access

/-- Only time cannot fail. -/
def exec : (access : Access Key Field Value) → Fate Error → ExpiringMap Key Field Value →
    Option (Reply Error access × ExpiringMap Key Field Value)
  | .find key field, fate, map => some (fate.settle map ((map.shelf key).find field) map)
  | .put key field value, fate, map =>
      some (fate.settle map () (map.change key fun shelf => shelf.put field value))
  | .touch key duration, fate, map =>
      some (fate.settle map () (map.change key fun shelf => shelf.touch (map.clock + duration)))
  | .remove key field, fate, map =>
      some (fate.settle map () (map.change key fun shelf => shelf.remove field))
  | .clear key, fate, map => some (fate.settle map () (map.change key fun _ => .empty))
  | .wait duration, .done, map => some ((), map.wait duration)
  | .wait _, _, _ => none

/-- Calls whose code accesses one map. -/
def system {Result Call : Type}
    (code : Call → Program (Access Key Field Value) (Reply Error) Result) :
    System (Access Key Field Value) (Reply Error) Result (ExpiringMap Key Field Value)
      (Fate Error) Call where
  exec := exec
  code := code
  admits _ _ := true

end Access

/-! ### What a command does -/

omit [DecidableEq Key] [DecidableEq Field] in
/-- A command that is answered was carried out. -/
theorem Fate.settle_ok {Content : Type} {map changed after : ExpiringMap Key Field Value}
    {answer reply : Content} {fate : Fate Error}
    (settled : fate.settle map answer changed = (.ok reply, after)) :
    reply = answer ∧ after = changed := by
  cases fate with
  | done =>
      cases settled
      exact ⟨rfl, rfl⟩
  | failed error => cases settled
  | lost error => cases settled

/-- What an executed command can do to one key. -/
inductive ShelfStep (clock : Nat) (key : Key) (before : Shelf Field Value) :
    Access Key Field Value → Shelf Field Value → Prop
  | kept (access : Access Key Field Value) (inTime : ∀ duration, access ≠ .wait duration) :
      ShelfStep clock key before access before
  | put (field : Field) (value : Value) :
      ShelfStep clock key before (.put key field value) (before.put field value)
  | touched (duration : Nat) :
      ShelfStep clock key before (.touch key duration) (before.touch (clock + duration))
  | removed (field : Field) : ShelfStep clock key before (.remove key field) (before.remove field)
  | cleared : ShelfStep clock key before (.clear key) .empty
  | waited (duration : Nat) :
      ShelfStep clock key before (.wait duration) (before.lapse (clock + duration))

/-- A command whose fate is open keeps a key or changes it. -/
theorem ShelfStep.of_settle {map after : ExpiringMap Key Field Value} {target : Key}
    {access : Access Key Field Value} {changed : Shelf Field Value → Shelf Field Value}
    {fate : Fate Error} {reply : Except Error Unit}
    (inTime : ∀ duration, access ≠ .wait duration)
    (here : ShelfStep map.clock target (map.shelf target) access (changed (map.shelf target)))
    (settled : fate.settle map () (map.change target changed) = (reply, after)) :
    after.clock = map.clock ∧
      ∀ key, ShelfStep map.clock key (map.shelf key) access (after.shelf key) := by
  have changedStep : ∀ key, ShelfStep map.clock key (map.shelf key) access
      ((map.change target changed).shelf key) := by
    intro key
    simp only [ExpiringMap.change]
    by_cases same : key = target
    · subst same
      rw [Function.update_self]
      exact here
    · rw [Function.update_of_ne same]
      exact .kept access inTime
  cases fate with
  | done =>
      cases settled
      exact ⟨rfl, changedStep⟩
  | failed error =>
      cases settled
      exact ⟨rfl, fun key => .kept access inTime⟩
  | lost error =>
      cases settled
      exact ⟨rfl, changedStep⟩

/-- **One command**, on every key and on the clock. -/
theorem Access.exec_cases {access : Access Key Field Value} {fate : Fate Error}
    {map after : ExpiringMap Key Field Value} {reply : access.Reply Error}
    (executed : access.exec fate map = some (reply, after)) :
    after.clock = map.clock + access.duration ∧
      ∀ key, ShelfStep map.clock key (map.shelf key) access (after.shelf key) := by
  cases access with
  | find key field =>
      have settled := Option.some.inj executed
      have same : after = map := by cases fate <;> cases settled <;> rfl
      rw [same]
      exact ⟨rfl, fun key => .kept _ (by simp)⟩
  | put key field value =>
      exact ShelfStep.of_settle (by simp) (.put field value) (Option.some.inj executed)
  | touch key duration =>
      exact ShelfStep.of_settle (by simp) (.touched duration) (Option.some.inj executed)
  | remove key field =>
      exact ShelfStep.of_settle (by simp) (.removed field) (Option.some.inj executed)
  | clear key =>
      exact ShelfStep.of_settle (by simp) .cleared (Option.some.inj executed)
  | wait duration =>
      cases fate with
      | done =>
          cases executed
          exact ⟨rfl, fun key => .waited duration⟩
      | failed error => cases executed
      | lost error => cases executed

section Steps

omit [DecidableEq Key]

variable {clock : Nat} {key : Key} {before after : Shelf Field Value}
  {access : Access Key Field Value} (step : ShelfStep clock key before access after)

include step

/-- What is missing stays missing unless it is put. -/
theorem ShelfStep.find_eq_none {field : Field} (missing : before.find field = none)
    (notPut : ∀ value, access ≠ .put key field value) : after.find field = none := by
  cases step with
  | kept _ _ => exact missing
  | put other value =>
      refine Shelf.find_put_of_ne ?_ value missing
      rintro rfl
      exact notPut value rfl
  | touched duration => exact missing
  | removed other => exact Shelf.find_remove missing
  | cleared => rfl
  | waited duration => exact Shelf.find_lapse missing _

/-- A deadline was just set, or was there and is not over. -/
theorem ShelfStep.deadline_eq_some {deadline : Nat} (due : after.deadline = some deadline) :
    (∃ duration, access = .touch key duration ∧ deadline = clock + duration) ∨
      before.deadline = some deadline ∧
        (clock ≤ deadline → clock + access.duration ≤ deadline) := by
  cases step with
  | kept access inTime =>
      refine .inr ⟨due, fun inside => ?_⟩
      cases access with
      | wait duration => exact absurd rfl (inTime duration)
      | find | put | touch | remove | clear => exact inside
  | put field value => exact .inr ⟨due, id⟩
  | touched duration =>
      refine .inl ⟨duration, rfl, ?_⟩
      simp only [Shelf.touch, Shelf.make] at due
      split at due
      · cases due
      · exact (Option.some.inj due).symm
  | removed field =>
      simp only [Shelf.remove, Shelf.make] at due
      split at due
      · cases due
      · exact .inr ⟨due, id⟩
  | cleared => cases due
  | waited duration =>
      unfold Shelf.lapse at due
      split at due
      · cases due
      · next alive =>
        refine .inr ⟨due, fun _ => ?_⟩
        rw [due] at alive
        simpa [Access.duration] using alive

/-- Fields without a deadline were just put, or were there without one. -/
theorem ShelfStep.deadline_eq_none (timeless : after.deadline = none)
    (present : after.entries ≠ []) :
    (∃ field value, access = .put key field value) ∨
      before.deadline = none ∧ before.entries ≠ [] := by
  cases step with
  | kept _ _ => exact .inr ⟨timeless, present⟩
  | put field value => exact .inl ⟨field, value, rfl⟩
  | touched duration =>
      have some : ¬before.entries.isEmpty = true := fun none =>
        present (List.isEmpty_iff.mp none)
      simp only [Shelf.touch, Shelf.make, if_neg some] at timeless
      cases timeless
  | removed field =>
      have some : ¬(before.without field).isEmpty = true := fun none =>
        present (List.isEmpty_iff.mp none)
      simp only [Shelf.remove, Shelf.make, if_neg some] at timeless
      refine .inr ⟨timeless, fun absent => present ?_⟩
      simp only [Shelf.remove, Shelf.make, Shelf.without, absent, List.filter_nil]
  | cleared => exact absurd rfl present
  | waited duration =>
      unfold Shelf.lapse at timeless present
      split at timeless
      · next gone => exact absurd (by rw [if_pos gone]; rfl) present
      · next alive =>
        rw [if_neg alive] at present
        exact .inr ⟨timeless, present⟩

end Steps

end Commands

/-! ### Encodings -/

/-- Keys, fields and values of one map, written as those of another one. -/
structure Encoding (Key Field Value Name Label Data Error : Type) where
  key : Key → Name
  field : Field → Label
  value : Value → Data
  decode : Data → Except Error Value
  key_injective : Function.Injective key
  field_injective : Function.Injective field
  decode_value : ∀ content, decode (value content) = .ok content

namespace Encoding

variable {Key Field Value Name Label Data Error : Type}
  (encoding : Encoding Key Field Value Name Label Data Error)

def entry (plain : Field × Value) : Label × Data := (encoding.field plain.1, encoding.value plain.2)

def shelf (plain : Shelf Field Value) : Shelf Label Data where
  entries := plain.entries.map encoding.entry
  deadline := plain.deadline
  absent noEntry := plain.absent (List.map_eq_nil_iff.mp noEntry)

/-- The other map holds the encoded keys. What else it holds does not matter. -/
structure Represents (stored : ExpiringMap Name Label Data)
    (map : ExpiringMap Key Field Value) : Prop where
  clock : stored.clock = map.clock
  shelf : ∀ key, stored.shelf (encoding.key key) = encoding.shelf (map.shelf key)

/-- A command with its arguments encoded. -/
def access : Access Key Field Value → Access Name Label Data
  | .find key field => .find (encoding.key key) (encoding.field field)
  | .put key field value => .put (encoding.key key) (encoding.field field) (encoding.value value)
  | .touch key duration => .touch (encoding.key key) duration
  | .remove key field => .remove (encoding.key key) (encoding.field field)
  | .clear key => .clear (encoding.key key)
  | .wait duration => .wait duration

/-- The value that was found, decoded. -/
def decodeFound : Option Data → Except Error (Option Value)
  | none => .ok none
  | some data => (encoding.decode data).map some

/-- A reply with its value decoded. -/
def read : (plain : Access Key Field Value) → (encoding.access plain).Reply Error →
    plain.Reply Error
  | .find _ _, reply => reply.bind encoding.decodeFound
  | .put _ _ _, reply => reply
  | .touch _ _, reply => reply
  | .remove _ _, reply => reply
  | .clear _, reply => reply
  | .wait _, reply => reply

variable {encoding}

theorem shelf_make (entries : List (Field × Value)) (deadline : Option Nat) :
    encoding.shelf (.make entries deadline) = .make (entries.map encoding.entry) deadline := by
  ext1
  · rfl
  · cases entries <;> rfl

theorem shelf_touch (plain : Shelf Field Value) (deadline : Nat) :
    encoding.shelf (plain.touch deadline) = (encoding.shelf plain).touch deadline :=
  shelf_make _ _

theorem shelf_lapse (plain : Shelf Field Value) (clock : Nat) :
    encoding.shelf (plain.lapse clock) = (encoding.shelf plain).lapse clock := by
  unfold Shelf.lapse
  rw [apply_ite encoding.shelf]
  rfl

section Fields

variable [DecidableEq Field] [DecidableEq Label]

theorem without_shelf (plain : Shelf Field Value) (field : Field) :
    (encoding.shelf plain).without (encoding.field field) =
      (plain.without field).map encoding.entry := by
  have sameTest : ((fun stored : Label × Data => decide (stored.1 ≠ encoding.field field)) ∘
      encoding.entry) = fun plain => decide (plain.1 ≠ field) := by
    funext plain
    simp [entry, encoding.field_injective.eq_iff]
  rw [Shelf.without, shelf, List.filter_map, sameTest]
  rfl

theorem find_shelf (plain : Shelf Field Value) (field : Field) :
    (encoding.shelf plain).find (encoding.field field) =
      (plain.find field).map encoding.value := by
  have sameTest : ((fun stored : Label × Data => decide (stored.1 = encoding.field field)) ∘
      encoding.entry) = fun plain => decide (plain.1 = field) := by
    funext plain
    simp [entry, encoding.field_injective.eq_iff]
  rw [Shelf.find, shelf, List.find?_map, sameTest, Option.map_map, Shelf.find, Option.map_map]
  rfl

theorem shelf_put (plain : Shelf Field Value) (field : Field) (value : Value) :
    encoding.shelf (plain.put field value) =
      (encoding.shelf plain).put (encoding.field field) (encoding.value value) := by
  ext1
  · simp only [Shelf.put, without_shelf]
    rfl
  · rfl

theorem shelf_remove (plain : Shelf Field Value) (field : Field) :
    encoding.shelf (plain.remove field) = (encoding.shelf plain).remove (encoding.field field) := by
  rw [Shelf.remove, shelf_make, Shelf.remove, without_shelf]
  rfl

end Fields

section Maps

variable {stored : ExpiringMap Name Label Data} {map : ExpiringMap Key Field Value}

theorem represents_empty : encoding.Represents .empty .empty := ⟨rfl, fun _ => rfl⟩

theorem Represents.wait (represents : encoding.Represents stored map) (duration : Nat) :
    encoding.Represents (stored.wait duration) (map.wait duration) where
  clock := by
    simp only [ExpiringMap.wait, represents.clock]
  shelf key := by
    simp only [ExpiringMap.wait, represents.clock, represents.shelf, shelf_lapse]

/-- A command that changes something and answers nothing. -/
theorem Represents.settle {changedStored : ExpiringMap Name Label Data}
    {changed : ExpiringMap Key Field Value} (represents : encoding.Represents stored map)
    (both : encoding.Represents changedStored changed) (fate : Fate Error) :
    (fate.settle stored () changedStored).1 = (fate.settle map () changed).1 ∧
      encoding.Represents (fate.settle stored () changedStored).2
        (fate.settle map () changed).2 := by
  cases fate with
  | done => exact ⟨rfl, both⟩
  | failed error => exact ⟨rfl, represents⟩
  | lost error => exact ⟨rfl, both⟩

theorem decodeFound_map (found : Option Value) :
    encoding.decodeFound (found.map encoding.value) = .ok found := by
  cases found with
  | none => rfl
  | some content =>
      simp only [Option.map_some, decodeFound, encoding.decode_value]
      rfl

/-- A command that reads. -/
theorem Represents.find [DecidableEq Field] [DecidableEq Label]
    (represents : encoding.Represents stored map) (key : Key) (field : Field)
    (fate : Fate Error) :
    (fate.settle stored ((stored.shelf (encoding.key key)).find (encoding.field field))
          stored).1.bind encoding.decodeFound =
        (fate.settle map ((map.shelf key).find field) map).1 ∧
      encoding.Represents
        (fate.settle stored ((stored.shelf (encoding.key key)).find (encoding.field field))
          stored).2
        (fate.settle map ((map.shelf key).find field) map).2 := by
  rw [represents.shelf, find_shelf]
  cases fate with
  | done => exact ⟨decodeFound_map _, represents⟩
  | failed error => exact ⟨rfl, represents⟩
  | lost error => exact ⟨rfl, represents⟩

variable [DecidableEq Key] [DecidableEq Name]

/-- A change of one key that the encoding carries over. -/
theorem Represents.change (represents : encoding.Represents stored map) (key : Key)
    {plain : Shelf Field Value → Shelf Field Value}
    {encoded : Shelf Label Data → Shelf Label Data}
    (same : encoding.shelf (plain (map.shelf key)) = encoded (encoding.shelf (map.shelf key))) :
    encoding.Represents (stored.change (encoding.key key) encoded) (map.change key plain) where
  clock := represents.clock
  shelf other := by
    simp only [ExpiringMap.change]
    by_cases isKey : other = key
    · subst isKey
      rw [Function.update_self, Function.update_self, represents.shelf, same]
    · have different : encoding.key other ≠ encoding.key key := fun sameKey =>
        isKey (encoding.key_injective sameKey)
      rw [Function.update_of_ne different, Function.update_of_ne isKey, represents.shelf]

theorem Represents.exec [DecidableEq Field] [DecidableEq Label]
    (represents : encoding.Represents stored map)
    (plain : Access Key Field Value) (fate : Fate Error) :
    Option.Rel (fun left right => encoding.read plain left.1 = right.1 ∧
        encoding.Represents left.2 right.2)
      ((encoding.access plain).exec fate stored) (plain.exec fate map) := by
  cases plain with
  | find key field => exact .some (represents.find key field fate)
  | put key field value =>
      exact .some (represents.settle (represents.change key (shelf_put _ field value)) fate)
  | touch key duration =>
      refine .some (represents.settle (represents.change key ?_) fate)
      rw [shelf_touch, represents.clock]
  | remove key field =>
      exact .some (represents.settle (represents.change key (shelf_remove _ field)) fate)
  | clear key => exact .some (represents.settle (represents.change key rfl) fate)
  | wait duration =>
      cases fate with
      | done => exact .some ⟨rfl, represents.wait duration⟩
      | failed error => exact .none
      | lost error => exact .none

end Maps

/-- **Encoded programs** do what the plain ones do. -/
def simulation [DecidableEq Key] [DecidableEq Name] [DecidableEq Field] [DecidableEq Label]
    (encoding : Encoding Key Field Value Name Label Data Error) {Result Call : Type}
    {concrete : Call → Program (Access Name Label Data) (Access.Reply Error) Result}
    {abstract : Call → Program (Access Key Field Value) (Access.Reply Error) Result}
    (code : ∀ call, concrete call = (abstract call).translate encoding.access encoding.read) :
    Simulation (Access.system concrete) (Access.system abstract) where
  wire := encoding.access
  read := encoding.read
  Related := encoding.Represents
  code := code
  admits _ _ := rfl
  exec represents := represents.exec

end Encoding

end FProto.Foundation

import FProto.Groups.Store

/-!
Owns the abstract model of the group tables: actions, what a sequence of them
leaves, when its order does not matter, and which actions a row rests on.

A group row is settled by the first creation and the last update. A member row
is settled by which actions occur, as long as nobody is both added and removed,
and nobody is added to a group that is created.
-/

namespace FProto.Groups

open FProto.Foundation

/-- What a command asks for, once its checks are passed. The creator of a group
is always the empty user, and no command names that user. -/
inductive Action where
  | create (groupId name : Bytes) (settings : Option Bytes)
  | add (groupId userId : Bytes) (named : userId ≠ [])
  | remove (groupId userId : Bytes) (named : userId ≠ [])
  | update (groupId : Bytes) (settings : Option Bytes)
  | nothing
deriving DecidableEq

/-- The effect of an action. -/
def apply (db : Database) : Action → Database
  | .create groupId name settings =>
      if (db.groups groupId).isSome then db
      else db.insertGroup groupId { name, creatorId := [], settings } [] .admin
  | .add groupId userId _ =>
      if (db.members groupId userId).isSome then db
      else if present : (db.groups groupId).isSome then
        db.insertMember groupId userId .member present
      else db
  | .remove groupId userId _ => db.deleteMember groupId userId
  | .update groupId settings => db.setSettings groupId settings
  | .nothing => db

def applyAll (db : Database) (actions : List Action) : Database :=
  actions.foldl apply db

@[simp] theorem applyAll_nil (db : Database) : applyAll db [] = db := rfl

@[simp] theorem applyAll_cons (db : Database) (head : Action) (rest : List Action) :
    applyAll db (head :: rest) = applyAll (apply db head) rest := rfl

theorem applyAll_append (db : Database) (left right : List Action) :
    applyAll db (left ++ right) = applyAll (applyAll db left) right :=
  List.foldl_append

/-- Without the group there is no member. -/
theorem members_eq_none {db : Database} {groupId : Bytes} (absent : db.groups groupId = none)
    (userId : Bytes) : db.members groupId userId = none := by
  by_contra present
  have found := db.referenced groupId userId (Option.isSome_iff_ne_none.mpr present)
  rw [absent] at found
  cases found

/-! ### Group rows -/

/-- The name and the settings with which an action creates a group. -/
def createOf (groupId : Bytes) : Action → Option (Bytes × Option Bytes)
  | .create created name settings => if created = groupId then some (name, settings) else none
  | _ => none

/-- The settings an action gives a group. -/
def updateOf (groupId : Bytes) : Action → Option (Option Bytes)
  | .update updated settings => if updated = groupId then some settings else none
  | _ => none

def firstCreate (groupId : Bytes) (actions : List Action) : Option (Bytes × Option Bytes) :=
  (actions.filterMap (createOf groupId)).head?

def lastUpdate (groupId : Bytes) (actions : List Action) : Option (Option Bytes) :=
  (actions.filterMap (updateOf groupId)).getLast?

theorem createOf_eq_some_iff {groupId name : Bytes} {settings : Option Bytes} {action : Action} :
    createOf groupId action = some (name, settings) ↔ action = .create groupId name settings := by
  cases action <;> simp [createOf]

theorem updateOf_eq_some_iff {groupId : Bytes} {settings : Option Bytes} {action : Action} :
    updateOf groupId action = some settings ↔ action = .update groupId settings := by
  cases action <;> simp [updateOf]

theorem updateOf_create {groupId : Bytes} {action : Action}
    (creates : (createOf groupId action).isSome) : updateOf groupId action = none := by
  cases action with
  | create => rfl
  | add => rfl
  | remove => rfl
  | update => cases creates
  | nothing => rfl

theorem firstCreate_cons (groupId : Bytes) (head : Action) (rest : List Action) :
    firstCreate groupId (head :: rest) =
      (createOf groupId head).or (firstCreate groupId rest) := by
  unfold firstCreate
  rw [List.filterMap_cons]
  cases createOf groupId head <;> simp

theorem firstCreate_isSome {groupId name : Bytes} {settings : Option Bytes} {actions : List Action}
    (member : .create groupId name settings ∈ actions) : (firstCreate groupId actions).isSome := by
  rw [firstCreate, List.isSome_head?]
  have created : (name, settings) ∈ actions.filterMap (createOf groupId) :=
    List.mem_filterMap.mpr ⟨_, member, createOf_eq_some_iff.mpr rfl⟩
  exact List.ne_nil_of_mem created

theorem lastUpdate_cons (groupId : Bytes) (head : Action) (rest : List Action) :
    lastUpdate groupId (head :: rest) =
      (lastUpdate groupId rest).or (updateOf groupId head) := by
  unfold lastUpdate
  rw [List.filterMap_cons]
  cases updateOf groupId head with
  | none => simp
  | some settings =>
      dsimp only
      rw [List.getLast?_cons]
      cases (List.filterMap (updateOf groupId) rest).getLast? <;> simp

/-- One step: a group that exists takes the settings of an update; a group that
does not exist is there after a creation. -/
theorem groups_apply (db : Database) (action : Action) (groupId : Bytes) :
    (apply db action).groups groupId =
      match db.groups groupId with
      | some group => some { group with settings := (updateOf groupId action).getD group.settings }
      | none => (createOf groupId action).map fun created => ⟨created.1, [], created.2⟩ := by
  cases action with
  | create created name settings =>
      by_cases same : created = groupId
      · subst same
        cases present : db.groups created <;>
          simp [apply, present, createOf, updateOf, Database.insertGroup]
      · cases there : db.groups groupId <;> cases present : db.groups created <;>
          simp [apply, there, present, createOf, updateOf, same, Database.insertGroup,
            Function.update_of_ne (Ne.symm same)]
  | add added userId named =>
      have kept : (apply db (.add added userId named)).groups = db.groups := by
        simp only [apply]
        split
        · rfl
        · split <;> rfl
      rw [kept]
      cases there : db.groups groupId <;> simp [createOf, updateOf]
  | remove removed userId named =>
      cases there : db.groups groupId <;>
        simp [apply, there, createOf, updateOf, Database.deleteMember]
  | update updated settings =>
      by_cases same : updated = groupId
      · subst same
        cases there : db.groups updated <;>
          simp [apply, there, createOf, updateOf, Database.setSettings]
      · cases there : db.groups groupId <;>
          simp [apply, there, createOf, updateOf, same, Database.setSettings,
            Function.update_of_ne (Ne.symm same)]
  | nothing =>
      cases there : db.groups groupId <;> simp [apply, there, createOf, updateOf]

/-- A group that exists keeps its row, with the settings of the last update. -/
theorem groups_applyAll_some {db : Database} {groupId : Bytes} {group : Group}
    (present : db.groups groupId = some group) (actions : List Action) :
    (applyAll db actions).groups groupId =
      some { group with settings := (lastUpdate groupId actions).getD group.settings } := by
  induction actions generalizing db group with
  | nil => exact present
  | cons head rest inductionHypothesis =>
      have step := groups_apply db head groupId
      rw [present] at step
      rw [applyAll_cons, inductionHypothesis step, lastUpdate_cons]
      cases lastUpdate groupId rest <;> cases updateOf groupId head <;> simp

/-- A group that is not created stays absent. -/
theorem groups_applyAll_none {db : Database} {groupId : Bytes} {actions : List Action}
    (absent : db.groups groupId = none) (uncreated : firstCreate groupId actions = none) :
    (applyAll db actions).groups groupId = none := by
  induction actions generalizing db with
  | nil => exact absent
  | cons head rest inductionHypothesis =>
      rw [firstCreate_cons, Option.or_eq_none_iff] at uncreated
      have step := groups_apply db head groupId
      rw [absent, uncreated.1] at step
      exact inductionHypothesis step uncreated.2

/-- A created group has the name and settings of its first creation, when the
last update agrees with it. -/
theorem groups_applyAll_create {db : Database} {groupId name : Bytes} {settings : Option Bytes}
    {actions : List Action} (absent : db.groups groupId = none)
    (created : firstCreate groupId actions = some (name, settings))
    (agree : ∀ updated, lastUpdate groupId actions = some updated → updated = settings) :
    (applyAll db actions).groups groupId = some ⟨name, [], settings⟩ := by
  induction actions generalizing db with
  | nil => cases created
  | cons head rest inductionHypothesis =>
      have step := groups_apply db head groupId
      rw [absent] at step
      rw [firstCreate_cons] at created
      rw [lastUpdate_cons] at agree
      rw [applyAll_cons]
      cases creates : createOf groupId head with
      | none =>
          rw [creates] at step created
          refine inductionHypothesis step created fun updated last => agree updated ?_
          rw [last]
          rfl
      | some value =>
          rw [creates, Option.some_or, Option.some.injEq] at created
          rw [creates, created] at step
          rw [groups_applyAll_some step]
          -- no action both creates and updates, so the last update is in the rest
          have noUpdate := updateOf_create (Option.isSome_of_eq_some creates)
          rw [noUpdate, Option.or_none] at agree
          cases last : lastUpdate groupId rest with
          | none => rfl
          | some updated => rw [agree updated last]; rfl

/-- Whether a group exists at the end. -/
theorem groups_applyAll_isSome {db : Database} {groupId : Bytes} {actions : List Action}
    (created : (firstCreate groupId actions).isSome) :
    ((applyAll db actions).groups groupId).isSome := by
  induction actions generalizing db with
  | nil => cases created
  | cons head rest inductionHypothesis =>
      rw [firstCreate_cons] at created
      cases present : (apply db head).groups groupId with
      | some group =>
          rw [applyAll_cons, groups_applyAll_some present]
          rfl
      | none =>
          -- nothing was created by the first action, so it is in the rest
          have step := groups_apply db head groupId
          rw [present] at step
          refine inductionHypothesis ?_
          cases creates : createOf groupId head with
          | none => rwa [creates, Option.none_or] at created
          | some value =>
              rw [creates] at step
              cases there : db.groups groupId with
              | none => rw [there] at step; cases step
              | some group => rw [there] at step; cases step

/-! ### Member rows -/

/-- A row is written at its key only. -/
theorem update_member_of_ne {groupId userId otherGroup otherUser : Bytes}
    (members : Bytes → Bytes → Option MemberRole) (role : Option MemberRole)
    (different : ¬(otherGroup = groupId ∧ otherUser = userId)) :
    Function.update members otherGroup
      (Function.update (members otherGroup) otherUser role) groupId userId =
        members groupId userId := by
  by_cases same : groupId = otherGroup
  · subst same
    rw [Function.update_self, Function.update_of_ne]
    exact fun sameUser => different ⟨rfl, sameUser.symm⟩
  · rw [Function.update_of_ne same]

/-- An addition touches one row at most. -/
theorem members_add_of_ne (db : Database) {groupId userId otherGroup otherUser : Bytes}
    (otherNamed : otherUser ≠ []) (different : ¬(otherGroup = groupId ∧ otherUser = userId)) :
    (apply db (.add otherGroup otherUser otherNamed)).members groupId userId =
      db.members groupId userId := by
  simp only [apply]
  split
  · rfl
  · split
    · exact update_member_of_ne db.members _ different
    · rfl

/-- One step, for a user that commands can name. -/
theorem members_apply (db : Database) (action : Action) (groupId : Bytes) {userId : Bytes}
    (named : userId ≠ []) :
    (apply db action).members groupId userId =
      if action = .remove groupId userId named then none
      else if action = .add groupId userId named ∧ (db.groups groupId).isSome then
        some ((db.members groupId userId).getD .member)
      else db.members groupId userId := by
  cases action with
  | create created name settings =>
      have kept := update_member_of_ne db.members (some .admin)
        (fun same : created = groupId ∧ [] = userId => named same.2.symm)
      cases present : db.groups created with
      | some group => simp [apply, present]
      | none => simp [apply, present, Database.insertGroup, kept]
  | add added user otherNamed =>
      by_cases same : added = groupId ∧ user = userId
      · obtain ⟨rfl, rfl⟩ := same
        cases member : db.members added user with
        | some role =>
            have present := db.referenced added user (by rw [member]; rfl)
            simp [apply, member, present]
        | none =>
            by_cases present : (db.groups added).isSome
            · simp [apply, member, present, Database.insertMember]
            · simp [apply, member, present]
      · rw [members_add_of_ne db otherNamed same]
        simp [same]
  | remove removed user otherNamed =>
      by_cases same : removed = groupId ∧ user = userId
      · obtain ⟨rfl, rfl⟩ := same
        simp [apply, Database.deleteMember]
      · simp [apply, Database.deleteMember, same, update_member_of_ne db.members none same]
  | update updated settings => simp [apply, Database.setSettings]
  | nothing => simp [apply]

/-- One step, for the creator: only the creation of the group adds that row. -/
theorem members_apply_creator (db : Database) (action : Action) (groupId : Bytes) :
    (apply db action).members groupId [] =
      if db.groups groupId = none ∧ (createOf groupId action).isSome then some .admin
      else db.members groupId [] := by
  cases action with
  | create created name settings =>
      cases present : db.groups created with
      | some group =>
          by_cases same : created = groupId
          · subst same
            simp [apply, present]
          · simp [apply, present, createOf, same]
      | none =>
          by_cases same : created = groupId
          · subst same
            simp [apply, present, createOf, Database.insertGroup]
          · have kept := update_member_of_ne db.members (some .admin)
              (fun both : created = groupId ∧ ([] : Bytes) = [] => same both.1)
            simp [apply, present, createOf, same, Database.insertGroup, kept]
  | add added user otherNamed =>
      rw [members_add_of_ne db otherNamed fun same => otherNamed same.2]
      simp [createOf]
  | remove removed user otherNamed =>
      have kept := update_member_of_ne db.members none
        (fun same : removed = groupId ∧ user = [] => otherNamed same.2)
      simp [apply, createOf, Database.deleteMember, kept]
  | update updated settings => simp [apply, createOf, Database.setSettings]
  | nothing => simp [apply, createOf]

/-- The creator is a member of every group that was created. -/
theorem members_applyAll_creator (db : Database) (groupId : Bytes) (actions : List Action) :
    (applyAll db actions).members groupId [] =
      if db.groups groupId = none ∧ (firstCreate groupId actions).isSome then some .admin
      else db.members groupId [] := by
  induction actions generalizing db with
  | nil => simp [firstCreate]
  | cons head rest inductionHypothesis =>
      have row := groups_apply db head groupId
      rw [applyAll_cons, inductionHypothesis, members_apply_creator, firstCreate_cons]
      cases present : db.groups groupId with
      | some group => simp [row, present]
      | none => cases creates : createOf groupId head <;> simp [row, present, creates]

/-- Without an addition, a user is a member unless removed. -/
theorem members_applyAll_of_not_added {groupId userId : Bytes} (named : userId ≠ [])
    {actions : List Action} (notAdded : .add groupId userId named ∉ actions) (db : Database) :
    (applyAll db actions).members groupId userId =
      if .remove groupId userId named ∈ actions then none else db.members groupId userId := by
  induction actions generalizing db with
  | nil => simp
  | cons head rest inductionHypothesis =>
      rw [List.mem_cons, not_or] at notAdded
      rw [applyAll_cons, inductionHypothesis notAdded.2, members_apply db head groupId named]
      by_cases removes : head = .remove groupId userId named
      · simp [removes]
      · simp [removes, Ne.symm removes, Ne.symm notAdded.1]

/-- With an addition to a group that exists and no removal, a user is a member,
in the role they had. -/
theorem members_applyAll_of_added {groupId userId : Bytes} (named : userId ≠ [])
    {actions : List Action} (added : .add groupId userId named ∈ actions)
    (kept : .remove groupId userId named ∉ actions) {db : Database}
    (present : (db.groups groupId).isSome) :
    (applyAll db actions).members groupId userId =
      some ((db.members groupId userId).getD .member) := by
  induction actions generalizing db with
  | nil => cases added
  | cons head rest inductionHypothesis =>
      rw [List.mem_cons, not_or] at kept
      have there : ((apply db head).groups groupId).isSome := by
        obtain ⟨group, row⟩ := Option.isSome_iff_exists.mp present
        rw [groups_apply, row]
        rfl
      have step := members_apply db head groupId named
      rw [if_neg (Ne.symm kept.1)] at step
      rw [applyAll_cons]
      by_cases later : .add groupId userId named ∈ rest
      · rw [inductionHypothesis later kept.2 there, step]
        split <;> simp
      · have first : head = .add groupId userId named :=
          ((List.mem_cons.mp added).resolve_right later).symm
        rw [members_applyAll_of_not_added named later, if_neg kept.2, step,
          if_pos ⟨first, present⟩]

/-! ### When the order does not matter -/

/-- The conditions under which a sequence of actions may be reordered. -/
structure ConflictFree (actions : List Action) : Prop where
  /-- Nobody is added to a group and removed from it. -/
  membership : ∀ groupId userId named, Action.add groupId userId named ∈ actions →
    Action.remove groupId userId named ∉ actions
  /-- Nobody is added to a group that is created. -/
  creation : ∀ groupId userId named, Action.add groupId userId named ∈ actions →
    firstCreate groupId actions = none
  /-- The last update of a created group sets what its creation set. -/
  settings : ∀ groupId name settings updated, firstCreate groupId actions = some (name, settings) →
    lastUpdate groupId actions = some updated → updated = settings

/-- Actions that agree on the first creation and the last update of every group
and on what they do to members leave the same rows, if they are free of
conflicts. -/
theorem applyAll_eq_of_agree {dispatched processed : List Action}
    (free : ConflictFree dispatched)
    (sameCreate : ∀ groupId, firstCreate groupId processed = firstCreate groupId dispatched)
    (sameUpdate : ∀ groupId, lastUpdate groupId processed = lastUpdate groupId dispatched)
    (sameMembers : ∀ action, action ∈ processed ↔ action ∈ dispatched) (db : Database) :
    applyAll db processed = applyAll db dispatched := by
  have groups : (applyAll db processed).groups = (applyAll db dispatched).groups := by
    funext groupId
    cases present : db.groups groupId with
    | some group =>
        rw [groups_applyAll_some present, groups_applyAll_some present, sameUpdate]
    | none =>
        cases created : firstCreate groupId dispatched with
        | none =>
            rw [groups_applyAll_none present created,
              groups_applyAll_none present ((sameCreate groupId).trans created)]
        | some value =>
            have agree := free.settings groupId value.1 value.2
            rw [groups_applyAll_create present created fun updated => agree updated created,
              groups_applyAll_create present ((sameCreate groupId).trans created) fun updated last =>
                agree updated created ((sameUpdate groupId).symm.trans last)]
  have members : (applyAll db processed).members = (applyAll db dispatched).members := by
    funext groupId userId
    by_cases named : userId = []
    · subst named
      rw [members_applyAll_creator, members_applyAll_creator, sameCreate]
    by_cases added : .add groupId userId named ∈ dispatched
    · have addedProcessed := (sameMembers _).mpr added
      have kept := free.membership groupId userId named added
      have keptProcessed := mt (sameMembers _).mp kept
      cases present : db.groups groupId with
      | some group =>
          have there : (db.groups groupId).isSome := by rw [present]; rfl
          rw [members_applyAll_of_added named added kept there,
            members_applyAll_of_added named addedProcessed keptProcessed there]
      | none =>
          -- the group is never created, so neither order has a row for it
          have uncreated := free.creation groupId userId named added
          rw [members_eq_none (groups_applyAll_none present uncreated),
            members_eq_none (groups_applyAll_none present ((sameCreate groupId).trans uncreated))]
    · have notAdded := mt (sameMembers _).mp added
      rw [members_applyAll_of_not_added named added, members_applyAll_of_not_added named notAdded]
      simp only [sameMembers]
  exact Database.ext groups members

/-! ### When the order matters

Two parts of a sequence are swapped. If that never shows, the parts have no
conflict. -/

section Swapped

variable {left right : List Action}
  (same : ∀ db, applyAll db (left ++ right) = applyAll db (right ++ left))
include same

/-- Additions that may come before and after removals do not meet them. -/
theorem not_removed_of_swap {groupId userId : Bytes} {named : userId ≠ []}
    (added : .add groupId userId named ∈ left) (leftKeeps : .remove groupId userId named ∉ left)
    (notAdded : .add groupId userId named ∉ right) :
    .remove groupId userId named ∉ right := by
  intro removed
  -- a group with nobody but its creator
  let db := Database.empty.insertGroup groupId ⟨[], [], none⟩ [] .admin
  have present : db.groups groupId = some ⟨[], [], none⟩ := Function.update_self ..
  have after : ((applyAll db right).groups groupId).isSome := by
    rw [groups_applyAll_some present]
    rfl
  have rows := congrArg (fun state => state.members groupId userId) (same db)
  rw [applyAll_append, applyAll_append, members_applyAll_of_not_added named notAdded,
    if_pos removed, members_applyAll_of_added named added leftKeeps after] at rows
  cases rows

/-- Additions that may come before and after creations do not meet them. -/
theorem not_created_of_swap {groupId userId : Bytes} {named : userId ≠ []}
    (added : .add groupId userId named ∈ left) (leftKeeps : .remove groupId userId named ∉ left)
    (notAdded : .add groupId userId named ∉ right) (uncreated : firstCreate groupId left = none) :
    firstCreate groupId right = none := by
  by_contra created
  have absent : Database.empty.groups groupId = none := rfl
  have after : ((applyAll .empty right).groups groupId).isSome :=
    groups_applyAll_isSome (Option.isSome_iff_ne_none.mpr created)
  have before : (applyAll .empty left).members groupId userId = none :=
    members_eq_none (groups_applyAll_none absent uncreated) userId
  have rows := congrArg (fun state => state.members groupId userId) (same .empty)
  rw [applyAll_append, applyAll_append, members_applyAll_of_not_added named notAdded, before,
    ite_self, members_applyAll_of_added named added leftKeeps after] at rows
  cases rows

/-- Updates that may come before and after a creation repeat its settings. -/
theorem settings_eq_of_swap {groupId name : Bytes} {settings updated : Option Bytes}
    (uncreated : firstCreate groupId left = none) (last : lastUpdate groupId left = some updated)
    (created : firstCreate groupId right = some (name, settings))
    (noUpdate : lastUpdate groupId right = none) : updated = settings := by
  have absent : Database.empty.groups groupId = none := rfl
  have agree : ∀ other, lastUpdate groupId right = some other → other = settings := by
    intro other impossible
    rw [noUpdate] at impossible
    cases impossible
  have first : (applyAll .empty (left ++ right)).groups groupId = some ⟨name, [], settings⟩ := by
    rw [applyAll_append]
    exact groups_applyAll_create (groups_applyAll_none absent uncreated) created agree
  have second : (applyAll .empty (right ++ left)).groups groupId = some ⟨name, [], updated⟩ := by
    rw [applyAll_append, groups_applyAll_some (groups_applyAll_create absent created agree), last]
    rfl
  rw [same .empty, second] at first
  simpa using first

end Swapped

/-! ### Where rows come from -/

/-- Every row rests on an action that was asked for: a group on its creation, its
settings on the creation or an update, a member on an addition. Only the creator,
who has no name, is an administrator. -/
structure Founded (Asked : Action → Prop) (db : Database) : Prop where
  created : ∀ groupId group, db.groups groupId = some group → group.creatorId = [] ∧
    (∃ settings, Asked (.create groupId group.name settings)) ∧
    ((∃ name, Asked (.create groupId name group.settings)) ∨
      Asked (.update groupId group.settings))
  joined : ∀ groupId userId role, db.members groupId userId = some role →
    (userId = [] ∧ role = .admin) ∨
      (role = .member ∧ ∃ named, Asked (.add groupId userId named))

section Founded

variable {Asked : Action → Prop} {db : Database}

theorem Founded.empty : Founded Asked .empty where
  created _ _ present := by cases present
  joined _ _ _ member := by cases member

theorem Founded.created_apply (founded : Founded Asked db) {action : Action}
    (asked : Asked action) {groupId : Bytes} {group : Group}
    (present : (apply db action).groups groupId = some group) : group.creatorId = [] ∧
      (∃ settings, Asked (.create groupId group.name settings)) ∧
      ((∃ name, Asked (.create groupId name group.settings)) ∨
        Asked (.update groupId group.settings)) := by
  rw [groups_apply] at present
  cases old : db.groups groupId with
  | none =>
      rw [old] at present
      obtain ⟨⟨name, settings⟩, creates, rfl⟩ := Option.map_eq_some_iff.mp present
      rw [createOf_eq_some_iff.mp creates] at asked
      exact ⟨rfl, ⟨settings, asked⟩, .inl ⟨name, asked⟩⟩
  | some row =>
      rw [old] at present
      obtain rfl := Option.some.inj present
      obtain ⟨creator, named, settings⟩ := founded.created groupId row old
      refine ⟨creator, named, ?_⟩
      cases updates : updateOf groupId action with
      | none => exact settings
      | some given =>
          rw [updateOf_eq_some_iff.mp updates] at asked
          exact .inr asked

theorem Founded.joined_apply (founded : Founded Asked db) {action : Action}
    (asked : Asked action) {groupId userId : Bytes} {role : MemberRole}
    (member : (apply db action).members groupId userId = some role) :
    (userId = [] ∧ role = .admin) ∨
      (role = .member ∧ ∃ named, Asked (.add groupId userId named)) := by
  by_cases named : userId = []
  · subst named
    rw [members_apply_creator] at member
    split at member
    · exact .inl ⟨rfl, (Option.some.inj member).symm⟩
    · exact founded.joined groupId [] role member
  · rw [members_apply db action groupId named] at member
    split at member
    · cases member
    · split at member
      · next adds =>
        -- An addition of somebody who is a member already keeps the role.
        cases old : db.members groupId userId with
        | none =>
            rw [old] at member
            exact .inr ⟨(Option.some.inj member).symm, named, adds.1 ▸ asked⟩
        | some kept =>
            rw [old] at member
            obtain rfl : kept = role := Option.some.inj member
            exact founded.joined groupId userId kept old
      · exact founded.joined groupId userId role member

/-- **The step lemma.** -/
theorem Founded.apply (founded : Founded Asked db) {action : Action} (asked : Asked action) :
    Founded Asked (apply db action) where
  created _ _ present := founded.created_apply asked present
  joined _ _ _ member := founded.joined_apply asked member

/-- **The run lemma.** -/
theorem Founded.applyAll (founded : Founded Asked db) {actions : List Action}
    (asked : ∀ action ∈ actions, Asked action) : Founded Asked (applyAll db actions) := by
  induction actions generalizing db with
  | nil => exact founded
  | cons head rest inductionHypothesis =>
      rw [applyAll_cons]
      apply inductionHypothesis
      · exact founded.apply (asked head List.mem_cons_self)
      · exact fun action member => asked action (List.mem_cons_of_mem _ member)

end Founded

end FProto.Groups

import FProto.Groups.Actions

/-!
Owns what repeating actions does to the group tables.

A named user is a member of a group by the last addition or removal, when every
addition finds its group; the row of a creator and the group itself come from the
creation and stay.

**Main result.** Repeating a suffix of the actions that built the tables changes
neither the groups nor the members: `sameMembership_repeat`.
-/

namespace FProto.Groups

open FProto.Foundation

/-- Both databases have the same groups, and the same members in the same
roles. -/
structure SameMembership (left right : Database) : Prop where
  groups : ∀ groupId, (left.groups groupId).isSome = (right.groups groupId).isSome
  members : ∀ groupId userId role,
    left.members groupId userId = some role ↔ right.members groupId userId = some role

/-- Every addition finds its group. -/
def Grounded (db : Database) : List Action → Prop
  | [] => True
  | head :: rest =>
      (∀ groupId userId named, head = .add groupId userId named → (db.groups groupId).isSome) ∧
        Grounded (apply db head) rest

/-- Users that commands can name have no other role than `member`. -/
def PlainMembers (db : Database) : Prop :=
  ∀ groupId userId role, userId ≠ [] → db.members groupId userId = some role → role = .member

/-! ### The last word on a member -/

/-- Whether an action adds or removes a user. -/
def membershipOf (groupId userId : Bytes) : Action → Option Bool
  | .add added user _ => if added = groupId ∧ user = userId then some true else none
  | .remove removed user _ => if removed = groupId ∧ user = userId then some false else none
  | _ => none

def lastMembership (groupId userId : Bytes) (actions : List Action) : Option Bool :=
  (actions.filterMap (membershipOf groupId userId)).getLast?

theorem lastMembership_cons (groupId userId : Bytes) (head : Action) (rest : List Action) :
    lastMembership groupId userId (head :: rest) =
      (lastMembership groupId userId rest).or (membershipOf groupId userId head) := by
  unfold lastMembership
  rw [List.filterMap_cons]
  cases membershipOf groupId userId head with
  | none => simp
  | some added =>
      dsimp only
      rw [List.getLast?_cons]
      cases (List.filterMap (membershipOf groupId userId) rest).getLast? <;> simp

theorem PlainMembers.apply {db : Database} (plain : PlainMembers db) (action : Action) :
    PlainMembers (apply db action) := by
  intro groupId userId role named isRole
  rw [members_apply db action groupId named] at isRole
  split at isRole
  · cases isRole
  · split at isRole
    · cases member : db.members groupId userId with
      | none =>
          rw [member] at isRole
          exact (Option.some.inj isRole).symm
      | some old =>
          rw [member] at isRole
          rw [← Option.some.inj isRole]
          exact plain groupId userId old named member
    · exact plain groupId userId role named isRole

theorem PlainMembers.applyAll {db : Database} (plain : PlainMembers db) (actions : List Action) :
    PlainMembers (applyAll db actions) := by
  induction actions generalizing db with
  | nil => exact plain
  | cons head rest inductionHypothesis => exact inductionHypothesis (plain.apply head)

/-- What a word on a member makes of a row. -/
def settle (row : Option MemberRole) : Option Bool → Option MemberRole
  | none => row
  | some true => some .member
  | some false => none

/-- One step, when an addition finds its group. -/
theorem members_apply_settle {db : Database} (plain : PlainMembers db) {action : Action}
    (grounded : ∀ groupId userId named, action = .add groupId userId named →
      (db.groups groupId).isSome) (groupId : Bytes) {userId : Bytes} (named : userId ≠ []) :
    (apply db action).members groupId userId =
      settle (db.members groupId userId) (membershipOf groupId userId action) := by
  rw [members_apply db action groupId named]
  cases action with
  | add added user otherNamed =>
      by_cases same : added = groupId ∧ user = userId
      · obtain ⟨rfl, rfl⟩ := same
        have word : membershipOf added user (.add added user otherNamed) = some true :=
          if_pos ⟨rfl, rfl⟩
        have notRemoved : Action.add added user otherNamed ≠ .remove added user named :=
          fun impossible => by cases impossible
        rw [word, if_neg notRemoved, if_pos ⟨rfl, grounded added user otherNamed rfl⟩]
        cases member : db.members added user with
        | none => rfl
        | some role => rw [plain added user role named member]; rfl
      · simp [membershipOf, same, settle]
  | remove removed user otherNamed =>
      by_cases same : removed = groupId ∧ user = userId
      · obtain ⟨rfl, rfl⟩ := same
        simp [membershipOf, settle]
      · simp [membershipOf, same, settle]
  | create => simp [membershipOf, settle]
  | update => simp [membershipOf, settle]
  | nothing => simp [membershipOf, settle]

/-- **The last word decides.** -/
theorem members_applyAll_settle {db : Database} (plain : PlainMembers db) {actions : List Action}
    (grounded : Grounded db actions) (groupId : Bytes) {userId : Bytes} (named : userId ≠ []) :
    (applyAll db actions).members groupId userId =
      settle (db.members groupId userId) (lastMembership groupId userId actions) := by
  induction actions generalizing db with
  | nil => rfl
  | cons head rest inductionHypothesis =>
      rw [applyAll_cons, inductionHypothesis (plain.apply head) grounded.2,
        members_apply_settle plain grounded.1 groupId named, lastMembership_cons]
      rcases lastMembership groupId userId rest with _ | _ | _ <;> rfl

/-! ### Groups stay -/

theorem groups_isSome_apply {db : Database} {groupId : Bytes}
    (present : (db.groups groupId).isSome) (action : Action) :
    ((apply db action).groups groupId).isSome := by
  obtain ⟨group, row⟩ := Option.isSome_iff_exists.mp present
  rw [groups_apply, row]
  rfl

theorem groups_isSome_applyAll {db : Database} {groupId : Bytes}
    (present : (db.groups groupId).isSome) (actions : List Action) :
    ((applyAll db actions).groups groupId).isSome := by
  obtain ⟨group, row⟩ := Option.isSome_iff_exists.mp present
  rw [groups_applyAll_some row]
  rfl

/-- The groups of the additions are there at the end, so the additions find them
when they are repeated. -/
theorem Grounded.of_present {db : Database} {actions : List Action}
    (present : ∀ groupId userId named, Action.add groupId userId named ∈ actions →
      (db.groups groupId).isSome) : Grounded db actions := by
  induction actions generalizing db with
  | nil => trivial
  | cons head rest inductionHypothesis =>
      refine ⟨fun groupId userId named isHead => ?_, inductionHypothesis ?_⟩
      · exact present groupId userId named (isHead ▸ List.mem_cons_self)
      · intro groupId userId named member
        exact groups_isSome_apply
          (present groupId userId named (List.mem_cons_of_mem _ member)) head

theorem Grounded.present {db : Database} {actions : List Action} (grounded : Grounded db actions)
    {groupId userId : Bytes} {named : userId ≠ []}
    (member : .add groupId userId named ∈ actions) :
    ((applyAll db actions).groups groupId).isSome := by
  induction actions generalizing db with
  | nil => cases member
  | cons head rest inductionHypothesis =>
      rcases List.mem_cons.mp member with isHead | later
      · exact groups_isSome_applyAll (grounded.1 groupId userId named isHead.symm) (head :: rest)
      · exact inductionHypothesis grounded.2 later

/-! ### Repeating -/

/-- **Repeating actions changes nothing** in who is a member of which group. -/
theorem sameMembership_repeat {db : Database} (plain : PlainMembers db) {actions : List Action}
    (grounded : Grounded db actions) :
    SameMembership (applyAll (applyAll db actions) actions) (applyAll db actions) := by
  have notCreated : ∀ groupId, (applyAll db actions).groups groupId = none →
      firstCreate groupId actions = none := by
    intro groupId absent
    by_contra created
    have present : ((applyAll db actions).groups groupId).isSome :=
      groups_applyAll_isSome (Option.isSome_iff_ne_none.mpr created)
    rw [absent] at present
    cases present
  have plainAfter : PlainMembers (applyAll db actions) := plain.applyAll actions
  have groundedAfter : Grounded (applyAll db actions) actions :=
    Grounded.of_present fun _ _ _ member => grounded.present member
  refine ⟨fun groupId => ?_, fun groupId userId role => ?_⟩
  · cases there : (applyAll db actions).groups groupId with
    | none => rw [groups_applyAll_none there (notCreated groupId there)]
    | some group => rw [groups_applyAll_some there]; rfl
  · suffices same : (applyAll (applyAll db actions) actions).members groupId userId =
        (applyAll db actions).members groupId userId by rw [same]
    by_cases named : userId = []
    · subst named
      rw [members_applyAll_creator, if_neg]
      rintro ⟨absent, created⟩
      rw [notCreated groupId absent] at created
      cases created
    · rw [members_applyAll_settle plainAfter groundedAfter groupId named,
        members_applyAll_settle plain grounded groupId named]
      rcases lastMembership groupId userId actions with _ | _ | _ <;> rfl

end FProto.Groups

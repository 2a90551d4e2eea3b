import FProto.Commands.Order

/-!
Owns what single commands promise about the members of a group: that a created
group has an administrator, and that a banned user stays out.

The creator of a new group is `Payload[:0]`, an empty string or `NULL`, so no created
group has an administrator with a name: `created_group_never_administered`. A ban is a
removal and leaves no mark, so it lasts until the user is added again:
`ban_lasts_iff`.
-/

namespace FProto.Commands

open FProto.Foundation
open FProto.Protocol
open FProto.Groups

/-! ### Creation -/

/-- The group exists, with a creator that has a name and is its only member and its
administrator. -/
def Administered (db : Database) (groupId : Bytes) : Prop :=
  ∃ group, db.groups groupId = some group ∧ group.creatorId ≠ [] ∧
    ∀ userId, db.members groupId userId =
      if userId = group.creatorId then some .admin else none

/-- **No command creates a group that is administered**, whatever its payload and the
other rows. -/
theorem created_group_never_administered (runtime : Runtime) {db : Database} (command : Command)
    (absent : db.groups command.targetId.bytes = none) :
    ¬((processCommand runtime db command).1 = .ok () ∧
      Administered (processCommand runtime db command).2 command.targetId.bytes) := by
  rintro ⟨-, group, present, named, -⟩
  rw [processCommand_database, groups_apply, absent] at present
  -- a group that appears is the one of a creation, whose creator is empty
  cases created : createOf command.targetId.bytes (action runtime command) with
  | none =>
      rw [created] at present
      cases present
  | some columns =>
      rw [created] at present
      cases present
      exact named rfl

/-- The group of the sample settings. -/
def createSample : Command where
  type := .createGroup
  targetId := some [7]
  payload := some sampleSettings

theorem created_group_never_administered_sample :
    ¬((processCommand sampleRuntime .empty createSample).1 = .ok () ∧
      Administered (processCommand sampleRuntime .empty createSample).2 [7]) := by
  have absent : Database.empty.groups [7] = none := rfl
  exact created_group_never_administered sampleRuntime createSample absent

/-- With settings the creator is the empty string, and without any the group is not
created. -/
theorem created_group_without_creator :
    (processCommand sampleRuntime .empty createSample).1 = .ok () ∧
      (processCommand sampleRuntime .empty createSample).2.groups [7] =
        some ⟨utf8 "g", [], some (utf8 "\x7b\"name\": \"g\"\x7d")⟩ ∧
      (processCommand { sampleRuntime with jsonb := .ok } .empty
          { type := .createGroup, targetId := some [7] }).1 =
        .error ("insert group: null value in column \"creator_id\" of relation \"groups\" " ++
          "violates not-null constraint") := by
  decide +kernel

/-! ### Bans -/

/-- `Store.IsMember`. -/
def isMember (db : Database) (groupId userId : Bytes) : Bool :=
  (db.members groupId userId).isSome

/-- The handler takes one command after the other; a failed one leaves the tables
alone. -/
def processNext (runtime : Runtime) (db : Database) (command : Command) : Option Database :=
  some (processCommand runtime db command).2

/-- A command adds a user to a group. -/
def AddsMember (command : Command) (groupId userId : Bytes) : Prop :=
  command.type = .addMember ∧ command.targetId.bytes = groupId ∧ command.payload.bytes = userId

section Bans

variable {groupId userId : Bytes}

theorem memberAction_eq {command : Command} {act : Bytes → (userId : Bytes) → userId ≠ [] → Action}
    (target : command.targetId.bytes ≠ []) (named : command.payload.bytes ≠ []) :
    memberAction command act = act command.targetId.bytes command.payload.bytes named := by
  have checked : ¬command.targetId.len = 0 := fun empty => target (Slice.len_eq_zero_iff.mp empty)
  rw [memberAction, if_neg checked, dif_neg named]

/-- The action of a command is to add the user, for a group and a user with names. -/
theorem action_add_iff (runtime : Runtime) {command : Command} (target : groupId ≠ [])
    (named : userId ≠ []) :
    action runtime command = .add groupId userId named ↔ AddsMember command groupId userId := by
  constructor
  · intro adds
    have isAdd : command.type = .addMember := by
      have asked := action_askedBy runtime command
      rw [adds] at asked
      exact asked
    rw [action, isAdd] at adds
    simp only [memberAction] at adds
    split at adds
    · cases adds
    · split at adds
      · cases adds
      · cases adds
        exact ⟨isAdd, rfl, rfl⟩
  · rintro ⟨isAdd, rfl, rfl⟩
    rw [action, isAdd]
    exact memberAction_eq target named

/-- **One command.** A user who is no member becomes one exactly when the command adds
them and the group exists. -/
theorem isMember_processCommand (runtime : Runtime) {db : Database} (command : Command)
    (target : groupId ≠ []) (named : userId ≠ []) (out : isMember db groupId userId = false) :
    isMember (processCommand runtime db command).2 groupId userId = false ↔
      ¬(AddsMember command groupId userId ∧ (db.groups groupId).isSome) := by
  have noRow : db.members groupId userId = none := by simpa [isMember] using out
  rw [isMember, processCommand_database, members_apply db _ groupId named, noRow,
    ← action_add_iff runtime target named]
  split
  · next removes => simp [removes]
  · split
    · next adds => simp [adds]
    · next keeps => simpa using keeps

/-- A ban that succeeds names a group and a user, and takes the user out. -/
theorem ban_removes {runtime : Runtime} {db : Database} {ban : Command}
    (isBan : ban.type = .banMember) (succeeded : (processCommand runtime db ban).1 = .ok ()) :
    ban.targetId.bytes ≠ [] ∧ ban.payload.bytes ≠ [] ∧
      isMember (processCommand runtime db ban).2 ban.targetId.bytes ban.payload.bytes = false := by
  rw [processCommand, isBan] at succeeded ⊢
  change (withGroupAndUser _ db ban _).1 = _ at succeeded
  show _ ∧ _ ∧ isMember (withGroupAndUser _ db ban _).2 _ _ = false
  unfold withGroupAndUser at succeeded ⊢
  split at succeeded
  · cases succeeded
  · next checked =>
    rw [not_or] at checked
    rw [if_neg (not_or.mpr checked)]
    refine ⟨fun empty => checked.1 (Slice.len_eq_zero_iff.mpr empty),
      fun empty => checked.2 (Slice.len_eq_zero_iff.mpr empty), ?_⟩
    simp [isMember, commit, banMember, removeMember, Database.deleteMember]

end Bans

/-- **A ban lasts until the user is added again.** After a ban that succeeded the user
is no member after any later command, if and only if no command adds the user while
the group exists. -/
theorem ban_lasts_iff (runtime : Runtime) {db : Database} {ban : Command}
    (isBan : ban.type = .banMember) (succeeded : (processCommand runtime db ban).1 = .ok ())
    (later : List Command) :
    Always (processNext runtime) (processCommand runtime db ban).2 later
        (fun db => isMember db ban.targetId.bytes ban.payload.bytes = false) ↔
      EachStep (processNext runtime) (processCommand runtime db ban).2 later fun db command =>
        ¬(AddsMember command ban.targetId.bytes ban.payload.bytes ∧
          (db.groups ban.targetId.bytes).isSome) := by
  obtain ⟨target, named, out⟩ := ban_removes isBan succeeded
  refine always_iff_eachStep (fun _ => True) trivial ?_ ?_ later
  · exact out
  · intro db command after _ law stepped
    cases stepped
    exact ⟨trivial, isMember_processCommand runtime command target named law⟩

def banSample : Command where
  type := .banMember
  targetId := some [7]
  payload := some [9]

/-- The user of the ban is added. -/
def addSample : Command where
  type := .addMember
  targetId := some [7]
  payload := some [9]

/-- Without a further addition the sample ban lasts. -/
theorem ban_lasts_sample :
    (processCommand sampleRuntime .empty banSample).1 = .ok () ∧
      Always (processNext sampleRuntime) (processCommand sampleRuntime .empty banSample).2
        [createSample, banSample] fun db => isMember db [7] [9] = false := by
  have succeeded : (processCommand sampleRuntime .empty banSample).1 = .ok () := rfl
  have isBan : banSample.type = .banMember := rfl
  refine ⟨succeeded, (ban_lasts_iff sampleRuntime isBan succeeded [createSample, banSample]).mpr ?_⟩
  intro past command middle after isPast _ _ adds
  have member : command ∈ [createSample, banSample] :=
    isPast.subset (List.mem_append_right _ (List.mem_singleton_self _))
  have isAdd := adds.1.1
  rcases List.mem_cons.mp member with rfl | last
  · cases isAdd
  · rw [List.mem_singleton.mp last] at isAdd
    cases isAdd

/-- A banned user is added again. -/
theorem banned_user_returns :
    ∃ db, run (processNext sampleRuntime) .empty [createSample, addSample] = some db ∧
      isMember db [7] [9] = true ∧
      (processCommand sampleRuntime db banSample).1 = .ok () ∧
      isMember (processCommand sampleRuntime db banSample).2 [7] [9] = false ∧
      ∃ after, run (processNext sampleRuntime) (processCommand sampleRuntime db banSample).2
          [addSample] = some after ∧
        isMember after [7] [9] = true := by
  refine ⟨_, rfl, ?_, ?_, ?_, _, rfl, ?_⟩
  · decide +kernel
  · decide +kernel
  · decide +kernel
  · decide +kernel

end FProto.Commands

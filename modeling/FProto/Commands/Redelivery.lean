import FProto.Commands.Order
import FProto.Foundation.Run
import FProto.Groups.Replay

/-!
Owns what happens when Kafka delivers commands again, with the loop of
`ConsumeClaim` of `server/internal/commands/service.go`: the handler processed a
log, and a suffix of it comes once more.

**Main result.** The repetition changes neither the groups nor the members:
`redelivery_keeps_membership`.
-/

namespace FProto.Commands

open FProto.Foundation
open FProto.Protocol
open FProto.Kafka
open FProto.Groups

/-- A message that the handler processes without an error. -/
def processed (codec : ProtoCodec) (runtime : Runtime) (db : Database) (record : ConsumerMessage) :
    Option Database :=
  match handle codec runtime db record with
  | (.error _, _) => none
  | (.ok _, after) => some after

/-- The loop of `ConsumeClaim`, which goes on after an error. -/
def consumeClaim (codec : ProtoCodec) (runtime : Runtime) (db : Database)
    (records : List ConsumerMessage) : Database :=
  records.foldl (fun db record => (handle codec runtime db record).2) db

theorem consumeClaim_eq_applyAll (codec : ProtoCodec) (runtime : Runtime) (db : Database)
    (records : List ConsumerMessage) :
    consumeClaim codec runtime db records =
      applyAll db (records.map (messageAction codec runtime)) := by
  have steps : (fun db record => (handle codec runtime db record).2) = fun db record =>
      apply db (messageAction codec runtime record) :=
    funext fun db => funext (handle_database codec runtime db)
  rw [consumeClaim, applyAll, List.foldl_map, steps]

section Processed

variable {codec : ProtoCodec} {runtime : Runtime} {db after : Database}

/-- What a message that was processed did. -/
theorem processed_inv {record : ConsumerMessage}
    (isProcessed : processed codec runtime db record = some after) :
    (handle codec runtime db record).1 = .ok () ∧
      after = apply db (messageAction codec runtime record) := by
  rw [← handle_database]
  unfold processed at isProcessed
  split at isProcessed
  · cases isProcessed
  · next result state handled =>
    rw [handled]
    exact ⟨rfl, (Option.some.inj isProcessed).symm⟩

/-- A member is only added to a group that is there. -/
theorem addMember_present {groupId userId : Bytes} {role : MemberRole}
    (added : (commit db (addMember db groupId userId role)).1 = .ok ()) :
    (db.groups groupId).isSome := by
  unfold addMember at added
  split at added
  · next member => exact db.referenced groupId userId member
  · split at added
    · next present => exact present
    · cases added

theorem processCommand_present {command : Command} {groupId userId : Bytes} {named : userId ≠ []}
    (succeeded : (processCommand runtime db command).1 = .ok ())
    (adds : action runtime command = .add groupId userId named) : (db.groups groupId).isSome := by
  have isAdd : command.type = .addMember := by
    have asked := action_askedBy runtime command
    rw [adds] at asked
    exact asked
  have isMember : memberAction command .add = .add groupId userId named := by
    rw [action, isAdd] at adds
    exact adds
  rw [processCommand, isAdd] at succeeded
  change (withGroupAndUser _ db command _).1 = _ at succeeded
  unfold memberAction at isMember
  unfold withGroupAndUser at succeeded
  split at succeeded
  · cases succeeded
  · split at isMember
    · cases isMember
    · split at isMember
      · cases isMember
      · cases isMember
        exact addMember_present succeeded

/-- An addition that was processed found its group. -/
theorem processed_present {record : ConsumerMessage} {groupId userId : Bytes} {named : userId ≠ []}
    (succeeded : (handle codec runtime db record).1 = .ok ())
    (adds : messageAction codec runtime record = .add groupId userId named) :
    (db.groups groupId).isSome := by
  unfold messageAction at adds
  unfold handle at succeeded
  split at adds
  · cases adds
  · next message decoded =>
    rw [decoded] at succeeded
    split at adds
    · next command body =>
      dsimp only at succeeded
      rw [body] at succeeded
      exact processCommand_present succeeded adds
    · cases adds

/-- **A processed log** is the sequence of its actions, in which every addition
finds its group. -/
theorem grounded_of_processed {records : List ConsumerMessage}
    (ran : run (processed codec runtime) db records = some after) :
    Grounded db (records.map (messageAction codec runtime)) ∧
      after = applyAll db (records.map (messageAction codec runtime)) := by
  induction records generalizing db with
  | nil =>
      cases ran
      exact ⟨trivial, rfl⟩
  | cons record rest inductionHypothesis =>
      obtain ⟨middle, isProcessed, later⟩ := run_cons ran
      obtain ⟨succeeded, rfl⟩ := processed_inv isProcessed
      obtain ⟨grounded, isAfter⟩ := inductionHypothesis later
      exact ⟨⟨fun _ _ _ adds => processed_present succeeded adds, grounded⟩, isAfter⟩

end Processed

/-- **Redelivered commands do not change membership.** -/
theorem redelivery_keeps_membership (codec : ProtoCodec) (runtime : Runtime)
    {log suffix : List ConsumerMessage} {db : Database}
    (ran : run (processed codec runtime) Database.empty log = some db)
    (isSuffix : suffix <:+ log) :
    SameMembership (consumeClaim codec runtime db suffix) db := by
  obtain ⟨early, rfl⟩ := isSuffix
  rw [run_append, Option.bind_eq_some_iff] at ran
  obtain ⟨middle, earlyRan, suffixRan⟩ := ran
  have plain : PlainMembers middle := by
    rw [(grounded_of_processed earlyRan).2]
    exact PlainMembers.applyAll (fun _ _ _ _ isRole => by cases isRole) _
  obtain ⟨grounded, isAfter⟩ := grounded_of_processed suffixRan
  rw [consumeClaim_eq_applyAll, isAfter]
  exact sameMembership_repeat plain grounded

/-- A group is created, a user is added and another one banned. -/
def sampleLog : List ConsumerMessage :=
  [createRecord, addRecord, banRecord].map fun record =>
    { topic := record.topic, value := some record.payload }

theorem redelivery_keeps_membership_sample :
    ∃ db, run (processed sampleCodec sampleRuntime) Database.empty sampleLog = some db ∧
      db.members [7] [9] = some .member ∧
      SameMembership (consumeClaim sampleCodec sampleRuntime db sampleLog.tail) db := by
  obtain ⟨db, ran⟩ : ∃ db,
      run (processed sampleCodec sampleRuntime) Database.empty sampleLog = some db := ⟨_, rfl⟩
  have member : db.members [7] [9] = some .member := by
    obtain rfl := Option.some.inj ran
    rfl
  exact ⟨db, ran, member,
    redelivery_keeps_membership sampleCodec sampleRuntime ran (List.tail_suffix _)⟩

end FProto.Commands

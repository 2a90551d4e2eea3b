import FProto.Groups.Actions
import FProto.Kafka.Topics
import FProto.Protocol.AppMessage

/-!
Owns `server/internal/commands/handler.go`: what one consumed command does to
the group tables, with its error.

A command that passes its checks has an action on the group tables; every other
command does nothing. The handler refines the action: `processCommand_database`.
-/

namespace FProto.Commands

open FProto.Foundation
open FProto.Protocol
open FProto.Kafka
open FProto.Groups

/-! ### The handler -/

/-- The result of a statement: its error, or the database it leaves. -/
def commit (db : Database) : Except String Database → Except String Unit × Database
  | .error error => (.error error, db)
  | .ok after => (.ok (), after)

/-- The name the settings of a new group carry. -/
def settingsName (runtime : Runtime) (payload : Slice) : Except String Bytes :=
  if 0 < payload.len then runtime.groupName payload.bytes else .ok []

/-- The group `handleCreateGroup` stores. `Payload[:0]` of a `nil` payload is
`nil`. -/
def newGroup (command : Command) (name : Bytes) : NewGroup where
  id := command.targetId.bytes
  name := if name = [] then utf8 "New Group" else name
  creatorId := command.payload.map fun _ => []
  settings := if 0 < command.payload.len then command.payload.bytes else utf8 "\x7b\x7d"

def handleCreateGroup (runtime : Runtime) (db : Database) (command : Command) :
    Except String Unit × Database :=
  if command.targetId.len = 0 then
    (.error "create_group: target_id (group_id) required", db)
  else
    match settingsName runtime command.payload with
    | .error error => (.error ("parse settings: " ++ error), db)
    | .ok name => commit db (createGroup runtime db (newGroup command name))

/-- The three handlers that need a group and a user. -/
def withGroupAndUser (label : String) (db : Database) (command : Command)
    (statement : Bytes → Bytes → Except String Database) : Except String Unit × Database :=
  if command.targetId.len = 0 ∨ command.payload.len = 0 then
    (.error (label ++ ": target_id (group_id) and payload (user_id) required"), db)
  else commit db (statement command.targetId.bytes command.payload.bytes)

def handleAddMember (db : Database) (command : Command) : Except String Unit × Database :=
  withGroupAndUser "add_member" db command fun groupId userId =>
    addMember db groupId userId .member

def handleRemoveMember (db : Database) (command : Command) : Except String Unit × Database :=
  withGroupAndUser "remove_member" db command (removeMember db)

def handleBanMember (db : Database) (command : Command) : Except String Unit × Database :=
  withGroupAndUser "ban_member" db command (banMember db)

def handleUpdateSettings (runtime : Runtime) (db : Database) (command : Command) :
    Except String Unit × Database :=
  if command.targetId.len = 0 then
    (.error "update_settings: target_id (group_id) required", db)
  else commit db (updateSettings runtime db command.targetId.bytes command.payload)

/-- `Handler.processCommand`. A deleted message is only logged, and so is a type
without a handler. -/
def processCommand (runtime : Runtime) (db : Database) (command : Command) :
    Except String Unit × Database :=
  match command.type with
  | .createGroup => handleCreateGroup runtime db command
  | .addMember => handleAddMember db command
  | .removeMember => handleRemoveMember db command
  | .updateGroupSettings => handleUpdateSettings runtime db command
  | .banMember => handleBanMember db command
  | .deleteMessage => (.ok (), db)
  | _ => (.ok (), db)

/-- `Handler.Handle`. -/
def handle (codec : ProtoCodec) (runtime : Runtime) (db : Database) (record : ConsumerMessage) :
    Except String Unit × Database :=
  match codec.unmarshal record.value.bytes with
  | .error error => (.error ("unmarshal AppMessage: " ++ error), db)
  | .ok message =>
      match message.body with
      | some (.command (some command)) => processCommand runtime db command
      | _ => (.ok (), db)

/-! ### The action of a command -/

/-- The group a command creates, when its columns are accepted. -/
def createAction (runtime : Runtime) (command : Command) : Action :=
  if command.targetId.len = 0 ∨ command.payload = none then .nothing
  else
    match settingsName runtime command.payload with
    | .error _ => .nothing
    | .ok name =>
        match runtime.text (newGroup command name).name,
            runtime.jsonb (newGroup command name).settings with
        | .ok stored, .ok settings => .create command.targetId.bytes stored (some settings)
        | _, _ => .nothing

/-- The action of a command that needs a group and a user. -/
def memberAction (command : Command)
    (act : Bytes → (userId : Bytes) → userId ≠ [] → Action) : Action :=
  if command.targetId.len = 0 then .nothing
  else if named : command.payload.bytes = [] then .nothing
  else act command.targetId.bytes command.payload.bytes named

def updateAction (runtime : Runtime) (command : Command) : Action :=
  if command.targetId.len = 0 then .nothing
  else
    match command.payload with
    | none => .update command.targetId.bytes none
    | some settings =>
        match runtime.jsonb settings with
        | .error _ => .nothing
        | .ok stored => .update command.targetId.bytes (some stored)

def action (runtime : Runtime) (command : Command) : Action :=
  match command.type with
  | .createGroup => createAction runtime command
  | .addMember => memberAction command .add
  | .removeMember => memberAction command .remove
  | .updateGroupSettings => updateAction runtime command
  | .banMember => memberAction command .remove
  | _ => .nothing

/-! ### The handler refines the action -/

theorem handleCreateGroup_database (runtime : Runtime) (db : Database) (command : Command) :
    (handleCreateGroup runtime db command).2 = apply db (createAction runtime command) := by
  unfold handleCreateGroup createAction
  by_cases target : command.targetId.len = 0
  · simp [target, apply]
  cases parsed : settingsName runtime command.payload with
  | error error => simp [target, apply]
  | ok name =>
      have sameId : (newGroup command name).id = command.targetId.bytes := rfl
      have creator : (newGroup command name).creatorId = command.payload.map fun _ => [] := rfl
      cases columnName : runtime.text (newGroup command name).name with
      | error error => simp [target, createGroup, columnName, commit, apply]
      | ok stored =>
          cases columnSettings : runtime.jsonb (newGroup command name).settings with
          | error error => simp [target, createGroup, columnName, columnSettings, commit, apply]
          | ok settings =>
              simp only [createGroup, columnName, columnSettings, creator, sameId]
              cases payload : command.payload with
              | none => simp [target, commit, apply]
              | some content =>
                  cases present : db.groups command.targetId.bytes with
                  | some group => simp [target, present, commit, apply]
                  | none => simp [target, present, members_eq_none present, commit, apply]

/-- The shared part of the handlers that need a group and a user. -/
theorem withGroupAndUser_database (label : String) (db : Database) (command : Command)
    {statement : Bytes → Bytes → Except String Database}
    {act : Bytes → (userId : Bytes) → userId ≠ [] → Action}
    (refines : ∀ groupId userId named,
      (commit db (statement groupId userId)).2 = apply db (act groupId userId named)) :
    (withGroupAndUser label db command statement).2 = apply db (memberAction command act) := by
  unfold withGroupAndUser memberAction
  by_cases target : command.targetId.len = 0
  · simp [target, apply]
  by_cases unnamed : command.payload.bytes = []
  · simp [target, Slice.len_eq_zero_iff.mpr unnamed, unnamed, apply]
  · have checked : ¬(command.targetId.len = 0 ∨ command.payload.len = 0) := by
      rw [not_or]
      exact ⟨target, fun empty => unnamed (Slice.len_eq_zero_iff.mp empty)⟩
    rw [if_neg checked, if_neg target, dif_neg unnamed]
    exact refines _ _ unnamed

theorem handleUpdateSettings_database (runtime : Runtime) (db : Database) (command : Command) :
    (handleUpdateSettings runtime db command).2 = apply db (updateAction runtime command) := by
  unfold handleUpdateSettings updateAction updateSettings
  by_cases target : command.targetId.len = 0
  · simp [target, apply]
  rw [if_neg target, if_neg target]
  cases command.payload with
  | none => rfl
  | some settings =>
      dsimp only
      cases runtime.jsonb settings with
      | error error => rfl
      | ok stored => rfl

theorem addMember_database (db : Database) (groupId userId : Bytes) (named : userId ≠ []) :
    (commit db (addMember db groupId userId .member)).2 = apply db (.add groupId userId named) := by
  unfold addMember
  by_cases member : (db.members groupId userId).isSome
  · simp [member, commit, apply]
  by_cases present : (db.groups groupId).isSome
  · simp [member, present, commit, apply]
  · simp [member, present, commit, apply]

/-- The handler leaves the database its action leaves. -/
theorem processCommand_database (runtime : Runtime) (db : Database) (command : Command) :
    (processCommand runtime db command).2 = apply db (action runtime command) := by
  unfold processCommand action
  cases command.type with
  | createGroup => exact handleCreateGroup_database runtime db command
  | addMember => exact withGroupAndUser_database _ db command (addMember_database db)
  | removeMember => exact withGroupAndUser_database _ db command fun _ _ _ => rfl
  | updateGroupSettings => exact handleUpdateSettings_database runtime db command
  | banMember => exact withGroupAndUser_database _ db command fun _ _ _ => rfl
  | deleteMessage => rfl
  | unspecified => rfl
  | unrecognized number unnamed => rfl

/-- The action of the command a consumed message carries. -/
def messageAction (codec : ProtoCodec) (runtime : Runtime) (record : ConsumerMessage) : Action :=
  match codec.unmarshal record.value.bytes with
  | .error _ => .nothing
  | .ok message =>
      match message.body with
      | some (.command (some command)) => action runtime command
      | _ => .nothing

theorem handle_database (codec : ProtoCodec) (runtime : Runtime) (db : Database)
    (record : ConsumerMessage) :
    (handle codec runtime db record).2 = apply db (messageAction codec runtime record) := by
  unfold handle messageAction
  cases codec.unmarshal record.value.bytes with
  | error error => rfl
  | ok message =>
      rcases message with ⟨messageId, timestamp, _ | body⟩
      · rfl
      · cases body with
        | command command =>
            cases command with
            | none => rfl
            | some command => exact processCommand_database runtime db command
        | _ => rfl

end FProto.Commands

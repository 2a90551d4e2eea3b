import FProto.Foundation.Bytes
import Mathlib.Logic.Function.Basic

/-!
Owns the tables `groups` and `group_members` of
`server/internal/groups/store.go` and the statements that change them. The
foreign key is a field of the database, so no member row is without its group.
Time stamps are not modelled.

What the JSON decoder of the handler and the input functions of PostgreSQL
accept is a parameter.
-/

namespace FProto.Groups

open FProto.Foundation

/-- `MemberRole`, the three values the `CHECK` constraint admits. -/
inductive MemberRole where
  | admin
  | moderator
  | member
deriving DecidableEq

/-- A row of `groups`. The settings are `NULL` or a stored JSON value. -/
structure Group where
  name : Bytes
  creatorId : Bytes
  settings : Option Bytes
deriving DecidableEq

/-- Both tables, by primary key. -/
@[ext] structure Database where
  groups : Bytes → Option Group
  members : Bytes → Bytes → Option MemberRole
  referenced : ∀ groupId userId, (members groupId userId).isSome → (groups groupId).isSome

def Database.empty : Database where
  groups _ := none
  members _ _ := none
  referenced _ _ impossible := nomatch impossible

/-- `json.Unmarshal` of the settings, for their name, and the input functions of
the column types `JSONB` and `TEXT`. -/
structure Runtime where
  groupName : Bytes → Except String Bytes
  jsonb : Bytes → Except String Bytes
  text : Bytes → Except String Bytes

/-- What `CreateGroup` reads of the group it is given. -/
structure NewGroup where
  id : Bytes
  name : Bytes
  creatorId : Slice
  settings : Bytes

namespace Database

/-- Insert a group together with its first member. -/
def insertGroup (db : Database) (groupId : Bytes) (group : Group) (userId : Bytes)
    (role : MemberRole) : Database where
  groups := Function.update db.groups groupId (some group)
  members := Function.update db.members groupId
    (Function.update (db.members groupId) userId (some role))
  referenced := by
    intro other user present
    by_cases same : other = groupId
    · subst same
      simp
    · rw [Function.update_of_ne same] at present ⊢
      exact db.referenced other user present

def insertMember (db : Database) (groupId userId : Bytes) (role : MemberRole)
    (present : (db.groups groupId).isSome) : Database where
  groups := db.groups
  members := Function.update db.members groupId
    (Function.update (db.members groupId) userId (some role))
  referenced := by
    intro other user found
    by_cases same : other = groupId
    · subst same
      exact present
    · rw [Function.update_of_ne same] at found
      exact db.referenced other user found

def deleteMember (db : Database) (groupId userId : Bytes) : Database where
  groups := db.groups
  members := Function.update db.members groupId
    (Function.update (db.members groupId) userId none)
  referenced := by
    intro other user found
    by_cases same : other = groupId
    · subst same
      rw [Function.update_self] at found
      by_cases sameUser : user = userId
      · subst sameUser
        simp at found
      · rw [Function.update_of_ne sameUser] at found
        exact db.referenced other user found
    · rw [Function.update_of_ne same] at found
      exact db.referenced other user found

def setSettings (db : Database) (groupId : Bytes) (settings : Option Bytes) : Database where
  groups := Function.update db.groups groupId
    ((db.groups groupId).map fun group => { group with settings := settings })
  members := db.members
  referenced := by
    intro other user found
    have present := db.referenced other user found
    by_cases same : other = groupId
    · subst same
      simpa using present
    · rwa [Function.update_of_ne same]

end Database

/-! ### Statements -/

/-- `Store.CreateGroup`: both inserts of the transaction, or none. -/
def createGroup (runtime : Runtime) (db : Database) (group : NewGroup) :
    Except String Database :=
  match runtime.text group.name, runtime.jsonb group.settings, group.creatorId with
  | .error error, _, _ => .error ("insert group: " ++ error)
  | _, .error error, _ => .error ("insert group: " ++ error)
  | _, _, none =>
      .error ("insert group: null value in column \"creator_id\" of relation \"groups\" " ++
        "violates not-null constraint")
  | .ok name, .ok settings, some creatorId =>
      if (db.groups group.id).isSome then
        .error "insert group: duplicate key value violates unique constraint \"groups_pkey\""
      else if (db.members group.id creatorId).isSome then
        .error ("insert creator as admin: duplicate key value violates unique constraint " ++
          "\"group_members_pkey\"")
      else
        .ok (db.insertGroup group.id { name, creatorId, settings := some settings } creatorId
          .admin)

/-- `Store.AddMember`. -/
def addMember (db : Database) (groupId userId : Bytes) (role : MemberRole) :
    Except String Database :=
  if (db.members groupId userId).isSome then .ok db
  else if present : (db.groups groupId).isSome then
    .ok (db.insertMember groupId userId role present)
  else
    .error ("insert or update on table \"group_members\" violates foreign key constraint " ++
      "\"group_members_group_id_fkey\"")

/-- `Store.RemoveMember`. -/
def removeMember (db : Database) (groupId userId : Bytes) : Except String Database :=
  .ok (db.deleteMember groupId userId)

/-- `Store.BanMember`. -/
def banMember (db : Database) (groupId userId : Bytes) : Except String Database :=
  removeMember db groupId userId

/-- `Store.UpdateSettings`. A `nil` slice is `NULL`. -/
def updateSettings (runtime : Runtime) (db : Database) (groupId : Bytes) (settings : Slice) :
    Except String Database :=
  match settings with
  | none => .ok (db.setSettings groupId none)
  | some settings =>
      match runtime.jsonb settings with
      | .error error => .error error
      | .ok stored => .ok (db.setSettings groupId (some stored))

end FProto.Groups

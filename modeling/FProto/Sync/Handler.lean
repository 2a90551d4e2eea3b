import FProto.Foundation.Program
import FProto.Inbox.Store
import FProto.Sync.Recipient

/-!
Owns `Handler.Handle` of `server/internal/sync/handler.go` and `Dedup` of
`dedup.go`: a consumed record is checked against the dedup keys, stored in the
inbox and pushed to its recipient.

The commands are the calls to Redis, PostgreSQL and the push service. Each may
fail, with or without having taken effect. Publishing a record and the expiry
of a dedup key are commands of the environment.
-/

namespace FProto.Sync

open FProto.Foundation
open FProto.Protocol
open FProto.Kafka

/-- `dedupKey`. -/
def dedupKey (userID messageID : Bytes) : Bytes :=
  utf8 "dedup:" ++ hexEncode userID ++ utf8 ":" ++ hexEncode messageID

/-- A dedup key belongs to one user and one message. -/
theorem dedupKey_inj {userID messageID otherUser otherMessage : Bytes}
    (same : dedupKey userID messageID = dedupKey otherUser otherMessage) :
    userID = otherUser ∧ messageID = otherMessage := by
  have separator : utf8 ":" = [58] := rfl
  unfold dedupKey at same
  rw [separator, List.append_assoc, List.append_assoc, List.append_assoc,
    List.append_assoc] at same
  have tails := List.append_cancel_left same
  have foreign : fromHexDigit 58 = none := by decide
  obtain ⟨users, messages⟩ := append_separator_inj (not_mem_hexEncode foreign userID)
    (not_mem_hexEncode foreign otherUser) tails
  exact ⟨hexEncode_injective users, hexEncode_injective messages⟩

/-! ### Commands -/

inductive Command where
  | setNX (key : Bytes)
  | insert (entry : Inbox.NewEntry)
  | pushToUser (userID : Bytes) (message : AppMessage)
  | publish (record : ConsumerMessage)
  | expire (key : Bytes)
deriving DecidableEq

abbrev Reply : Command → Type
  | .setNX _ => Except String Bool
  | .insert _ => Except String Unit
  | .pushToUser _ _ => Except String Unit
  | .publish _ => Unit
  | .expire _ => Unit

/-- The dedup keys in Redis, the inbox, and the records in the topic logs. -/
structure State where
  dedup : List Bytes
  inbox : Inbox.Table
  published : List ConsumerMessage

def State.initial : State where
  dedup := []
  inbox := SerialTable.empty
  published := []

/-- What the environment decides about one command. -/
inductive Choice where
  | ok (now : Nat)
  | fail (error : String)
  | failApplied (now : Nat) (error : String)
deriving DecidableEq

def exec : (command : Command) → Choice → State → Option (Reply command × State)
  | .setNX key, .ok _, state =>
      some (.ok (!state.dedup.contains key), { state with dedup := state.dedup.insert key })
  | .setNX _, .fail error, state => some (.error error, state)
  | .setNX key, .failApplied _ error, state =>
      some (.error error, { state with dedup := state.dedup.insert key })
  | .insert entry, .ok now, state =>
      match Inbox.insert state.inbox now entry with
      | .error error => some (.error error, state)
      | .ok inbox => some (.ok (), { state with inbox })
  | .insert _, .fail error, state => some (.error error, state)
  | .insert entry, .failApplied now error, state =>
      match Inbox.insert state.inbox now entry with
      | .error _ => some (.error error, state)
      | .ok inbox => some (.error error, { state with inbox })
  | .pushToUser _ _, .ok _, state => some (.ok (), state)
  | .pushToUser _ _, .fail error, state => some (.error error, state)
  | .pushToUser _ _, .failApplied _ error, state => some (.error error, state)
  | .publish record, .ok _, state =>
      some ((), { state with published := state.published ++ [record] })
  | .expire key, .ok _, state =>
      if state.dedup.contains key then
        some ((), { state with dedup := state.dedup.filter fun other => other ≠ key })
      else none
  | _, _, _ => none

/-! ### The handler -/

abbrev Code (Result : Type) := Program Command Reply Result

/-- `Dedup.IsDuplicate`. -/
def Dedup.isDuplicate (userID : Bytes) (messageID : Slice) : Code (Except String Bool) := do
  match ← (Program.issue (Command.setNX (dedupKey userID messageID.bytes)) :
      Code (Except String Bool)) with
  | .error error => return .error ("dedup setnx: " ++ error)
  | .ok set => return .ok (!set)

/-- The entry `Handle` stores. -/
def newEntry (userID : Bytes) (message : AppMessage) (record : ConsumerMessage) :
    Inbox.NewEntry where
  userId := some userID
  messageId := message.messageId
  conversationId := extractConversationID message record.topic
  senderId := extractSenderID message
  payload := record.value

/-- `Handle` after the dedup check. The flag says whether the handler has a push
client; a failed push is only logged. -/
def storeAndPush (pushClient : Bool) (userID : Bytes) (message : AppMessage)
    (record : ConsumerMessage) : Code (Except String Unit) := do
  match ← (Program.issue (Command.insert (newEntry userID message record)) :
      Code (Except String Unit)) with
  | .error error => return .error ("inbox insert: " ++ error)
  | .ok _ =>
      if pushClient then
        let _ ← (Program.issue (Command.pushToUser userID message) : Code (Except String Unit))
      return .ok ()

/-- `Handler.Handle`. -/
def handle (codec : ProtoCodec) (pushClient : Bool) (record : ConsumerMessage) :
    Code (Except String Unit) := do
  match codec.unmarshal record.value.bytes with
  | .error error => return .error ("unmarshal AppMessage: " ++ error)
  | .ok message =>
      match extractRecipientID message record.topic with
      | none => return .ok ()
      | some userID =>
          match ← Dedup.isDuplicate userID message.messageId with
          | .error error => return .error ("dedup check: " ++ error)
          | .ok true => return .ok ()
          | .ok false => storeAndPush pushClient userID message record

end FProto.Sync

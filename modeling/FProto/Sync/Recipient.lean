import FProto.Dispatcher.Router

/-!
Owns the extraction functions of `server/internal/sync/handler.go`: who a
consumed record is for, who sent it, and to which conversation it belongs.

The recipient is read from the chat body or decoded back from the topic name
by `hexDecode`, which scans two bytes at a time with `fmt.Sscanf`. The main
result is that this recovers exactly the recipient the router used, and that
user topics keep users apart.
-/

namespace FProto.Sync

open FProto.Foundation
open FProto.Protocol
open FProto.Kafka
open FProto.Dispatcher

/-- The bytes `fmt.Sscanf` skips before a verb: a newline is an error there. -/
def isScanSpace (byte : UInt8) : Bool :=
  byte == 9 || byte == 11 || byte == 12 || byte == 13 || byte == 32

/-- `fmt.Sscanf(input, "%02x", &b)`: skip spaces, read one or two digits and
ignore the rest; `none` is an error. -/
def sscanfHex (input : Bytes) : Option UInt8 :=
  match input.dropWhile isScanSpace with
  | [] => none
  | [digit] => (fromHexDigit digit).map UInt8.ofNat
  | first :: second :: _ =>
      match fromHexDigit first, fromHexDigit second with
      | some high, some low => some (UInt8.ofNat (16 * high + low))
      | some value, none => some (UInt8.ofNat value)
      | none, _ => none

/-- `hexDecode`: one scan for each pair of bytes. A last single byte is not
looked at. -/
def hexDecode : Bytes → Option Bytes
  | first :: second :: rest =>
      match sscanfHex [first, second] with
      | none => none
      | some byte => (hexDecode rest).map fun bytes => byte :: bytes
  | _ => some []

/-- The recipient encoded in a topic name `user-<hex>`. -/
def topicRecipient (topic : Bytes) : Slice :=
  if 5 < topic.length ∧ topic.take 5 = utf8 "user-" then hexDecode (topic.drop 5) else none

/-- `extractRecipientID`. -/
def extractRecipientID (message : AppMessage) (topic : Bytes) : Slice :=
  match message.body with
  | some (.chat (some chat)) =>
      if 0 < chat.recipientId.len then chat.recipientId else topicRecipient topic
  | _ => topicRecipient topic

/-- `extractSenderID`. -/
def extractSenderID (message : AppMessage) : Slice :=
  match message.body with
  | some (.chat (some chat)) => chat.senderId
  | _ => none

/-- `extractConversationID`. -/
def extractConversationID (message : AppMessage) (topic : Bytes) : Slice :=
  match message.body with
  | some (.chat (some chat)) =>
      if 0 < chat.groupId.len then chat.groupId else chat.recipientId
  | _ => some topic

/-! ### Decoding inverts encoding -/

/-- A digit is no space, so a scan of two digits reads both. -/
theorem isScanSpace_hexDigit {value : Nat} (below : value < 16) :
    isScanSpace (hexDigit value) = false := by
  have all : ∀ value : Fin 16, isScanSpace (hexDigit value) = false := by decide
  exact all ⟨value, below⟩

theorem sscanfHex_encoded (byte : UInt8) :
    sscanfHex [hexDigit (byte.toNat / 16), hexDigit (byte.toNat % 16)] = some byte := by
  have highBelow : byte.toNat / 16 < 16 := by
    have := byte.toNat_lt
    omega
  have kept : [hexDigit (byte.toNat / 16), hexDigit (byte.toNat % 16)].dropWhile isScanSpace =
      [hexDigit (byte.toNat / 16), hexDigit (byte.toNat % 16)] := by
    rw [List.dropWhile_cons, isScanSpace_hexDigit highBelow]
    rfl
  unfold sscanfHex
  rw [kept]
  simp only [fromHexDigit_high, fromHexDigit_low]
  rw [show 16 * (byte.toNat / 16) + byte.toNat % 16 = byte.toNat by omega, UInt8.ofNat_toNat]

/-- `hexDecode` recovers every byte string from its standard encoding. -/
theorem hexDecode_hexEncode (bytes : Bytes) : hexDecode (hexEncode bytes) = some bytes := by
  induction bytes with
  | nil => rfl
  | cons byte rest inductionHypothesis =>
      rw [hexEncode_cons, hexDecode, sscanfHex_encoded, inductionHypothesis]
      rfl

theorem topicRecipient_userTopic {userId : Bytes} (nonempty : userId ≠ []) :
    topicRecipient (userTopic userId) = some userId := by
  have long : 5 < (userTopic userId).length := by
    have positive := List.length_pos_iff.mpr nonempty
    simp only [userTopic, utf8_user, List.length_append, List.length_cons, List.length_nil,
      hexEncode_length]
    omega
  have head : (userTopic userId).take 5 = utf8 "user-" := List.take_left' rfl
  have tail : (userTopic userId).drop 5 = hexEncode userId := List.drop_left' rfl
  unfold topicRecipient
  rw [if_pos ⟨long, head⟩, tail, hexDecode_hexEncode]

/-- A group topic names no recipient. -/
theorem topicRecipient_groupTopic (groupId : Bytes) :
    topicRecipient (groupTopic groupId) = none := by
  have head : (groupTopic groupId).take 5 ≠ utf8 "user-" := by
    rw [groupTopic, utf8_group, utf8_user]
    intro same
    exact absurd (List.cons.inj same).1 (by decide)
  unfold topicRecipient
  rw [if_neg (fun both => head both.2)]

/-- The recipient of a message addressed to one user, on that user's topic. -/
theorem extractRecipientID_addressed {message : AppMessage} {recipient : Bytes}
    (nonempty : recipient ≠ []) (addressed : AddressedTo message recipient) :
    extractRecipientID message (userTopic recipient) = some recipient := by
  cases addressed with
  | chat chat body _ addressed =>
      have positive : 0 < chat.recipientId.len :=
        Slice.len_pos_iff.mpr ⟨recipient, addressed, nonempty⟩
      simp only [extractRecipientID, body]
      rw [if_pos positive, addressed]
  | signaling signaling body _ =>
      simp only [extractRecipientID, body]
      exact topicRecipient_userTopic nonempty

/-- **Routing isolates users.** A user topic is no group topic and no static
topic, two messages share it only when they are addressed to the same user, and
the consumer recovers exactly the recipient the router used, from the body or
from the topic name alone. -/
theorem routing_isolates_users {first second : AppMessage} {firstRoute secondRoute : Route}
    {userId : Bytes}
    (firstRouted : routeMessage (some first) = .ok firstRoute)
    (secondRouted : routeMessage (some second) = .ok secondRoute)
    (toUser : firstRoute.topic = userTopic userId) :
    (∀ groupId, firstRoute.topic ≠ groupTopic groupId) ∧
    (firstRoute.topic ≠ topicCommands ∧ firstRoute.topic ≠ topicEvents ∧
      firstRoute.topic ≠ topicMediaEvents ∧ firstRoute.topic ≠ topicDeadLetter) ∧
    (firstRoute.topic = secondRoute.topic →
      AddressedTo first userId ∧ AddressedTo second userId) ∧
    AddressedTo first userId ∧ firstRoute.partitionKey = some userId ∧
    extractRecipientID first firstRoute.topic = some userId ∧
    topicRecipient firstRoute.topic = some userId := by
  obtain ⟨nonempty, addressed, key⟩ := addressedTo_of_userTopic firstRouted toUser
  refine ⟨fun groupId => ?_, ?_, fun shared => ?_, addressed, key, ?_, ?_⟩
  · rw [toUser]
    exact userTopic_ne_groupTopic userId groupId
  · rw [toUser]
    exact userTopic_ne_static userId
  · have secondToUser : secondRoute.topic = userTopic userId := shared.symm.trans toUser
    exact ⟨addressed, (addressedTo_of_userTopic secondRouted secondToUser).2.1⟩
  · rw [toUser]
    exact extractRecipientID_addressed nonempty addressed
  · rw [toUser]
    exact topicRecipient_userTopic nonempty

/-- A chat message and a signaling message to the same user share its topic. -/
theorem routing_isolates_users_shared_topic :
    let chat : AppMessage :=
      { body := some (.chat (some { recipientId := some [0xaa, 0xbb] })) }
    let signaling : AppMessage :=
      { body := some (.signaling (some { recipientId := some [0xaa, 0xbb] })) }
    let route : Route := ⟨utf8 "user-aabb", some [0xaa, 0xbb]⟩
    routeMessage (some chat) = .ok route ∧ routeMessage (some signaling) = .ok route ∧
      extractRecipientID signaling route.topic = some [0xaa, 0xbb] := by
  intro chat signaling route
  have chatRouted : routeMessage (some chat) = .ok route := rfl
  have signalingRouted : routeMessage (some signaling) = .ok route := rfl
  have isolated := routing_isolates_users signalingRouted chatRouted
    (show route.topic = userTopic [0xaa, 0xbb] from rfl)
  exact ⟨chatRouted, signalingRouted, isolated.2.2.2.2.2.1⟩

end FProto.Sync

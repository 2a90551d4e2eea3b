import FProto.Kafka.Topics
import FProto.Protocol.AppMessage

/-!
Owns `server/internal/dispatcher/router.go`: the topic and the partition key
of every message, and the exact form of the routes to user topics.
-/

namespace FProto.Dispatcher

open FProto.Foundation
open FProto.Protocol
open FProto.Kafka

/-- `Route`. -/
structure Route where
  topic : Bytes
  partitionKey : Slice
deriving DecidableEq

/-- `Command_CommandType.String`: the name, or the number of a value without
one. -/
def commandTypeString : CommandType → Bytes
  | .unspecified => utf8 "COMMAND_TYPE_UNSPECIFIED"
  | .createGroup => utf8 "CREATE_GROUP"
  | .addMember => utf8 "ADD_MEMBER"
  | .removeMember => utf8 "REMOVE_MEMBER"
  | .updateGroupSettings => utf8 "UPDATE_GROUP_SETTINGS"
  | .banMember => utf8 "BAN_MEMBER"
  | .deleteMessage => utf8 "DELETE_MESSAGE"
  | .unrecognized number _ => utf8 (toString number.toInt)

def routeChat : Option ChatMessage → Except String Route
  | none => .error "nil chat message"
  | some chat =>
      if 0 < chat.groupId.len then
        .ok { topic := utf8 "group-" ++ hexEncode chat.groupId.bytes
              partitionKey := chat.groupId }
      else if 0 < chat.recipientId.len then
        .ok { topic := utf8 "user-" ++ hexEncode chat.recipientId.bytes
              partitionKey := chat.recipientId }
      else .error "chat message has no recipient_id or group_id"

def routeCommand : Option Command → Except String Route
  | none => .error "nil command"
  | some command =>
      .ok { topic := topicCommands
            partitionKey := some (commandTypeString command.type) }

def routeMedia : Option MediaChunk → Except String Route
  | none => .error "nil media chunk"
  | some media => .ok { topic := topicMediaEvents, partitionKey := media.streamId }

def routeSenderKey : Option SenderKeyDistribution → Except String Route
  | none => .error "nil sender key distribution"
  | some senderKey =>
      if senderKey.senderId.len = 0 then .error "sender key has no sender_id"
      else .ok { topic := topicEvents, partitionKey := senderKey.groupId }

def routeSignaling : Option SignalingMessage → Except String Route
  | none => .error "nil signaling message"
  | some signaling =>
      if signaling.recipientId.len = 0 then .error "signaling has no recipient_id"
      else .ok { topic := utf8 "user-" ++ hexEncode signaling.recipientId.bytes
                 partitionKey := signaling.recipientId }

/-- `RouteMessage`. -/
def routeMessage : Option AppMessage → Except String Route
  | none => .error "nil message"
  | some message =>
      match message.body with
      | some (.chat chat) => routeChat chat
      | some (.command command) => routeCommand command
      | some (.media media) => routeMedia media
      | some (.senderKey senderKey) => routeSenderKey senderKey
      | some (.signaling signaling) => routeSignaling signaling
      | _ => .ok { topic := topicEvents, partitionKey := message.messageId }

/-! ### What a route says about its message -/

/-- The message is addressed to one user: a chat message without a group, or a
signaling message. -/
inductive AddressedTo (message : AppMessage) (recipient : Bytes) : Prop where
  | chat (chat : ChatMessage) (body : message.body = some (.chat (some chat)))
      (noGroup : chat.groupId.len = 0) (addressed : chat.recipientId = some recipient)
  | signaling (signaling : SignalingMessage)
      (body : message.body = some (.signaling (some signaling)))
      (addressed : signaling.recipientId = some recipient)

theorem routeChat_ok {chat : Option ChatMessage} {route : Route}
    (routed : routeChat chat = .ok route) :
    ∃ found, chat = some found ∧
      ((∃ group, group ≠ [] ∧ found.groupId = some group ∧
          route = ⟨groupTopic group, some group⟩) ∨
        ∃ recipient, recipient ≠ [] ∧ found.groupId.len = 0 ∧
          found.recipientId = some recipient ∧ route = ⟨userTopic recipient, some recipient⟩) := by
  cases chat with
  | none => cases routed
  | some chat =>
      refine ⟨chat, rfl, ?_⟩
      simp only [routeChat] at routed
      split at routed
      · next nonempty =>
        obtain ⟨group, groupEq, groupNe⟩ := Slice.len_pos_iff.mp nonempty
        rw [groupEq] at routed
        exact .inl ⟨group, groupNe, groupEq, (Except.ok.inj routed).symm⟩
      · next noGroup =>
        split at routed
        · next nonempty =>
          obtain ⟨recipient, recipientEq, recipientNe⟩ := Slice.len_pos_iff.mp nonempty
          rw [recipientEq] at routed
          exact .inr ⟨recipient, recipientNe, by omega, recipientEq, (Except.ok.inj routed).symm⟩
        · cases routed

theorem routeSenderKey_ok {senderKey : Option SenderKeyDistribution} {route : Route}
    (routed : routeSenderKey senderKey = .ok route) : route.topic = topicEvents := by
  cases senderKey with
  | none => cases routed
  | some senderKey =>
      simp only [routeSenderKey] at routed
      split at routed
      · cases routed
      · obtain rfl := Except.ok.inj routed
        rfl

theorem routeSignaling_ok {signaling : Option SignalingMessage} {route : Route}
    (routed : routeSignaling signaling = .ok route) :
    ∃ found recipient, signaling = some found ∧ recipient ≠ [] ∧
      found.recipientId = some recipient ∧ route = ⟨userTopic recipient, some recipient⟩ := by
  cases signaling with
  | none => cases routed
  | some signaling =>
      simp only [routeSignaling] at routed
      split at routed
      · cases routed
      · next nonempty =>
        obtain ⟨recipient, recipientEq, recipientNe⟩ :=
          Slice.len_pos_iff.mp (Nat.pos_of_ne_zero nonempty)
        rw [recipientEq] at routed
        exact ⟨signaling, recipient, rfl, recipientNe, recipientEq, (Except.ok.inj routed).symm⟩

/-- Every accepted route: to one user, to one group, or to a static topic. -/
theorem routeMessage_cases {message : AppMessage} {route : Route}
    (routed : routeMessage (some message) = .ok route) :
    (∃ recipient, recipient ≠ [] ∧ AddressedTo message recipient ∧
      route = ⟨userTopic recipient, some recipient⟩) ∨
    (∃ chat group, message.body = some (.chat (some chat)) ∧ group ≠ [] ∧
      chat.groupId = some group ∧ route = ⟨groupTopic group, some group⟩) ∨
    (∃ command, message.body = some (.command (some command)) ∧
      route = ⟨topicCommands, some (commandTypeString command.type)⟩) ∨
    route.topic = topicEvents ∨ route.topic = topicMediaEvents := by
  simp only [routeMessage] at routed
  split at routed
  · next chat body =>
    obtain ⟨found, rfl, ⟨group, groupNe, groupEq, isRoute⟩ |
      ⟨recipient, recipientNe, noGroup, recipientEq, isRoute⟩⟩ := routeChat_ok routed
    · exact .inr (.inl ⟨found, group, body, groupNe, groupEq, isRoute⟩)
    · exact .inl ⟨recipient, recipientNe, .chat found body noGroup recipientEq, isRoute⟩
  · next command body =>
    cases command with
    | none => cases routed
    | some command =>
        exact .inr (.inr (.inl ⟨command, body, (Except.ok.inj routed).symm⟩))
  · next media body =>
    cases media with
    | none => cases routed
    | some media =>
        obtain rfl := Except.ok.inj routed
        exact .inr (.inr (.inr (.inr rfl)))
  · exact .inr (.inr (.inr (.inl (routeSenderKey_ok routed))))
  · next signaling body =>
    obtain ⟨found, recipient, rfl, recipientNe, recipientEq, isRoute⟩ := routeSignaling_ok routed
    exact .inl ⟨recipient, recipientNe, .signaling found body recipientEq, isRoute⟩
  · obtain rfl := Except.ok.inj routed
    exact .inr (.inr (.inr (.inl rfl)))

/-- A route to a user topic comes from a message addressed to that user. -/
theorem addressedTo_of_userTopic {message : AppMessage} {route : Route} {userId : Bytes}
    (routed : routeMessage (some message) = .ok route) (topic : route.topic = userTopic userId) :
    userId ≠ [] ∧ AddressedTo message userId ∧ route.partitionKey = some userId := by
  have static := userTopic_ne_static userId
  rcases routeMessage_cases routed with
    ⟨recipient, nonempty, addressed, rfl⟩ | ⟨chat, group, -, -, -, rfl⟩ |
    ⟨command, -, rfl⟩ | events | media
  · obtain rfl := userTopic_injective topic
    exact ⟨nonempty, addressed, rfl⟩
  · exact absurd topic.symm (userTopic_ne_groupTopic userId group)
  · exact absurd topic.symm static.1
  · exact absurd (topic.symm.trans events) static.2.1
  · exact absurd (topic.symm.trans media) static.2.2.1

end FProto.Dispatcher

import FProto.Foundation.Bytes

/-!
Owns the topic names of `server/internal/kafka/topics.go` and the records that
a topic log holds.

The names of user topics and group topics are injective in the id and disjoint
from each other and from the four static names. Topic creation and partition
counts are not modelled.
-/

namespace FProto.Kafka

open FProto.Foundation

def topicCommands : Bytes := utf8 "commands"

def topicEvents : Bytes := utf8 "events"

def topicMediaEvents : Bytes := utf8 "media-events"

def topicDeadLetter : Bytes := utf8 "dead-letter"

/-- `UserTopic`. -/
def userTopic (userId : Bytes) : Bytes :=
  utf8 "user-" ++ hexEncode userId

/-- `GroupTopic`. -/
def groupTopic (groupId : Bytes) : Bytes :=
  utf8 "group-" ++ hexEncode groupId

/-- A record of a topic log. The key is absent when the producer got `nil`. -/
structure Record where
  key : Slice
  value : Bytes
deriving DecidableEq

/-- `sarama.ConsumerMessage`, as far as the handlers read it. A record without a
value has the value `nil`. -/
structure ConsumerMessage where
  topic : Bytes
  partition : Nat := 0
  offset : Nat := 0
  value : Slice
deriving DecidableEq

/-! ### Name families -/

theorem utf8_user : utf8 "user-" = [117, 115, 101, 114, 45] := rfl

theorem utf8_group : utf8 "group-" = [103, 114, 111, 117, 112, 45] := rfl

theorem userTopic_injective : Function.Injective userTopic := by
  intro left right same
  exact hexEncode_injective (List.append_cancel_left same)

theorem groupTopic_injective : Function.Injective groupTopic := by
  intro left right same
  exact hexEncode_injective (List.append_cancel_left same)

theorem userTopic_ne_groupTopic (userId groupId : Bytes) :
    userTopic userId ≠ groupTopic groupId := by
  rw [userTopic, groupTopic, utf8_user, utf8_group]
  intro same
  have heads := (List.cons.inj same).1
  exact absurd heads (by decide)

/-- A static name is no user topic: it does not start like one. -/
theorem userTopic_ne_of_take {userId name : Bytes} (foreign : name.take 5 ≠ utf8 "user-") :
    userTopic userId ≠ name := by
  rintro rfl
  exact foreign (List.take_left' rfl)

theorem userTopic_ne_static (userId : Bytes) :
    userTopic userId ≠ topicCommands ∧ userTopic userId ≠ topicEvents ∧
      userTopic userId ≠ topicMediaEvents ∧ userTopic userId ≠ topicDeadLetter :=
  ⟨userTopic_ne_of_take (by decide), userTopic_ne_of_take (by decide),
    userTopic_ne_of_take (by decide), userTopic_ne_of_take (by decide)⟩

end FProto.Kafka

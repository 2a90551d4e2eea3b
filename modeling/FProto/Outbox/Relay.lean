import FProto.Outbox.Pipeline

/-!
Owns `server/internal/outbox/relay.go`: one poll of the relay, which publishes
the pending rows one after the other and gives up on a row after `maxRetries`
failed attempts.
-/

namespace FProto.Outbox.Relay

open FProto.Foundation
open FProto.Kafka

def maxRetries : Nat := 5

/-- `Relay.publish`. -/
def publish (entry : Entry) : Code (Except String Unit) := do
  match ← Producer.send entry.topic (some entry.partitionKey) entry.payload with
  | .error error => return .error error
  | .ok _ => Store.markPublished entry.id

/-- `Relay.sendToDeadLetter`. Both failures are only logged. -/
def sendToDeadLetter (entry : Entry) : Code Unit := do
  match ← Producer.send topicDeadLetter (some entry.topic) entry.payload with
  | .error _ => return ()
  | .ok _ =>
      let _ ← Store.markFailed entry.id
      return ()

/-- The loop of `Relay.poll` over the fetched entries. `entry.retryCount` is the
value that was fetched, not the stored one. -/
def publishEntries : List Entry → Code Unit
  | [] => return ()
  | entry :: entries => do
      match ← publish entry with
      | .ok _ => publishEntries entries
      | .error _ =>
          let _ ← Store.incrementRetry entry.id
          if maxRetries ≤ entry.retryCount + 1 then
            sendToDeadLetter entry
          publishEntries entries

/-- `Relay.poll`. -/
def poll (batch : Nat) : Code Unit := do
  match ← Store.fetchPending batch with
  | .error _ => return ()
  | .ok entries => publishEntries entries

end FProto.Outbox.Relay

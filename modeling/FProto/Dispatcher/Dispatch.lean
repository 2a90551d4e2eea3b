import FProto.Dispatcher.Router
import FProto.Outbox.Pipeline

/-!
Owns `server/internal/dispatcher/dispatcher.go` and `grpc_server.go`: a message
is accepted when it has a route, marshals, and its outbox row is inserted.
-/

namespace FProto.Dispatcher

open FProto.Foundation
open FProto.Protocol
open FProto.Outbox

/-- The entry `Dispatch` inserts, or the error it returns before that.
`RouteMessage` refuses a `nil` message. -/
def newEntry (codec : ProtoCodec) : Option AppMessage → Except String NewEntry
  | none => .error "route: nil message"
  | some message =>
      match routeMessage (some message) with
      | .error error => .error ("route: " ++ error)
      | .ok route =>
          match codec.marshal message with
          | .error error => .error ("marshal: " ++ error)
          | .ok payload =>
              .ok { messageId := message.messageId
                    topic := route.topic
                    partitionKey := route.partitionKey
                    payload := payload }

/-- `Dispatcher.Dispatch`. The sender id is not used. -/
def dispatch (codec : ProtoCodec) (_senderId : Slice) (message : Option AppMessage) :
    Code (Except String Unit) := do
  match newEntry codec message with
  | .error error => return .error error
  | .ok entry =>
      match ← Store.insert entry with
      | .error error => return .error ("outbox insert: " ++ error)
      | .ok _ => return .ok ()

/-- `GRPCServer.Dispatch`. -/
def GRPCServer.dispatch (codec : ProtoCodec) (request : DispatchRequest) :
    Code (Except RpcError DispatchResponse) := do
  match request.message with
  | none => return .error ⟨.invalidArgument, "message is required"⟩
  | some message =>
      match ← Dispatcher.dispatch codec request.senderId (some message) with
      | .error error => return .error ⟨.internal, "dispatch: " ++ error⟩
      | .ok _ => return .ok { success := true, ackMessageId := message.messageId }

/-- The gRPC runtime: run the handler and send its answer back. -/
def GRPCServer.serve (codec : ProtoCodec) (rpc : Nat) (request : DispatchRequest) :
    Code (Except RpcError DispatchResponse) := do
  let answer ← GRPCServer.dispatch codec request
  let _ ← (Program.issue (Command.respond rpc answer) : Code Unit)
  return answer

/-- An entry is built from the route and the marshalled message. -/
theorem newEntry_ok {codec : ProtoCodec} {message : AppMessage} {entry : NewEntry}
    (built : newEntry codec (some message) = .ok entry) :
    ∃ route, routeMessage (some message) = .ok route ∧
      codec.marshal message = .ok entry.payload ∧
      entry.messageId = message.messageId ∧ entry.topic = route.topic ∧
      entry.partitionKey = route.partitionKey := by
  simp only [newEntry] at built
  split at built
  · cases built
  · next route routed =>
    split at built
    · cases built
    · next payload marshalled =>
      obtain rfl := Except.ok.inj built
      exact ⟨route, routed, marshalled, rfl, rfl, rfl⟩

end FProto.Dispatcher

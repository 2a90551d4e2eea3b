import FProto.Outbox.Pipeline

/-!
Owns what `handleConn` of `server/cmd/gateway/main.go` does with one decrypted
client message: dispatch the application message it carries and acknowledge it
as received, or answer with an echo.

The encrypted loop around it is `Gateway.SecureConnection`'s. Tracing and metrics are
not modelled. A message that cannot be encrypted is a failed write.
-/

namespace FProto.Gateway

open FProto.Foundation
open FProto.Protocol
open FProto.Outbox

/-- The acknowledgement the gateway sends for an accepted message. -/
def receivedAck (ackMessageId : Slice) : AppMessage :=
  { messageId := ackMessageId
    body := some (.ack (some { ackMessageId := ackMessageId, status := .received })) }

/-- The answer to a message that was not dispatched. -/
def echo (plaintext : Bytes) : Code (Except String Unit) :=
  Conn.writeMessage (.echo (utf8 "echo: " ++ plaintext))

/-- The application message inside a decrypted client message. -/
def framedMessage (codec : ProtoCodec) (plaintext : Bytes) : Option (Frame × AppMessage) :=
  match codec.unmarshalFrame plaintext with
  | .error _ => none
  | .ok frame =>
      if 0 < frame.encryptedPayload.len then
        match codec.unmarshal frame.encryptedPayload.bytes with
        | .error _ => none
        | .ok message => some (frame, message)
      else none

/-- One iteration of the loop of `handleConn`. The flag says whether a
dispatcher is configured. -/
def handleMessage (codec : ProtoCodec) (dispatcher : Bool) (remoteAddr plaintext : Bytes) :
    Code (Except String Unit) := do
  match if dispatcher then framedMessage codec plaintext else none with
  | none => echo plaintext
  | some (frame, message) =>
      let request : DispatchRequest :=
        { sessionId := some remoteAddr, senderId := frame.sessionId, message := some message }
      match ← DispatcherServiceClient.dispatch request with
      | .error _ => echo plaintext
      | .ok response =>
          -- A failed write of the acknowledgement is ignored.
          let _ ← Conn.writeMessage (.ack (receivedAck response.ackMessageId))
          return .ok ()

end FProto.Gateway

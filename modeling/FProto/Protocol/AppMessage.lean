import FProto.Foundation.Bytes

/-!
Owns the application messages of `proto/fproto/v1` as the generated Go code
holds them: a bytes field is a slice that may be `nil`, a oneof is a wrapper
around a message pointer that may be `nil`, an enum is open.

Does not own the wire format. The protobuf runtime is a `ProtoCodec`, of which
nothing is assumed here; `AppMessage.wire` is the message that a faithful
runtime reads back.
-/

namespace FProto.Protocol

open FProto.Foundation

structure Timestamp where
  seconds : Int64
  nanos : Int32
deriving DecidableEq

structure Attachment where
  mimeType : Bytes
  url : Bytes
  sizeBytes : UInt64
  thumbnail : Slice
deriving DecidableEq

structure ChatMessage where
  conversationId : Slice := none
  senderId : Slice := none
  recipientId : Slice := none
  groupId : Slice := none
  action : Int32 := 0
  text : Bytes := []
  replyTo : Slice := none
  attachments : List Attachment := []
deriving DecidableEq

/-- `Command.CommandType`. Numbers without a name are kept, as proto3 does. -/
inductive CommandType where
  | unspecified
  | createGroup
  | addMember
  | removeMember
  | updateGroupSettings
  | banMember
  | deleteMessage
  | unrecognized (number : Int32) (unnamed : number < 0 ∨ 6 < number)
deriving DecidableEq

structure Command where
  type : CommandType := .unspecified
  targetId : Slice := none
  payload : Slice := none
deriving DecidableEq

structure MediaChunk where
  streamId : Slice := none
  chunkIndex : UInt32 := 0
  totalChunks : UInt32 := 0
  data : Slice := none
  hash : Slice := none
  mimeType : Bytes := []
  totalSize : UInt64 := 0
deriving DecidableEq

/-- `Ack.AckStatus`. -/
inductive AckStatus where
  | unspecified
  | received
  | delivered
  | read
  | failed
  | unrecognized (number : Int32) (unnamed : number < 0 ∨ 4 < number)
deriving DecidableEq

structure Ack where
  ackMessageId : Slice := none
  status : AckStatus := .unspecified
deriving DecidableEq

structure Ping where
  timestampMs : UInt64 := 0
deriving DecidableEq

structure Pong where
  echoTimestampMs : UInt64 := 0
  serverTimestampMs : UInt64 := 0
deriving DecidableEq

structure SyncRequest where
  lastSeenMessageId : Slice := none
  maxMessages : UInt32 := 0
deriving DecidableEq

structure SenderKeyDistribution where
  groupId : Slice := none
  senderId : Slice := none
  keyId : UInt32 := 0
  chainKey : Slice := none
  signingKey : Slice := none
deriving DecidableEq

structure SDPMessage where
  sdp : Bytes := []
  type : Bytes := []
deriving DecidableEq

structure IceCandidate where
  candidate : Bytes := []
  sdpMid : Bytes := []
  sdpMLineIndex : UInt32 := 0
deriving DecidableEq

structure StreamControl where
  action : Int32 := 0
  streamId : Slice := none
  participantIds : List Bytes := []
deriving DecidableEq

inductive SignalingContent where
  | offer (sdp : Option SDPMessage)
  | answer (sdp : Option SDPMessage)
  | iceCandidate (candidate : Option IceCandidate)
  | streamControl (control : Option StreamControl)
deriving DecidableEq

structure SignalingMessage where
  recipientId : Slice := none
  streamId : Slice := none
  content : Option SignalingContent := none
deriving DecidableEq

/-- The wrappers of the oneof `AppMessage.body`. -/
inductive Body where
  | chat (chat : Option ChatMessage)
  | command (command : Option Command)
  | media (media : Option MediaChunk)
  | ack (ack : Option Ack)
  | ping (ping : Option Ping)
  | pong (pong : Option Pong)
  | senderKey (senderKey : Option SenderKeyDistribution)
  | syncRequest (syncRequest : Option SyncRequest)
  | signaling (signaling : Option SignalingMessage)
deriving DecidableEq

structure AppMessage where
  messageId : Slice := none
  timestamp : Option Timestamp := none
  body : Option Body := none
deriving DecidableEq

/-- The transport frame; `encryptedPayload` carries an `AppMessage`. -/
structure Frame where
  sessionId : Slice := none
  seq : UInt64 := 0
  ack : UInt64 := 0
  encryptedPayload : Slice := none
deriving DecidableEq

/-- The protobuf runtime: `proto.Marshal` and `proto.Unmarshal`. -/
structure ProtoCodec where
  marshal : AppMessage → Except String Bytes
  unmarshal : Bytes → Except String AppMessage
  unmarshalFrame : Bytes → Except String Frame

/-! ### What survives the wire

An empty bytes field is not written, so it is read back as `nil`. A oneof around
a `nil` message is written as the empty message. -/

def wireSlice : Slice → Slice
  | some [] => none
  | slice => slice

@[simp] theorem wireSlice_bytes (slice : Slice) : (wireSlice slice).bytes = slice.bytes := by
  rcases slice with _ | _ | _ <;> rfl

@[simp] theorem wireSlice_len (slice : Slice) : (wireSlice slice).len = slice.len := by
  simp [Slice.len]

/-- What is read back is `nil` exactly when nothing was there. -/
theorem wireSlice_isSome_iff {slice : Slice} : (wireSlice slice).isSome ↔ 0 < slice.len := by
  rcases slice with _ | _ | _ <;> simp [wireSlice, Slice.len]

def ChatMessage.wire (chat : ChatMessage) : ChatMessage :=
  { chat with
    conversationId := wireSlice chat.conversationId
    senderId := wireSlice chat.senderId
    recipientId := wireSlice chat.recipientId
    groupId := wireSlice chat.groupId
    replyTo := wireSlice chat.replyTo
    attachments := chat.attachments.map fun attachment =>
      { attachment with thumbnail := wireSlice attachment.thumbnail } }

def Command.wire (command : Command) : Command :=
  { command with
    targetId := wireSlice command.targetId
    payload := wireSlice command.payload }

def MediaChunk.wire (media : MediaChunk) : MediaChunk :=
  { media with
    streamId := wireSlice media.streamId
    data := wireSlice media.data
    hash := wireSlice media.hash }

def SenderKeyDistribution.wire (senderKey : SenderKeyDistribution) : SenderKeyDistribution :=
  { senderKey with
    groupId := wireSlice senderKey.groupId
    senderId := wireSlice senderKey.senderId
    chainKey := wireSlice senderKey.chainKey
    signingKey := wireSlice senderKey.signingKey }

def SignalingContent.wire : SignalingContent → SignalingContent
  | .offer sdp => .offer (some (sdp.getD {}))
  | .answer sdp => .answer (some (sdp.getD {}))
  | .iceCandidate candidate => .iceCandidate (some (candidate.getD {}))
  | .streamControl control =>
      let control := control.getD {}
      .streamControl (some { control with streamId := wireSlice control.streamId })

def SignalingMessage.wire (signaling : SignalingMessage) : SignalingMessage :=
  { recipientId := wireSlice signaling.recipientId
    streamId := wireSlice signaling.streamId
    content := signaling.content.map SignalingContent.wire }

def Ack.wire (ack : Ack) : Ack :=
  { ack with ackMessageId := wireSlice ack.ackMessageId }

def SyncRequest.wire (syncRequest : SyncRequest) : SyncRequest :=
  { syncRequest with lastSeenMessageId := wireSlice syncRequest.lastSeenMessageId }

def Body.wire : Body → Body
  | .chat body => .chat (some (body.getD {}).wire)
  | .command body => .command (some (body.getD {}).wire)
  | .media body => .media (some (body.getD {}).wire)
  | .ack body => .ack (some (body.getD {}).wire)
  | .ping body => .ping (some (body.getD {}))
  | .pong body => .pong (some (body.getD {}))
  | .senderKey body => .senderKey (some (body.getD {}).wire)
  | .syncRequest body => .syncRequest (some (body.getD {}).wire)
  | .signaling body => .signaling (some (body.getD {}).wire)

/-- The message a reader gets for a message that was written. -/
def AppMessage.wire (message : AppMessage) : AppMessage :=
  { message with
    messageId := wireSlice message.messageId
    body := message.body.map Body.wire }

/-- Documented behaviour of the runtime for one message: what was marshalled
unmarshals to the same message, absent bytes fields being `nil`. -/
def ProtoCodec.RoundTrips (codec : ProtoCodec) (message : AppMessage) : Prop :=
  ∀ payload, codec.marshal message = .ok payload →
    codec.unmarshal payload = .ok message.wire

/-- Messages with the same encoding are the same to a reader. -/
theorem ProtoCodec.wire_eq_of_marshal_eq {codec : ProtoCodec} {message other : AppMessage}
    (messageTrips : codec.RoundTrips message) (otherTrips : codec.RoundTrips other)
    {payload : Bytes} (ofMessage : codec.marshal message = .ok payload)
    (ofOther : codec.marshal other = .ok payload) : message.wire = other.wire :=
  Except.ok.inj ((messageTrips payload ofMessage).symm.trans (otherTrips payload ofOther))

/-- A runtime that knows some messages and frames with their encodings. -/
def ProtoCodec.ofList (messages : List (AppMessage × Bytes)) (frames : List (Frame × Bytes)) :
    ProtoCodec where
  marshal message :=
    match messages.find? fun known => known.1 = message with
    | some known => .ok known.2
    | none => .error "unknown message"
  unmarshal bytes :=
    match messages.find? fun known => known.2 = bytes with
    | some known => .ok known.1.wire
    | none => .error "cannot parse invalid wire-format data"
  unmarshalFrame bytes :=
    match frames.find? fun known => known.2 = bytes with
    | some known => .ok known.1
    | none => .error "cannot parse invalid wire-format data"

/-- A chat message to one user, and its encoding. -/
def sampleChat : AppMessage :=
  { messageId := some [7]
    body := some (.chat (some { senderId := some [1], recipientId := some [0xaa] })) }

def sampleChatPayload : Bytes := [0x0a, 1, 7, 0x1a, 6, 0x12, 1, 1, 0x1a, 1, 0xaa]

end FProto.Protocol

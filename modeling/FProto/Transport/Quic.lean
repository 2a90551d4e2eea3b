import FProto.Crypto.Noise
import FProto.Foundation.ByteStream
import FProto.Foundation.Endian

/-!
Owns the message framing on a QUIC stream: `ReadMessage` and `WriteMessage` of
`proto-core/transport/quic.go` and of `sdk/go/transport.go`.

A message is sent as its length in four bytes and its content. The two packages
differ in the labels of their errors and in the size limit, which only
proto-core's reader has.

**Main results.** From every prefix of what was sent, cut into chunks in any way, a
reader gets the messages that are there as a whole, and then errors:
`quic_framing_faithful`. That is for messages within the limit; a longer one is
written without an error and never read: `quic_sizes_agree_iff`.
-/

namespace FProto.Transport

open FProto.Foundation
open FProto.Crypto

/-- `quicMaxMsgSize`. -/
def quicMaxMsgSize : Nat := 65536

/-! ### Writing -/

/-- What `Write` returns: success, or how many bytes were written before an
error. -/
abbrev WriteResult := Except (Nat × String) Unit

/-- `stream.Write`, on the bytes written so far. -/
def streamWrite (written bytes : Bytes) : WriteResult → Except String Unit × Bytes
  | .ok () => (.ok (), written ++ bytes)
  | .error (count, error) => (.error error, written ++ bytes.take count)

/-- `WriteMessage`. -/
def writeMessage (package : Package) (written data : Bytes) (header payload : WriteResult) :
    Except String Unit × Bytes :=
  match streamWrite written (bigEndian32 (UInt32.ofNat data.length)) header with
  | (.error error, written) => (.error (package.labelled "quic write length" error), written)
  | (.ok (), written) =>
      match streamWrite written data payload with
      | (.error error, written) => (.error (package.labelled "quic write payload" error), written)
      | (.ok (), written) => (.ok (), written)

/-- The bytes on a healthy stream after some messages. -/
def sent (package : Package) (messages : List Bytes) : Bytes :=
  messages.foldl (fun written data => (writeMessage package written data (.ok ()) (.ok ())).2) []

/-! ### Reading -/

/-- The check of the length that only proto-core makes. -/
def tooLarge (package : Package) (msgLen : UInt32) : Bool :=
  match package with
  | .protoCore => quicMaxMsgSize < msgLen.toNat
  | .sdk => false

/-- The length in the four bytes of a header. -/
def headerLength (header : Bytes) : UInt32 :=
  fromBigEndian32 (header.getD 0 0) (header.getD 1 0) (header.getD 2 0) (header.getD 3 0)

/-- The second part of `ReadMessage`. -/
def readPayload (package : Package) (size : Nat) (stream : ByteStream) :
    Except String Bytes × ByteStream :=
  match stream.readFull size with
  | (.error error, stream) => (.error (package.labelled "quic read payload" error), stream)
  | (.ok buf, stream) => (.ok buf, stream)

/-- `ReadMessage`. -/
def readMessage (package : Package) (stream : ByteStream) : Except String Bytes × ByteStream :=
  match stream.readFull 4 with
  | (.error error, stream) => (.error (package.labelled "quic read length" error), stream)
  | (.ok header, stream) =>
      let msgLen := headerLength header
      if tooLarge package msgLen then
        (.error ("quic message too large: " ++ toString msgLen), stream)
      else readPayload package msgLen.toNat stream

/-- What repeated calls of `ReadMessage` return. -/
def readMessages (package : Package) : (calls : Nat) → ByteStream → List (Except String Bytes)
  | 0, _ => []
  | calls + 1, stream =>
      let (result, stream) := readMessage package stream
      result :: readMessages package calls stream

/-- Repeated reads return some messages, and errors from then on. -/
def ReadsThenFails (package : Package) (stream : ByteStream) (delivered : List Bytes) : Prop :=
  ∀ calls, ∃ errors : List String, errors.length = calls - delivered.length ∧
    readMessages package calls stream = (delivered.take calls).map .ok ++ errors.map .error

/-! ### Frames -/

/-- A message on the stream. -/
def frame (data : Bytes) : Bytes :=
  bigEndian32 (UInt32.ofNat data.length) ++ data

theorem writeMessage_healthy (package : Package) (written data : Bytes) :
    writeMessage package written data (.ok ()) (.ok ()) = (.ok (), written ++ frame data) := by
  show (Except.ok (), written ++ bigEndian32 (UInt32.ofNat data.length) ++ data) = _
  rw [List.append_assoc, frame]

theorem sent_eq (package : Package) (messages : List Bytes) :
    sent package messages = messages.flatMap frame := by
  have from_any : ∀ written,
      messages.foldl (fun written data => (writeMessage package written data (.ok ()) (.ok ())).2)
        written = written ++ messages.flatMap frame := by
    induction messages with
    | nil => exact fun written => (List.append_nil written).symm
    | cons data rest inductionHypothesis =>
        intro written
        rw [List.foldl_cons, writeMessage_healthy, inductionHypothesis, List.flatMap_cons,
          List.append_assoc]
  exact from_any []

@[simp] theorem length_frame (data : Bytes) : (frame data).length = 4 + data.length := by
  rw [frame, List.length_append, length_bigEndian32]

theorem frame_take (data rest : Bytes) :
    (frame data ++ rest).take 4 = bigEndian32 (UInt32.ofNat data.length) := by
  rw [frame, List.append_assoc]
  exact List.take_left' (length_bigEndian32 _)

theorem frame_drop (data rest : Bytes) : (frame data ++ rest).drop 4 = data ++ rest := by
  rw [frame, List.append_assoc]
  exact List.drop_left' (length_bigEndian32 _)

/-! ### One read -/

section Read

variable (package : Package) {stream : ByteStream} {data : Bytes}

/-- Whatever the length of a message, its header has it modulo 32 bits. -/
theorem readMessage_header {rest : Bytes} (isFrame : stream.bytes <+: frame data ++ rest)
    (header : 4 ≤ stream.bytes.length) :
    ∃ after : ByteStream, after.bytes = stream.bytes.drop 4 ∧
      readMessage package stream =
        if tooLarge package (UInt32.ofNat data.length) then
          (.error ("quic message too large: " ++ toString (UInt32.ofNat data.length)), after)
        else readPayload package (UInt32.ofNat data.length).toNat after := by
  obtain ⟨after, isRead, left, -⟩ := ByteStream.readFull_of_le header
  have isHeader : stream.bytes.take 4 = bigEndian32 (UInt32.ofNat data.length) := by
    rw [← frame_take data rest]
    obtain ⟨missing, isAll⟩ := isFrame
    rw [← isAll, List.take_append_of_le_length header]
  have length : headerLength (stream.bytes.take 4) = UInt32.ofNat data.length := by
    rw [isHeader]
    exact fromBigEndian32_bigEndian32 _
  refine ⟨after, left, ?_⟩
  rw [readMessage, isRead]
  dsimp only
  rw [length]

/-- The header of a message that fits passes the check. -/
theorem readMessage_after_header (fits : data.length ≤ quicMaxMsgSize) {rest : Bytes}
    (isFrame : stream.bytes <+: frame data ++ rest) (header : 4 ≤ stream.bytes.length) :
    ∃ after : ByteStream, after.bytes = stream.bytes.drop 4 ∧
      readMessage package stream = readPayload package data.length after := by
  have length : (UInt32.ofNat data.length).toNat = data.length :=
    UInt32.toNat_ofNat_of_lt' (Nat.lt_of_le_of_lt fits (by decide))
  have accepted : tooLarge package (UInt32.ofNat data.length) = false := by
    cases package with
    | sdk => rfl
    | protoCore =>
        show decide (quicMaxMsgSize < (UInt32.ofNat data.length).toNat) = false
        rw [length]
        exact decide_eq_false (Nat.not_lt.mpr fits)
  obtain ⟨after, left, isRead⟩ := readMessage_header package isFrame header
  refine ⟨after, left, ?_⟩
  rw [isRead, accepted, length]
  rfl

/-- A message that is there as a whole is returned. -/
theorem readMessage_frame (fits : data.length ≤ quicMaxMsgSize) {rest : Bytes}
    (isFrame : stream.bytes = frame data ++ rest) :
    ∃ after, readMessage package stream = (.ok data, after) ∧ after.bytes = rest := by
  have header : 4 ≤ stream.bytes.length := by
    rw [isFrame, List.length_append, length_frame]
    omega
  have isPrefix : stream.bytes <+: frame data ++ rest := ⟨[], by rw [isFrame, List.append_nil]⟩
  obtain ⟨after, left, isRead⟩ := readMessage_after_header package fits isPrefix header
  rw [isFrame, frame_drop] at left
  have payload : data.length ≤ after.bytes.length := by
    rw [left, List.length_append]
    omega
  obtain ⟨final, isPayload, remaining, -⟩ := ByteStream.readFull_of_le payload
  refine ⟨final, ?_, ?_⟩
  · rw [isRead, readPayload, isPayload, left, List.take_left]
  · rw [remaining, left, List.drop_left]

/-- A message that is there in part gives an error, and nothing is left. -/
theorem readMessage_truncated (fits : data.length ≤ quicMaxMsgSize)
    (isPart : stream.bytes <+: frame data) (short : stream.bytes.length < (frame data).length) :
    ∃ error after, readMessage package stream = (.error error, after) ∧ after.bytes = [] := by
  by_cases header : 4 ≤ stream.bytes.length
  · have isPrefix : stream.bytes <+: frame data ++ [] := by rwa [List.append_nil]
    obtain ⟨after, left, isRead⟩ := readMessage_after_header package fits isPrefix header
    have payload : after.bytes.length < data.length := by
      rw [length_frame] at short
      rw [left, List.length_drop]
      omega
    obtain ⟨final, isPayload, nothing, -⟩ := ByteStream.readFull_of_lt payload
    rw [isRead, readPayload, isPayload]
    exact ⟨_, final, rfl, nothing⟩
  · obtain ⟨after, isHeader, nothing, -⟩ := ByteStream.readFull_of_lt (Nat.not_le.mp header)
    rw [readMessage, isHeader]
    exact ⟨_, after, rfl, nothing⟩

/-- An empty stream is a message without any byte of it. -/
theorem readMessage_nil (nothing : stream.bytes = []) :
    ∃ error after, readMessage package stream = (.error error, after) ∧ after.bytes = [] := by
  have isPart : stream.bytes <+: frame [] := by
    rw [nothing]
    exact List.nil_prefix
  refine readMessage_truncated package (Nat.zero_le _) isPart ?_
  rw [nothing]
  decide

end Read

/-! ### Repeated reads -/

section Reads

variable {package : Package} {stream after : ByteStream}

theorem readMessages_succ {result : Except String Bytes}
    (isRead : readMessage package stream = (result, after)) (calls : Nat) :
    readMessages package (calls + 1) stream = result :: readMessages package calls after := by
  rw [readMessages, isRead]

/-- Some calls all return errors. -/
def Fails (package : Package) (stream : ByteStream) (calls : Nat) : Prop :=
  ∃ errors : List String, errors.length = calls ∧
    readMessages package calls stream = errors.map .error

theorem fails_succ {error : String} {calls : Nat}
    (isRead : readMessage package stream = (.error error, after))
    (rest : Fails package after calls) : Fails package stream (calls + 1) := by
  obtain ⟨errors, count, isRest⟩ := rest
  refine ⟨error :: errors, by rw [List.length_cons, count], ?_⟩
  rw [readMessages_succ isRead, isRest, List.map_cons]

theorem fails_nil (nothing : stream.bytes = []) (calls : Nat) : Fails package stream calls := by
  induction calls generalizing stream with
  | zero => exact ⟨[], rfl, rfl⟩
  | succ calls inductionHypothesis =>
      obtain ⟨error, after, isRead, left⟩ := readMessage_nil package nothing
      exact fails_succ isRead (inductionHypothesis left)

/-- Nothing is delivered when the first read fails and leaves nothing. -/
theorem readsThenFails_nil {error : String}
    (isRead : readMessage package stream = (.error error, after)) (nothing : after.bytes = []) :
    ReadsThenFails package stream [] := by
  intro calls
  cases calls with
  | zero => exact ⟨[], rfl, rfl⟩
  | succ calls =>
      obtain ⟨errors, count, isRest⟩ := fails_succ isRead (fails_nil nothing calls)
      refine ⟨errors, count, ?_⟩
      rw [isRest, List.take_nil, List.map_nil, List.nil_append]

theorem readsThenFails_cons {data : Bytes} {delivered : List Bytes}
    (isRead : readMessage package stream = (.ok data, after))
    (reads : ReadsThenFails package after delivered) :
    ReadsThenFails package stream (data :: delivered) := by
  intro calls
  cases calls with
  | zero => exact ⟨[], (Nat.zero_sub _).symm, rfl⟩
  | succ calls =>
      obtain ⟨errors, count, isRest⟩ := reads calls
      refine ⟨errors, by rw [count, List.length_cons, Nat.add_sub_add_right], ?_⟩
      rw [readMessages_succ isRead, isRest]
      rfl

/-- From a prefix of the frames a reader gets the whole ones. -/
theorem reads_prefix {messages : List Bytes}
    (sized : ∀ data ∈ messages, data.length ≤ quicMaxMsgSize)
    (isPrefix : stream.bytes <+: messages.flatMap frame) :
    ∃ delivered, delivered <+: messages ∧
      (delivered = messages ↔ stream.bytes = messages.flatMap frame) ∧
      ReadsThenFails package stream delivered := by
  induction messages generalizing stream with
  | nil =>
      have nothing : stream.bytes = [] := List.prefix_nil.mp isPrefix
      obtain ⟨error, after, isRead, left⟩ := readMessage_nil package nothing
      exact ⟨[], List.prefix_rfl, iff_of_true rfl nothing, readsThenFails_nil isRead left⟩
  | cons data rest inductionHypothesis =>
      have fits : data.length ≤ quicMaxMsgSize := sized data List.mem_cons_self
      rw [List.flatMap_cons] at isPrefix ⊢
      by_cases short : stream.bytes.length < (frame data).length
      · -- The first message is cut.
        have isPart : stream.bytes <+: frame data :=
          List.prefix_of_prefix_length_le isPrefix (List.prefix_append _ _) (Nat.le_of_lt short)
        obtain ⟨error, after, isRead, left⟩ := readMessage_truncated package fits isPart short
        refine ⟨[], List.nil_prefix, iff_of_false (List.cons_ne_nil _ _).symm ?_,
          readsThenFails_nil isRead left⟩
        intro isAll
        rw [isAll, List.length_append] at short
        omega
      · obtain ⟨more, isMore⟩ : frame data <+: stream.bytes :=
          List.prefix_of_prefix_length_le (List.prefix_append _ _) isPrefix (Nat.not_lt.mp short)
        rw [← isMore, List.prefix_append_right_inj] at isPrefix
        obtain ⟨after, isRead, left⟩ := readMessage_frame package fits isMore.symm
        obtain ⟨delivered, isDelivered, complete, reads⟩ := inductionHypothesis
          (fun other member => sized other (List.mem_cons_of_mem _ member)) (left ▸ isPrefix)
        refine ⟨data :: delivered, List.prefix_cons_inj data |>.mpr isDelivered, ?_,
          readsThenFails_cons isRead reads⟩
        rw [← isMore, List.append_cancel_left_eq, ← left, ← complete, List.cons.injEq]
        exact and_iff_right rfl

end Reads

/-- **Framing is faithful and safe on prefixes.** Whatever part of the stream has
arrived, and however it is cut, the reader returns a prefix of the messages and
then errors, and it returns all messages exactly when the whole stream arrived. -/
theorem quic_framing_faithful (writer reader : Package) {messages : List Bytes}
    (sized : ∀ data ∈ messages, data.length ≤ quicMaxMsgSize) {stream : ByteStream}
    (isPrefix : stream.bytes <+: sent writer messages) :
    ∃ delivered, delivered <+: messages ∧
      (delivered = messages ↔ stream.bytes = sent writer messages) ∧
      ReadsThenFails reader stream delivered := by
  rw [sent_eq] at isPrefix ⊢
  exact reads_prefix sized isPrefix

def sampleMessages : List Bytes := [[7, 8], [], [9, 9]]

/-- All but the last byte of the messages, cut inside the first header. -/
def cutStream : ByteStream where
  chunks := [[0, 0], [], [0, 2, 7, 8, 0, 0], [0, 0, 0, 0, 0, 2, 9]]
  ended := "EOF"
  eager := true

theorem quic_framing_faithful_cut :
    cutStream.bytes ≠ sent .sdk sampleMessages ∧
      ∃ delivered, delivered <+: sampleMessages ∧
        (delivered = sampleMessages ↔ cutStream.bytes = sent .sdk sampleMessages) ∧
        ReadsThenFails .protoCore cutStream delivered := by
  have isPrefix : cutStream.bytes <+: sent .sdk sampleMessages := ⟨[9], by decide⟩
  exact ⟨by decide, quic_framing_faithful .sdk .protoCore (by decide) isPrefix⟩

/-! ### Sizes

`WriteMessage` has no limit and narrows the length to 32 bits; proto-core's
`ReadMessage` refuses what is over the limit and leaves the content unread. -/

section Sizes

variable {stream : ByteStream} {data rest : Bytes}

theorem four_le_of_frame (isFrame : stream.bytes = frame data ++ rest) :
    4 ≤ stream.bytes.length := by
  rw [isFrame, List.length_append, length_frame]
  omega

/-- A length over the limit is reported, and the content stays on the stream. -/
theorem readMessage_tooLarge (isFrame : stream.bytes = frame data ++ rest)
    (tooLong : quicMaxMsgSize < (UInt32.ofNat data.length).toNat) :
    ∃ after : ByteStream, after.bytes = data ++ rest ∧
      readMessage .protoCore stream =
        (.error ("quic message too large: " ++ toString (UInt32.ofNat data.length)), after) := by
  obtain ⟨after, left, isRead⟩ := readMessage_header .protoCore
    (⟨[], by rw [isFrame, List.append_nil]⟩ : stream.bytes <+: frame data ++ rest)
    (four_le_of_frame isFrame)
  refine ⟨after, by rw [left, isFrame, frame_drop], ?_⟩
  rw [isRead]
  exact if_pos (decide_eq_true tooLong)

/-- A length that wraps below the limit delivers the start of the message, and the
remainder stays on the stream. -/
theorem readMessage_wrapped (isFrame : stream.bytes = frame data ++ rest)
    (within : (UInt32.ofNat data.length).toNat ≤ quicMaxMsgSize) :
    (readMessage .protoCore stream).1 =
      .ok ((data ++ rest).take (UInt32.ofNat data.length).toNat) := by
  obtain ⟨after, left, isRead⟩ := readMessage_header .protoCore
    (⟨[], by rw [isFrame, List.append_nil]⟩ : stream.bytes <+: frame data ++ rest)
    (four_le_of_frame isFrame)
  rw [isFrame, frame_drop] at left
  have narrowed : (UInt32.ofNat data.length).toNat ≤ data.length := by
    rw [UInt32.toNat_ofNat']
    exact Nat.mod_le _ _
  have enough : (UInt32.ofNat data.length).toNat ≤ after.bytes.length := by
    rw [left, List.length_append]
    omega
  obtain ⟨final, isPayload, -, -⟩ := ByteStream.readFull_of_le enough
  have accepted : tooLarge .protoCore (UInt32.ofNat data.length) = false :=
    decide_eq_false (Nat.not_lt.mpr within)
  rw [isRead, accepted, readPayload, isPayload, left]
  rfl

/-- A message is read as it was written exactly when it is within the limit. -/
theorem readMessage_eq_ok_iff (isFrame : stream.bytes = frame data ++ rest) :
    (readMessage .protoCore stream).1 = .ok data ↔ data.length ≤ quicMaxMsgSize := by
  constructor
  · intro isData
    by_cases within : (UInt32.ofNat data.length).toNat ≤ quicMaxMsgSize
    · rw [readMessage_wrapped isFrame within] at isData
      have lengths := congrArg List.length (Except.ok.inj isData)
      rw [List.length_take, List.length_append] at lengths
      omega
    · obtain ⟨after, -, isRead⟩ := readMessage_tooLarge isFrame (Nat.not_le.mp within)
      rw [isRead] at isData
      cases isData
  · intro fits
    obtain ⟨after, isRead, -⟩ := readMessage_frame .protoCore fits isFrame
    rw [isRead]

/-- All messages on a stream are read as they were written exactly when each is
within the limit. -/
theorem readMessages_eq_map_ok_iff {messages : List Bytes}
    (arrived : stream.bytes = messages.flatMap frame) :
    readMessages .protoCore messages.length stream = messages.map .ok ↔
      ∀ data ∈ messages, data.length ≤ quicMaxMsgSize := by
  induction messages generalizing stream with
  | nil => exact iff_of_true rfl fun data none => by cases none
  | cons data later inductionHypothesis =>
      rw [List.flatMap_cons] at arrived
      have calls : readMessages .protoCore (data :: later).length stream =
          (readMessage .protoCore stream).1 ::
            readMessages .protoCore later.length (readMessage .protoCore stream).2 := rfl
      rw [calls, List.map_cons, List.cons.injEq,
        readMessage_eq_ok_iff arrived, List.forall_mem_cons]
      apply and_congr_right
      intro fits
      obtain ⟨after, isRead, left⟩ := readMessage_frame .protoCore fits arrived
      rw [isRead]
      exact inductionHypothesis left

end Sizes

/-- **Writer and reader disagree over 65536 bytes.** Every write on a healthy stream
succeeds. The peer reads a message as it was written exactly when it has at most
65536 bytes, and reads everything on the stream as it was written exactly when
that holds of every message on it, whatever the lengths and the chunks. -/
theorem quic_sizes_agree_iff (data : Bytes) (later : List Bytes) {stream : ByteStream}
    (arrived : stream.bytes = sent .protoCore (data :: later)) :
    (∀ written, (writeMessage .protoCore written data (.ok ()) (.ok ())).1 = .ok ()) ∧
      ((readMessage .protoCore stream).1 = .ok data ↔ data.length ≤ quicMaxMsgSize) ∧
      (readMessages .protoCore (data :: later).length stream = (data :: later).map .ok ↔
        ∀ message ∈ data :: later, message.length ≤ quicMaxMsgSize) := by
  rw [sent_eq] at arrived
  refine ⟨?_, readMessage_eq_ok_iff arrived, readMessages_eq_map_ok_iff arrived⟩
  intro written
  rw [writeMessage_healthy]

/-- What arrives of some messages, in one chunk. -/
def arrivedWhole (messages : List Bytes) : ByteStream where
  chunks := [sent .protoCore messages]
  ended := "EOF"
  eager := false

theorem bytes_arrivedWhole (messages : List Bytes) :
    (arrivedWhole messages).bytes = sent .protoCore messages :=
  List.append_nil _

theorem quic_sizes_agree_iff_short :
    readMessages .protoCore 2 (arrivedWhole [[1, 2], [3]]) = [.ok [1, 2], .ok [3]] :=
  ((quic_sizes_agree_iff [1, 2] [[3]] (bytes_arrivedWhole _)).2.2).mpr (by decide)

/-- One byte over the limit. -/
def overLimit : Bytes := List.replicate (quicMaxMsgSize + 1) 0

/-- The write succeeds, the read fails, and the next read takes the content for a
header instead of returning the message that follows. -/
theorem overLimit_desynchronises :
    (writeMessage .protoCore [] overLimit (.ok ()) (.ok ())).1 = .ok () ∧
      readMessages .protoCore 2 (arrivedWhole [overLimit, [7]]) =
        [.error "quic message too large: 65537", .ok []] := by
  have length : UInt32.ofNat overLimit.length = 65537 := by
    rw [overLimit, List.length_replicate]
    rfl
  have isFrame : (arrivedWhole [overLimit, [7]]).bytes = frame overLimit ++ frame [7] := by
    rw [bytes_arrivedWhole, sent_eq, List.flatMap_cons, List.flatMap_singleton]
  obtain ⟨after, left, first⟩ := readMessage_tooLarge isFrame (by rw [length]; decide)
  -- Four zero bytes of the content are the header of an empty message.
  have zeros : overLimit = List.replicate 4 0 ++ List.replicate 65533 0 := by
    rw [overLimit, List.replicate_append_replicate]
    rfl
  have isEmpty : after.bytes = frame [] ++ (List.replicate 65533 0 ++ frame [7]) := by
    rw [left, zeros, List.append_assoc]
    rfl
  obtain ⟨final, second, -⟩ := readMessage_frame .protoCore (Nat.zero_le _) isEmpty
  refine ⟨by rw [writeMessage_healthy], ?_⟩
  rw [readMessages_succ first, readMessages_succ second, length]
  rfl

end FProto.Transport

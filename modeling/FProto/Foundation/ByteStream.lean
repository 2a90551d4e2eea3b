import FProto.Foundation.Bytes

/-!
Owns a byte stream that arrives in chunks, and `io.ReadFull` on it.

A read returns at most one chunk, or the rest of one. How the stream is cut into
chunks, and whether its end is reported with the last bytes or after them, does
not change what `ReadFull` returns: `readFull_of_le` and `readFull_of_lt`.
-/

namespace FProto.Foundation

/-- The chunks still to come, the error at the end, and whether it is reported
together with the last chunk. -/
structure ByteStream where
  chunks : List Bytes
  ended : String
  eager : Bool

namespace ByteStream

/-- All bytes still to come. -/
def bytes (stream : ByteStream) : Bytes :=
  stream.chunks.flatten

/-- `Read` into a buffer that is not empty. -/
def read (stream : ByteStream) (size : Nat) : Bytes × Option String × ByteStream :=
  match stream.chunks with
  | [] => ([], some stream.ended, stream)
  | chunk :: rest =>
      if size < chunk.length then
        (chunk.take size, none, { stream with chunks := chunk.drop size :: rest })
      else
        (chunk, if stream.eager && rest.isEmpty then some stream.ended else none,
          { stream with chunks := rest })

/-- The error of `ReadFull` for an error of `Read`, after some bytes. -/
def readFullError (got : Bytes) (error : String) : String :=
  if got ≠ [] ∧ error = "EOF" then "unexpected EOF" else error

/-- A read that neither fills the buffer nor fails takes a chunk off. -/
theorem length_read_lt {stream after : ByteStream} {size : Nat} {found : Bytes}
    (isRead : stream.read size = (found, none, after)) (short : found.length ≠ size) :
    after.chunks.length < stream.chunks.length := by
  unfold read at isRead
  split at isRead
  · cases isRead
  · rename_i chunk rest isChunks
    rw [isChunks]
    split at isRead
    · rename_i long
      cases isRead
      exact absurd (List.length_take_of_le (Nat.le_of_lt long)) short
    · injection isRead with _ others
      injection others with _ isAfter
      rw [← isAfter]
      exact Nat.lt_succ_self _

/-- The loop of `ReadFull`, with the bytes it has. An error that comes with the
last wanted byte is dropped. -/
def readFullFrom (stream : ByteStream) (wanted : Nat) (got : Bytes) :
    Except String Bytes × ByteStream :=
  if wanted = 0 then (.ok got, stream)
  else
    match isRead : stream.read wanted with
    | (found, some error, after) =>
        if found.length = wanted then (.ok (got ++ found), after)
        else (.error (readFullError (got ++ found) error), after)
    | (found, none, after) =>
        if short : found.length = wanted then (.ok (got ++ found), after)
        else
          have := length_read_lt isRead short
          readFullFrom after (wanted - found.length) (got ++ found)
termination_by stream.chunks.length

/-- `io.ReadFull`. -/
def readFull (stream : ByteStream) (size : Nat) : Except String Bytes × ByteStream :=
  stream.readFullFrom size []

/-! ### What a read returns -/

/-- A read returns the first bytes of the stream, and the end of the stream only
with the last ones. -/
structure ReadsFrom (stream : ByteStream) (size : Nat) (found : Bytes) (failure : Option String)
    (after : ByteStream) : Prop where
  split : stream.bytes = found ++ after.bytes
  fits : found.length ≤ size
  ended : after.ended = stream.ended
  failed : ∀ error, failure = some error → error = stream.ended ∧ after.bytes = []

theorem readsFrom_read {stream after : ByteStream} {size : Nat} {found : Bytes}
    {failure : Option String} (isRead : stream.read size = (found, failure, after)) :
    ReadsFrom stream size found failure after := by
  unfold read at isRead
  split at isRead
  · rename_i isChunks
    cases isRead
    have nothing : stream.bytes = [] := by rw [bytes, isChunks, List.flatten_nil]
    refine ⟨by rw [nothing, List.append_nil], Nat.zero_le _, rfl, ?_⟩
    intro error isError
    exact ⟨(Option.some.inj isError).symm, nothing⟩
  · rename_i chunk rest isChunks
    split at isRead
    · rename_i long
      cases isRead
      refine ⟨?_, List.length_take_le _ _, rfl, fun _ impossible => by cases impossible⟩
      show stream.chunks.flatten = chunk.take size ++ (chunk.drop size :: rest).flatten
      rw [isChunks, List.flatten_cons, List.flatten_cons, ← List.append_assoc,
        List.take_append_drop]
    · rename_i notLong
      cases isRead
      refine ⟨?_, Nat.not_lt.mp notLong, rfl, ?_⟩
      · rw [bytes, isChunks, List.flatten_cons]
        rfl
      · intro error isError
        split at isError
        · rename_i last
          have isLast : rest = [] := by
            rw [Bool.and_eq_true] at last
            exact List.isEmpty_iff.mp last.2
          exact ⟨(Option.some.inj isError).symm, by rw [bytes, isLast, List.flatten_nil]⟩
        · cases isError

/-- A read that fills the buffer. -/
theorem ReadsFrom.filled {stream after : ByteStream} {found : Bytes} {failure : Option String}
    (reads : ReadsFrom stream found.length found failure after) (got : Bytes) :
    (Except.ok (got ++ found), after) =
        ((Except.ok (got ++ stream.bytes.take found.length), after) :
          Except String Bytes × ByteStream) ∧
      after.bytes = stream.bytes.drop found.length ∧ after.ended = stream.ended := by
  rw [reads.split, List.take_left, List.drop_left]
  exact ⟨rfl, rfl, reads.ended⟩

theorem readFullFrom_of_le {stream : ByteStream} {wanted : Nat} {got : Bytes}
    (enough : wanted ≤ stream.bytes.length) :
    ∃ after, stream.readFullFrom wanted got = (.ok (got ++ stream.bytes.take wanted), after) ∧
      after.bytes = stream.bytes.drop wanted ∧ after.ended = stream.ended := by
  fun_induction readFullFrom stream wanted got with
  | case1 stream got =>
      refine ⟨stream, ?_, rfl, rfl⟩
      rw [List.take_zero, List.append_nil]
  | case2 stream got found error after _ isRead =>
      exact ⟨after, (readsFrom_read isRead).filled got⟩
  | case3 stream wanted got _ found error after isRead short =>
      -- The stream ended, so all its bytes were found.
      have reads := readsFrom_read isRead
      have all : stream.bytes.length = found.length := by
        rw [reads.split, (reads.failed error rfl).2, List.append_nil]
      exact absurd (Nat.le_antisymm reads.fits (all ▸ enough)) short
  | case4 stream got found after _ isRead =>
      exact ⟨after, (readsFrom_read isRead).filled got⟩
  | case5 stream wanted got _ found after isRead short _ inductionHypothesis =>
      have reads := readsFrom_read isRead
      have length : stream.bytes.length = found.length + after.bytes.length := by
        rw [reads.split, List.length_append]
      have rest : wanted = found.length + (wanted - found.length) := by
        have fits := reads.fits
        omega
      obtain ⟨final, isFinal, left, ended⟩ := inductionHypothesis (by omega)
      refine ⟨final, ?_, ?_, ended.trans reads.ended⟩
      · rw [isFinal, rest, reads.split, List.take_length_add_append, Nat.add_sub_cancel_left,
          List.append_assoc]
      · rw [left, rest, reads.split, List.drop_length_add_append, Nat.add_sub_cancel_left]

theorem readFullFrom_of_lt {stream : ByteStream} {wanted : Nat} {got : Bytes}
    (tooFew : stream.bytes.length < wanted) :
    ∃ after, stream.readFullFrom wanted got =
        (.error (readFullError (got ++ stream.bytes) stream.ended), after) ∧
      after.bytes = [] ∧ after.ended = stream.ended := by
  fun_induction readFullFrom stream wanted got with
  | case1 stream got => exact absurd tooFew (Nat.not_lt_zero _)
  | case2 stream got found error after _ isRead =>
      rw [(readsFrom_read isRead).split, List.length_append] at tooFew
      omega
  | case3 stream wanted got _ found error after isRead short =>
      have reads := readsFrom_read isRead
      obtain ⟨isEnd, nothing⟩ := reads.failed error rfl
      refine ⟨after, ?_, nothing, reads.ended⟩
      rw [reads.split, nothing, List.append_nil, isEnd]
  | case4 stream got found after _ isRead =>
      rw [(readsFrom_read isRead).split, List.length_append] at tooFew
      omega
  | case5 stream wanted got _ found after isRead short _ inductionHypothesis =>
      have reads := readsFrom_read isRead
      rw [reads.split, List.length_append] at tooFew
      obtain ⟨final, isFinal, nothing, ended⟩ := inductionHypothesis (by omega)
      refine ⟨final, ?_, nothing, ended.trans reads.ended⟩
      rw [isFinal, reads.split, List.append_assoc, reads.ended]

/-- `ReadFull` of bytes the stream has. -/
theorem readFull_of_le {stream : ByteStream} {size : Nat} (enough : size ≤ stream.bytes.length) :
    ∃ after, stream.readFull size = (.ok (stream.bytes.take size), after) ∧
      after.bytes = stream.bytes.drop size ∧ after.ended = stream.ended :=
  readFullFrom_of_le enough

/-- `ReadFull` of more bytes than the stream has. -/
theorem readFull_of_lt {stream : ByteStream} {size : Nat} (tooFew : stream.bytes.length < size) :
    ∃ after, stream.readFull size = (.error (readFullError stream.bytes stream.ended), after) ∧
      after.bytes = [] ∧ after.ended = stream.ended :=
  readFullFrom_of_lt tooFew

end ByteStream

end FProto.Foundation

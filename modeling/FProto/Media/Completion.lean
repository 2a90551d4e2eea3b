import FProto.Foundation.Execution
import FProto.Media.Service

/-!
Owns what `Service.CompleteUpload` accepts when neither the database nor S3 fails.

The RPC is documented to verify the hash of the file. The code looks at the status,
at the object and at its size.

**Main result.** A call accepts exactly the right uploads unless everything but the
hash is right: `completeUpload_exact_iff`.
-/

namespace FProto.Media

open FProto.Foundation

/-- A command while database and S3 are available. -/
def execAvailable (command : Command) : Choice → State → Option (Reply command × State)
  | .fail _, _ => none
  | choice, state => exec command choice state

/-- The upload is open and its object is there with the announced size. -/
def Stored (state : State) (row : Row) : Prop :=
  row.status = .uploading ∧ state.objects row.s3Key = some row.totalSize

/-- Every call of `CompleteUpload` for the row returns. It succeeds exactly when the
upload is stored and the presented hash is the recorded one, a success completes the
row, and an error leaves it as it is. -/
def CompletesExactly (state : State) (streamId : Bytes) (row : Row) (fileHash : Slice) : Prop :=
  (∃ log result after,
    Executes execAvailable (Service.completeUpload streamId fileHash) state log result after) ∧
  ∀ log result after,
    Executes execAvailable (Service.completeUpload streamId fileHash) state log result after →
    ((∃ downloadURL, result = .ok downloadURL) ↔
      Stored state row ∧ fileHash.bytes = row.fileHash.bytes) ∧
    (∀ downloadURL, result = .ok downloadURL →
      after.table streamId = some { row with status := .completed, s3Url := some downloadURL }) ∧
    ∀ error, result = .error error → after.table streamId = some row

/-! ### Commands that do not fail -/

section Commands

variable {state after : State} {choice : Choice}

theorem select_available {streamId : Bytes} {reply : Reply (.select streamId)}
    (executed : execAvailable (.select streamId) choice state = some (reply, after)) :
    reply = .ok (state.table streamId) ∧ after = state := by
  cases choice <;> cases executed
  exact ⟨rfl, rfl⟩

theorem stat_available {key : Bytes} {reply : Reply (.stat key)}
    (executed : execAvailable (.stat key) choice state = some (reply, after)) :
    reply = .ok (state.objects key) ∧ after = state := by
  cases choice <;> cases executed
  exact ⟨rfl, rfl⟩

theorem presignGet_available {key : Bytes} {reply : Reply (.presignGet key)}
    (executed : execAvailable (.presignGet key) choice state = some (reply, after)) :
    ∃ url, reply = .ok url ∧ after = state := by
  cases choice <;> cases executed
  exact ⟨_, rfl, rfl⟩

theorem markCompleted_available {streamId s3Url : Bytes}
    {reply : Reply (.markCompleted streamId s3Url)}
    (executed : execAvailable (.markCompleted streamId s3Url) choice state = some (reply, after)) :
    reply = .ok () ∧ after = { state with table := markCompleted state.table streamId s3Url } := by
  cases choice <;> cases executed
  exact ⟨rfl, rfl⟩

/-- Every call returns. -/
theorem exists_executes_available {Result : Type} (code : Code Result) (state : State) :
    ∃ log result after, Executes execAvailable code state log result after := by
  have settles : ∀ command state, ∃ choice reply after,
      execAvailable command choice state = some (reply, after) ∧ True := by
    intro command state
    cases command with
    | rand => exact ⟨.random (List.replicate 16 0), _, _, rfl, trivial⟩
    | now => exact ⟨.time 0, _, _, rfl, trivial⟩
    | presignPut key => exact ⟨.url [], _, _, rfl, trivial⟩
    | presignGet key => exact ⟨.url [], _, _, rfl, trivial⟩
    | _ => exact ⟨.ok, _, _, rfl, trivial⟩
  obtain ⟨log, result, after, executes, -⟩ :=
    @exists_executes _ _ _ _ _ execAvailable (fun _ => True) settles code state
  exact ⟨log, result, after, executes⟩

end Commands

/-! ### The call -/

section Call

variable {state after : State} {streamId : Bytes} {row : Row} {s3Url : Bytes}
  {log : List (Executed Command Reply)}

theorem getByStreamID_available (isRow : state.table streamId = some row)
    (readable : row.s3Url = some s3Url) {result : Except String Upload}
    (executes : Executes execAvailable (Store.getByStreamID streamId) state log result after) :
    result =
        .ok ⟨streamId, row.userId, row.mimeType, row.totalSize, row.status, row.s3Key, s3Url,
          row.fileHash⟩ ∧ after = state := by
  rw [Store.getByStreamID, Program.issue_bind] at executes
  cases executes with
  | call executed rest =>
      obtain ⟨rfl, rfl⟩ := select_available executed
      rw [isRow] at rest
      dsimp only at rest
      rw [scan, readable] at rest
      cases rest
      exact ⟨rfl, rfl⟩

theorem finishUpload_available {upload : Upload} {result : Except String Bytes}
    (executes : Executes execAvailable (Service.finishUpload streamId upload) state log result
      after) :
    ∃ downloadURL, result = .ok downloadURL ∧
      after = { state with table := markCompleted state.table streamId downloadURL } := by
  unfold Service.finishUpload at executes
  obtain ⟨signed, middle, early, late, -, signing, finishing⟩ := executes.bind_inv
  rw [S3.presignedGetURL, Program.issue_bind] at signing
  cases signing with
  | call executed returned =>
      obtain ⟨url, rfl, rfl⟩ := presignGet_available executed
      cases returned
      cases finishing with
      | call marked returned =>
          obtain ⟨rfl, rfl⟩ := markCompleted_available marked
          cases returned
          exact ⟨url, rfl, rfl⟩

/-- **The call.** It completes the row of a stored upload, and does nothing
otherwise; the hash plays no part. -/
theorem completeUpload_available (isRow : state.table streamId = some row)
    (readable : row.s3Url = some s3Url) {fileHash : Slice} {result : Except String Bytes}
    (executes : Executes execAvailable (Service.completeUpload streamId fileHash) state log result
      after) :
    (Stored state row ∧ ∃ downloadURL, result = .ok downloadURL ∧
      after = { state with table := markCompleted state.table streamId downloadURL }) ∨
    (¬Stored state row ∧ (∃ error, result = .error error) ∧ after = state) := by
  unfold Service.completeUpload at executes
  obtain ⟨read, middle, early, late, -, reading, following⟩ := executes.bind_inv
  obtain ⟨rfl, unread⟩ := getByStreamID_available isRow readable reading
  rw [unread] at following
  dsimp only at following
  split at following
  · next closed =>
    cases following
    exact .inr ⟨fun stored => closed stored.1, ⟨_, rfl⟩, rfl⟩
  · next opened =>
    have uploading : row.status = .uploading := of_not_not opened
    rw [S3.objectExists, Program.issue_bind] at following
    cases following with
    | call executed rest =>
        obtain ⟨rfl, untouched⟩ := stat_available executed
        rw [untouched] at rest
        cases object : state.objects row.s3Key with
        | none =>
            rw [object] at rest
            cases rest
            refine .inr ⟨fun stored => ?_, ⟨_, rfl⟩, rfl⟩
            have present := stored.2
            rw [object] at present
            cases present
        | some size =>
            rw [object] at rest
            dsimp only at rest
            split at rest
            · next different =>
              cases rest
              refine .inr ⟨fun stored => different ?_, ⟨_, rfl⟩, rfl⟩
              have present := stored.2
              rw [object] at present
              exact Option.some.inj present
            · next same =>
              have sized : size = row.totalSize := of_not_not same
              refine .inl ⟨⟨uploading, by rw [object, sized]⟩, finishUpload_available rest⟩

end Call

/-- **`CompleteUpload` accepts exactly the right uploads unless everything but the hash
is right**, for every row that can be read. -/
theorem completeUpload_exact_iff {state : State} {streamId : Bytes} {row : Row} {s3Url : Bytes}
    (isRow : state.table streamId = some row) (readable : row.s3Url = some s3Url)
    (fileHash : Slice) :
    CompletesExactly state streamId row fileHash ↔
      (Stored state row → fileHash.bytes = row.fileHash.bytes) := by
  obtain ⟨log, result, after, executes⟩ :=
    exists_executes_available (Service.completeUpload streamId fileHash) state
  constructor
  · intro exactly stored
    rcases completeUpload_available isRow readable executes with ⟨-, url, isOk, -⟩ | ⟨unstored, -⟩
    · exact ((exactly.2 log result after executes).1.mp ⟨url, isOk⟩).2
    · exact absurd stored unstored
  · intro matching
    refine ⟨⟨log, result, after, executes⟩, fun log result after executes => ?_⟩
    rcases completeUpload_available isRow readable executes with
      ⟨stored, url, rfl, rfl⟩ | ⟨unstored, ⟨error, rfl⟩, rfl⟩
    · refine ⟨⟨fun _ => ⟨stored, matching stored⟩, fun _ => ⟨url, rfl⟩⟩, ?_, ?_⟩
      · intro downloadURL isOk
        cases isOk
        show markCompleted state.table streamId url streamId = _
        rw [markCompleted, Function.update_self, isRow]
        rfl
      · intro error impossible
        cases impossible
    · refine ⟨⟨?_, fun right => absurd right.1 unstored⟩, ?_, fun _ _ => isRow⟩
      · rintro ⟨downloadURL, impossible⟩
        cases impossible
      · intro downloadURL impossible
        cases impossible

def sampleRow : Row where
  userId := [1]
  mimeType := utf8 "image/png"
  totalSize := 3
  status := .uploading
  s3Key := utf8 "uploads/01/07"
  s3Url := some []
  fileHash := some [4]

/-- One row, whose object is in the bucket. -/
def sampleState : State where
  table streamId := if streamId = [7] then some sampleRow else none
  objects key := if key = utf8 "uploads/01/07" then some 3 else none

theorem completeUpload_exact_sample : CompletesExactly sampleState [7] sampleRow (some [4]) := by
  have isRow : sampleState.table [7] = some sampleRow := rfl
  have readable : sampleRow.s3Url = some [] := rfl
  exact (completeUpload_exact_iff isRow readable (some [4])).mpr fun _ => rfl

/-- An upload is completed with another hash than the recorded one. -/
theorem wrong_hash_completed :
    sampleRow.fileHash = some [4] ∧
      ((Service.completeUpload [7] (some [9])).run execAvailable [.ok, .ok, .url (utf8 "get"), .ok]
          sampleState).map (fun outcome => (outcome.1, outcome.2.table [7])) =
        some (.ok (utf8 "get"),
          some { sampleRow with status := .completed, s3Url := some (utf8 "get") }) :=
  ⟨rfl, rfl⟩

end FProto.Media

import FProto.Foundation.Bytes
import FProto.Foundation.Program
import Mathlib.Logic.Function.Basic

/-!
Owns `server/internal/media/store.go` and `s3.go` with the types of `model.go`: the
table `media_uploads`, the bucket, and the commands that the media service issues
on them.

A stream id is unique in the table, so the table is a function of it. The serial
number and the time stamps of a row are not modelled. What the input function of
the column `mime_type` refuses, the URLs of S3 and random bytes come from the
environment, and so do failures of the two systems.
-/

namespace FProto.Media

open FProto.Foundation

/-- `Status`, the four values the `CHECK` constraint admits. -/
inductive Status where
  | uploading
  | completed
  | failed
  | expired
deriving DecidableEq

def Status.text : Status → String
  | .uploading => "uploading"
  | .completed => "completed"
  | .failed => "failed"
  | .expired => "expired"

/-- A row of `media_uploads`. Two columns are nullable. -/
structure Row where
  userId : Bytes
  mimeType : Bytes
  totalSize : Int64
  status : Status
  s3Key : Bytes
  s3Url : Option Bytes
  fileHash : Slice
deriving DecidableEq

/-- `Upload` as `GetByStreamID` returns it. -/
structure Upload where
  streamId : Bytes
  userId : Bytes
  mimeType : Bytes
  totalSize : Int64
  status : Status
  s3Key : Bytes
  s3Url : Bytes
  fileHash : Slice
deriving DecidableEq

/-- What `Insert` reads of the upload it is given. -/
structure NewUpload where
  streamId : Bytes
  userId : Slice
  mimeType : Bytes
  totalSize : Int64
  s3Key : Bytes
  fileHash : Slice
deriving DecidableEq

/-! ### Statements -/

abbrev Table := Bytes → Option Row

/-- The statement of `Store.Insert`. It leaves `s3_url` out. -/
def insert (table : Table) (upload : NewUpload) (refused : Option String) :
    Except String Table :=
  match upload.userId, refused with
  | none, _ =>
      .error ("null value in column \"user_id\" of relation \"media_uploads\" " ++
        "violates not-null constraint")
  | _, some error => .error error
  | some userId, none =>
      if (table upload.streamId).isSome then
        .error ("duplicate key value violates unique constraint " ++
          "\"media_uploads_stream_id_key\"")
      else
        .ok (Function.update table upload.streamId (some
          { userId
            mimeType := upload.mimeType
            totalSize := upload.totalSize
            status := .uploading
            s3Key := upload.s3Key
            s3Url := none
            fileHash := upload.fileHash }))

/-- The statement of `Store.MarkCompleted`. -/
def markCompleted (table : Table) (streamId s3Url : Bytes) : Table :=
  Function.update table streamId
    ((table streamId).map fun row => { row with status := .completed, s3Url := some s3Url })

/-- `row.Scan`, which cannot put `NULL` into a string. -/
def scan (streamId : Bytes) (row : Row) : Except String Upload :=
  match row.s3Url with
  | none => .error "can't scan into dest[7] (col: s3_url): cannot scan NULL into *string"
  | some s3Url =>
      .ok
        { streamId
          userId := row.userId
          mimeType := row.mimeType
          totalSize := row.totalSize
          status := row.status
          s3Key := row.s3Key
          s3Url
          fileHash := row.fileHash }

/-! ### Commands -/

inductive Command where
  | rand
  | now
  | insert (upload : NewUpload)
  | select (streamId : Bytes)
  | markCompleted (streamId s3Url : Bytes)
  | presignPut (key : Bytes)
  | presignGet (key : Bytes)
  | stat (key : Bytes)
  | setObject (key : Bytes) (size : Option Int64)

/-- `now` is `time.Now().Unix()`; `stat` gives the size of an object, if there is
one; `setObject` is a client or S3 itself changing the bucket. -/
abbrev Reply : Command → Type
  | .rand => Except String Bytes
  | .now => Int
  | .insert _ => Except String Unit
  | .select _ => Except String (Option Row)
  | .markCompleted _ _ => Except String Unit
  | .presignPut _ => Except String Bytes
  | .presignGet _ => Except String Bytes
  | .stat _ => Except String (Option Int64)
  | .setObject _ _ => Unit

/-- The table, and the sizes of the objects in the bucket. -/
structure State where
  table : Table
  objects : Bytes → Option Int64

/-- What the environment decides about one command. -/
inductive Choice where
  | ok
  | fail (error : String)
  | refuse (error : String)
  | random (bytes : Bytes)
  | time (now : Int)
  | url (url : Bytes)

/-- The table after a statement. -/
def State.commit (state : State) : Except String Table → Except String Unit × State
  | .error error => (.error error, state)
  | .ok table => (.ok (), { state with table })

def exec : (command : Command) → Choice → State → Option (Reply command × State)
  | .rand, .random bytes, state => if bytes.length = 16 then some (.ok bytes, state) else none
  | .rand, .fail error, state => some (.error error, state)
  | .now, .time now, state => some (now, state)
  | .insert upload, .ok, state => some (state.commit (insert state.table upload none))
  | .insert upload, .refuse error, state =>
      some (state.commit (insert state.table upload (some error)))
  | .insert _, .fail error, state => some (.error error, state)
  | .select streamId, .ok, state => some (.ok (state.table streamId), state)
  | .select _, .fail error, state => some (.error error, state)
  | .markCompleted streamId s3Url, .ok, state =>
      some (.ok (), { state with table := markCompleted state.table streamId s3Url })
  | .markCompleted _ _, .fail error, state => some (.error error, state)
  | .presignPut _, .url url, state => some (.ok url, state)
  | .presignPut _, .fail error, state => some (.error error, state)
  | .presignGet _, .url url, state => some (.ok url, state)
  | .presignGet _, .fail error, state => some (.error error, state)
  | .stat key, .ok, state => some (.ok (state.objects key), state)
  | .stat _, .fail error, state => some (.error error, state)
  | .setObject key size, .ok, state =>
      some ((), { state with objects := Function.update state.objects key size })
  | _, _, _ => none

abbrev Code (Result : Type) := Program Command Reply Result

/-! ### The store and the bucket -/

/-- `Store.GetByStreamID`. -/
def Store.getByStreamID (streamId : Bytes) : Code (Except String Upload) := do
  match ← (Program.issue (Command.select streamId) : Code (Except String (Option Row))) with
  | .error error => return .error ("media upload not found: " ++ error)
  | .ok none => return .error "media upload not found: no rows in result set"
  | .ok (some row) =>
      match scan streamId row with
      | .error error => return .error ("media upload not found: " ++ error)
      | .ok upload => return .ok upload

/-- `S3Client.PresignedPutURL`. -/
def S3.presignedPutURL (key : Bytes) : Code (Except String Bytes) := do
  match ← (Program.issue (Command.presignPut key) : Code (Except String Bytes)) with
  | .error error => return .error ("presigned put: " ++ error)
  | .ok url => return .ok url

/-- `S3Client.PresignedGetURL`. -/
def S3.presignedGetURL (key : Bytes) : Code (Except String Bytes) := do
  match ← (Program.issue (Command.presignGet key) : Code (Except String Bytes)) with
  | .error error => return .error ("presigned get: " ++ error)
  | .ok url => return .ok url

/-- `S3Client.ObjectExists`. An object that is not there is no error. -/
def S3.objectExists (key : Bytes) : Code (Except String (Option Int64)) :=
  Program.issue (Command.stat key)

/-! ### What one command does to the table -/

/-- An executed command inserted a new row, completed one, or left the table
alone. -/
inductive TableStep (table : Table) : (command : Command) → Reply command → Table → Prop
  | inserted (upload : NewUpload) (absent : table upload.streamId = none) (row : Row)
      (uploading : row.status = .uploading) (noURL : row.s3Url = none) :
      TableStep table (.insert upload) (.ok ()) (Function.update table upload.streamId (some row))
  | marked (streamId s3Url : Bytes) :
      TableStep table (.markCompleted streamId s3Url) (.ok ()) (markCompleted table streamId s3Url)
  | refused (upload : NewUpload) (error : String) :
      TableStep table (.insert upload) (.error error) table
  | kept (command : Command) (reply : Reply command) (other : ∀ upload, command ≠ .insert upload) :
      TableStep table command reply table

theorem insert_tableStep (state : State) (upload : NewUpload) (refused : Option String) :
    TableStep state.table (.insert upload) (state.commit (insert state.table upload refused)).1
      (state.commit (insert state.table upload refused)).2.table := by
  unfold insert
  split
  · exact .refused upload _
  · exact .refused upload _
  · split
    · exact .refused upload _
    · next absent =>
      exact .inserted upload (Option.not_isSome_iff_eq_none.mp absent) _ rfl rfl

/-- **One command.** -/
theorem exec_table {command : Command} {choice : Choice} {state after : State}
    {reply : Reply command} (executed : exec command choice state = some (reply, after)) :
    TableStep state.table command reply after.table := by
  cases command with
  | insert upload =>
      cases choice with
      | ok =>
          have step := insert_tableStep state upload none
          rwa [Option.some.inj executed] at step
      | refuse error =>
          have step := insert_tableStep state upload (some error)
          rwa [Option.some.inj executed] at step
      | fail error =>
          cases executed
          exact .refused upload error
      | _ => cases executed
  | markCompleted streamId s3Url =>
      cases choice with
      | ok =>
          cases executed
          exact .marked streamId s3Url
      | fail error =>
          cases executed
          exact .kept _ _ fun _ impossible => by cases impossible
      | _ => cases executed
  | rand =>
      cases choice with
      | random bytes =>
          simp only [exec] at executed
          split at executed
          · cases executed
            exact .kept _ _ fun _ impossible => by cases impossible
          · cases executed
      | fail error =>
          cases executed
          exact .kept _ _ fun _ impossible => by cases impossible
      | _ => cases executed
  | _ =>
      cases choice <;> cases executed <;>
        exact .kept _ _ fun _ impossible => by cases impossible

theorem exec_select {streamId : Bytes} {choice : Choice} {state after : State} {found : Option Row}
    (executed : exec (.select streamId) choice state = some (.ok found, after)) :
    after.table streamId = found := by
  cases choice with
  | ok =>
      simp only [exec, Option.some.injEq, Prod.mk.injEq, Except.ok.injEq] at executed
      rw [← executed.2, executed.1]
  | _ => cases executed

/-- The row of an upload is as `Insert` left it. -/
def Unread (table : Table) (streamId : Bytes) : Prop :=
  ∃ row, table streamId = some row ∧ row.status = .uploading ∧ row.s3Url = none

/-- The row of an upload can be scanned. -/
def Readable (table : Table) (streamId : Bytes) : Prop :=
  ∃ row s3Url, table streamId = some row ∧ row.s3Url = some s3Url

theorem Unread.not_readable {table : Table} {streamId : Bytes} (unread : Unread table streamId) :
    ¬Readable table streamId := by
  obtain ⟨row, isRow, -, noURL⟩ := unread
  rintro ⟨other, s3Url, isOther, hasURL⟩
  rw [isRow, Option.some.injEq] at isOther
  rw [← isOther, noURL] at hasURL
  cases hasURL

section Steps

variable {table after : Table} {command : Command} {reply : Reply command} {streamId : Bytes}

theorem TableStep.readable (step : TableStep table command reply after)
    (readable : Readable table streamId) : Readable after streamId := by
  obtain ⟨row, s3Url, isRow, hasURL⟩ := readable
  cases step with
  | inserted upload absent =>
      have different : streamId ≠ upload.streamId := by
        rintro rfl
        rw [absent] at isRow
        cases isRow
      exact ⟨row, s3Url, by rw [Function.update_of_ne different, isRow], hasURL⟩
  | marked marked url =>
      by_cases same : streamId = marked
      · subst same
        exact ⟨_, url, by rw [markCompleted, Function.update_self, isRow, Option.map_some], rfl⟩
      · exact ⟨row, s3Url, by rw [markCompleted, Function.update_of_ne same, isRow], hasURL⟩
  | refused => exact ⟨row, s3Url, isRow, hasURL⟩
  | kept => exact ⟨row, s3Url, isRow, hasURL⟩

/-- A row stays unread as long as only readable rows are completed. -/
theorem TableStep.unread (step : TableStep table command reply after)
    (marks : ∀ marked s3Url, command = .markCompleted marked s3Url → Readable table marked)
    (unread : Unread table streamId) : Unread after streamId := by
  have notReadable := unread.not_readable
  obtain ⟨row, isRow, fields⟩ := unread
  cases step with
  | inserted upload absent =>
      have different : streamId ≠ upload.streamId := by
        rintro rfl
        rw [absent] at isRow
        cases isRow
      exact ⟨row, by rw [Function.update_of_ne different, isRow], fields⟩
  | marked marked url =>
      have different : streamId ≠ marked := by
        rintro rfl
        exact notReadable (marks _ _ rfl)
      exact ⟨row, by rw [markCompleted, Function.update_of_ne different, isRow], fields⟩
  | refused => exact ⟨row, isRow, fields⟩
  | kept => exact ⟨row, isRow, fields⟩

theorem TableStep.inserts {upload : NewUpload}
    (step : TableStep table (.insert upload) (.ok ()) after) : Unread after upload.streamId := by
  cases step with
  | inserted _ absent row uploading noURL =>
      exact ⟨row, Function.update_self .., uploading, noURL⟩
  | kept _ _ other => exact absurd rfl (other upload)

end Steps

end FProto.Media

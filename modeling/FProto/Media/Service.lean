import FProto.Media.Store
import FProto.Protocol.Rpc

/-!
Owns `server/internal/media/service.go` and `grpc_server.go`: the three RPCs of the
media service, and what becomes of an accepted upload.

`Insert` leaves `s3_url` without a value, and `GetByStreamID` reads it into a
string. The row of an upload is therefore never read again.

**Main result.** After an accepted `InitUpload`, whatever is called and stored,
`CompleteUpload` for its stream fails and the row is never completed:
`accepted_upload_never_completes`.
-/

namespace FProto.Media

open FProto.Foundation
open FProto.Protocol

/-! ### The service -/

namespace Service

/-- The key of the object of an upload. -/
def s3Key (userId streamId : Bytes) : Bytes :=
  utf8 "uploads/" ++ hexEncode userId ++ utf8 "/" ++ hexEncode streamId

/-- `Service.InitUpload`: the stream id and the upload URL. -/
def initUpload (userId : Slice) (mimeType : Bytes) (totalSize : Int64) (fileHash : Slice) :
    Code (Except String (Bytes × Bytes)) := do
  match ← (Program.issue Command.rand : Code (Except String Bytes)) with
  | .error error => return .error ("generate stream_id: " ++ error)
  | .ok streamId =>
      let s3Key := s3Key userId.bytes streamId
      let upload : NewUpload := { streamId, userId, mimeType, totalSize, s3Key, fileHash }
      match ← (Program.issue (Command.insert upload) : Code (Except String Unit)) with
      | .error error => return .error ("insert: " ++ error)
      | .ok _ =>
          match ← S3.presignedPutURL s3Key with
          | .error error => return .error ("presigned url: " ++ error)
          | .ok uploadURL => return .ok (streamId, uploadURL)

/-- The part of `CompleteUpload` after the checks. -/
def finishUpload (streamId : Bytes) (upload : Upload) : Code (Except String Bytes) := do
  match ← S3.presignedGetURL upload.s3Key with
  | .error error => return .error ("download url: " ++ error)
  | .ok downloadURL =>
      match ← (Program.issue (Command.markCompleted streamId downloadURL) :
          Code (Except String Unit)) with
      | .error error => return .error ("mark completed: " ++ error)
      | .ok _ => return .ok downloadURL

/-- `Service.CompleteUpload`. The hash is not looked at. -/
def completeUpload (streamId : Bytes) (_fileHash : Slice) : Code (Except String Bytes) := do
  match ← Store.getByStreamID streamId with
  | .error error => return .error ("get upload: " ++ error)
  | .ok upload =>
      if upload.status ≠ .uploading then
        return .error ("upload status is " ++ upload.status.text ++ ", expected uploading")
      else
        match ← S3.objectExists upload.s3Key with
        | .error error => return .error ("check s3 object: " ++ error)
        | .ok none => return .error "object not found in S3"
        | .ok (some size) =>
            if size ≠ upload.totalSize then
              return .error ("size mismatch: expected " ++ toString upload.totalSize ++ ", got " ++
                toString size)
            else finishUpload streamId upload

/-- `Service.GetDownloadURL`. -/
def getDownloadURL (streamId : Bytes) : Code (Except String Bytes) := do
  match ← Store.getByStreamID streamId with
  | .error error => return .error ("get upload: " ++ error)
  | .ok upload =>
      if upload.status ≠ .completed then
        return .error ("upload not completed (status=" ++ upload.status.text ++ ")")
      else S3.presignedGetURL upload.s3Key

end Service

/-! ### The RPCs -/

structure InitUploadRequest where
  userId : Slice
  mimeType : Bytes
  totalSize : UInt64
  fileHash : Slice
deriving DecidableEq

structure InitUploadResponse where
  streamId : Bytes
  presignedUploadUrl : Bytes
  expiresAt : Int
deriving DecidableEq

structure GetDownloadURLResponse where
  presignedDownloadUrl : Bytes
  expiresAt : Int
deriving DecidableEq

abbrev Handled (Result : Type) := Except (HandlerFailure String) Result

/-- `UploadExpiry` and `DownloadExpiry`, in seconds. -/
def uploadExpiry : Int := 3600

def downloadExpiry : Int := 86400

/-- `GRPCServer.InitUpload`. -/
def initUpload (request : InitUploadRequest) : Code (Handled InitUploadResponse) :=
  if request.userId.len = 0 then return .error (.status .invalidArgument "user_id is required")
  else if request.mimeType = [] then
    return .error (.status .invalidArgument "mime_type is required")
  else if request.totalSize = 0 then
    return .error (.status .invalidArgument "total_size is required")
  else do
    match ← Service.initUpload request.userId request.mimeType request.totalSize.toInt64
        request.fileHash with
    | .error error => return .error (.status .internal ("init upload: " ++ error))
    | .ok (streamId, uploadURL) =>
        let now ← (Program.issue Command.now : Code Int)
        return .ok
          { streamId
            presignedUploadUrl := uploadURL
            expiresAt := now + uploadExpiry }

/-- `GRPCServer.CompleteUpload`: the download URL of a success. -/
def completeUpload (streamId : Bytes) (fileHash : Slice) : Code (Handled Bytes) :=
  if streamId.length = 0 then return .error (.status .invalidArgument "stream_id is required")
  else do
    match ← Service.completeUpload streamId fileHash with
    | .error error => return .error (.status .internal ("complete upload: " ++ error))
    | .ok downloadURL => return .ok downloadURL

/-- `GRPCServer.GetDownloadURL`. -/
def getDownloadURL (streamId : Bytes) : Code (Handled GetDownloadURLResponse) :=
  if streamId.length = 0 then return .error (.status .invalidArgument "stream_id is required")
  else do
    match ← Service.getDownloadURL streamId with
    | .error error => return .error (.status .internal ("download url: " ++ error))
    | .ok url =>
        let now ← (Program.issue Command.now : Code Int)
        return .ok { presignedDownloadUrl := url, expiresAt := now + downloadExpiry }

inductive MediaRpc where
  | initUpload (request : InitUploadRequest)
  | completeUpload (streamId : Bytes) (fileHash : Slice)
  | getDownloadURL (streamId : Bytes)

inductive MediaAnswer where
  | initiated (result : Handled InitUploadResponse)
  | completed (result : Handled Bytes)
  | located (result : Handled GetDownloadURLResponse)
  | changed
deriving DecidableEq

/-- An RPC, or a change of the bucket. -/
inductive MediaTask where
  | rpc (rpc : MediaRpc)
  | setObject (key : Bytes) (size : Option Int64)

def MediaRpc.code : MediaRpc → Code MediaAnswer
  | .initUpload request => do return .initiated (← Media.initUpload request)
  | .completeUpload streamId fileHash => do
      return .completed (← Media.completeUpload streamId fileHash)
  | .getDownloadURL streamId => do return .located (← Media.getDownloadURL streamId)

/-- RPCs are handled concurrently. -/
def mediaService : System Command Reply MediaAnswer State Choice MediaTask where
  exec := exec
  code
    | .rpc rpc => rpc.code
    | .setObject key size => do
        let _ ← (Program.issue (Command.setObject key size) : Code Unit)
        return .changed
  admits _ _ := true

abbrev MediaPool := Pool Command Reply MediaAnswer State MediaTask

abbrev MediaWorld := World Command Reply State

/-! ### What a handler knows -/

/-- A row of the stream was inserted. -/
def Inserted (world : MediaWorld) (streamId : Bytes) : Prop :=
  ∃ (thread : Nat) (upload : NewUpload),
    upload.streamId = streamId ∧ ⟨thread, .insert upload, .ok ()⟩ ∈ world.trace

/-- Inserted rows are never read; an inserted row stays inserted, and a row that can
be read stays so. -/
def discipline : Discipline Command Reply State where
  Invariant world := ∀ streamId, Inserted world streamId → Unread world.state.table streamId
  Evolves before after := ∀ streamId,
    (Inserted before streamId → Inserted after streamId) ∧
      (Readable before.state.table streamId → Readable after.state.table streamId)
  evolves_refl _ _ := ⟨id, id⟩
  evolves_trans first second streamId :=
    ⟨(second streamId).1 ∘ (first streamId).1, (second streamId).2 ∘ (first streamId).2⟩

section Programs

variable {thread : Nat} {Value : Type} {post : Value → MediaWorld → Prop} {world : MediaWorld}

theorem sound_done {result : Value}
    (holds : ∀ after, discipline.Evolves world after → post result after) :
    discipline.Sound exec thread post (.done result) world :=
  fun after later _ => holds after later.evolves

/-- One command, which completes only a readable row. -/
theorem sound_call {command : Command} {next : Reply command → Code Value}
    (marks : ∀ streamId s3Url, command = .markCompleted streamId s3Url →
      Readable world.state.table streamId)
    (following : ∀ choice reply (before after : MediaWorld),
      exec command choice before.state = some (reply, after.state) →
      (⟨thread, command, reply⟩ : Entry Command Reply) ∈ after.trace →
      discipline.Evolves world after → discipline.Sound exec thread post (next reply) after) :
    discipline.Sound exec thread post (.call command next) world := by
  intro before later invariant choice reply state executed
  have step := exec_table executed
  have evolves : discipline.Evolves before (before.record thread command reply state) := by
    refine fun streamId => ⟨?_, step.readable⟩
    rintro ⟨other, upload, isStream, recorded⟩
    exact ⟨other, upload, isStream, List.mem_append_left _ recorded⟩
  refine ⟨?_, evolves, ?_⟩
  · rintro streamId ⟨other, upload, rfl, recorded⟩
    rcases List.mem_append.mp recorded with earlier | last
    · refine step.unread (fun marked s3Url isMark => ?_) (invariant _ ⟨other, upload, rfl, earlier⟩)
      exact (later.evolves marked).2 (marks marked s3Url isMark)
    · cases List.mem_singleton.mp last
      exact step.inserts
  · refine following choice reply before _ executed ?_
      (discipline.evolves_trans later.evolves evolves)
    exact List.mem_append_right _ (List.mem_singleton_self _)

/-- A command that completes no row. -/
theorem sound_other {command : Command} {next : Reply command → Code Value}
    (other : ∀ streamId s3Url, command ≠ .markCompleted streamId s3Url)
    (following : ∀ choice reply (before after : MediaWorld),
      exec command choice before.state = some (reply, after.state) →
      (⟨thread, command, reply⟩ : Entry Command Reply) ∈ after.trace →
      discipline.Evolves world after → discipline.Sound exec thread post (next reply) after) :
    discipline.Sound exec thread post (.call command next) world :=
  sound_call (fun _ _ isMark => absurd isMark (other _ _)) following

/-- A success leaves the row of the stream readable. -/
def Reads {Error Result : Type} (streamId : Bytes) (result : Except Error Result)
    (world : MediaWorld) : Prop :=
  ∀ value, result = .ok value → Readable world.state.table streamId

/-- A failure promises nothing. -/
theorem reads_error {Error Result : Type} {streamId : Bytes} {error : Error} :
    discipline.Sound exec thread (Reads streamId)
      (.done (.error error : Except Error Result)) world :=
  sound_done fun _ _ _ impossible => by cases impossible

theorem reads_ok {Error Result : Type} {streamId : Bytes} {value : Result}
    (readable : Readable world.state.table streamId) :
    discipline.Sound exec thread (Reads streamId) (.done (.ok value : Except Error Result))
      world :=
  sound_done fun _ evolves _ _ => (evolves streamId).2 readable

theorem getByStreamID_sound (streamId : Bytes) :
    discipline.Sound exec thread (Reads streamId) (Store.getByStreamID streamId) world := by
  rw [Store.getByStreamID, Program.issue_bind]
  refine sound_other (fun _ _ impossible => by cases impossible)
    fun choice reply before after executed _ _ => ?_
  rcases reply with error | _ | row
  · exact reads_error
  · exact reads_error
  · have found : after.state.table streamId = some row := exec_select executed
    dsimp only
    cases isURL : row.s3Url with
    | none =>
        rw [scan, isURL]
        exact reads_error
    | some s3Url =>
        rw [scan, isURL]
        exact reads_ok ⟨row, s3Url, found, isURL⟩

theorem presignedGetURL_sound {streamId : Bytes} (key : Bytes)
    (readable : Readable world.state.table streamId) :
    discipline.Sound exec thread (Reads streamId) (S3.presignedGetURL key) world := by
  rw [S3.presignedGetURL, Program.issue_bind]
  refine sound_other (fun _ _ impossible => by cases impossible)
    fun choice reply before after _ _ evolves => ?_
  cases reply with
  | error error => exact reads_error
  | ok url => exact reads_ok ((evolves streamId).2 readable)

theorem finishUpload_sound {streamId : Bytes} (upload : Upload)
    (readable : Readable world.state.table streamId) :
    discipline.Sound exec thread (Reads streamId) (Service.finishUpload streamId upload) world := by
  unfold Service.finishUpload
  refine (presignedGetURL_sound upload.s3Key readable).bind fun result signed _ evolves _ => ?_
  cases result with
  | error error => exact reads_error
  | ok downloadURL =>
      have still := (evolves streamId).2 readable
      refine sound_call ?_ fun choice reply before after _ _ evolves => ?_
      · intro marked s3Url isMark
        cases isMark
        exact still
      · cases reply with
        | error error => exact reads_error
        | ok _ => exact reads_ok ((evolves streamId).2 still)

theorem completeUpload_sound (streamId : Bytes) (fileHash : Slice) :
    discipline.Sound exec thread (Reads streamId) (Service.completeUpload streamId fileHash)
      world := by
  unfold Service.completeUpload
  refine (getByStreamID_sound streamId).bind fun result read _ _ reads => ?_
  cases result with
  | error error => exact reads_error
  | ok upload =>
      dsimp only
      split
      · exact reads_error
      · rw [S3.objectExists, Program.issue_bind]
        refine sound_other (fun _ _ impossible => by cases impossible)
          fun choice reply before after _ _ evolves => ?_
        rcases reply with error | _ | size
        · exact reads_error
        · exact reads_error
        · dsimp only
          split
          · exact reads_error
          · exact finishUpload_sound upload ((evolves streamId).2 (reads upload rfl))

theorem getDownloadURL_sound (streamId : Bytes) :
    discipline.Sound exec thread (Reads streamId) (Service.getDownloadURL streamId) world := by
  unfold Service.getDownloadURL
  refine (getByStreamID_sound streamId).bind fun result read _ _ reads => ?_
  cases result with
  | error error => exact reads_error
  | ok upload =>
      dsimp only
      split
      · exact reads_error
      · exact presignedGetURL_sound upload.s3Key (reads upload rfl)

/-- A success has inserted the row of the returned stream. -/
theorem initUpload_sound (userId : Slice) (mimeType : Bytes) (totalSize : Int64)
    (fileHash : Slice) :
    discipline.Sound exec thread
      (fun result after => ∀ streamId url, result = .ok (streamId, url) → Inserted after streamId)
      (Service.initUpload userId mimeType totalSize fileHash) world := by
  rw [Service.initUpload, Program.issue_bind]
  refine sound_other (fun _ _ impossible => by cases impossible)
    fun choice drawn before after _ _ _ => ?_
  cases drawn with
  | error error => exact sound_done fun _ _ _ _ impossible => by cases impossible
  | ok streamId =>
      refine sound_other (fun _ _ impossible => by cases impossible)
        fun choice reply before after _ recorded _ => ?_
      cases reply with
      | error error => exact sound_done fun _ _ _ _ impossible => by cases impossible
      | ok _ =>
          have inserted : Inserted after streamId := ⟨thread, _, rfl, recorded⟩
          refine sound_other (fun _ _ impossible => by cases impossible)
            fun choice reply before signed _ _ evolves => ?_
          cases reply with
          | error error => exact sound_done fun _ _ _ _ impossible => by cases impossible
          | ok uploadURL =>
              refine sound_done fun final later other url isResult => ?_
              cases isResult
              exact (later streamId).1 ((evolves streamId).1 inserted)

/-! The RPCs add their checks and the texts of their errors. -/

theorem initUploadRpc_sound (request : InitUploadRequest) :
    discipline.Sound exec thread
      (fun result after => ∀ response, result = .ok response → Inserted after response.streamId)
      (initUpload request) world := by
  unfold initUpload
  split
  · exact sound_done fun _ _ _ impossible => by cases impossible
  · split
    · exact sound_done fun _ _ _ impossible => by cases impossible
    · split
      · exact sound_done fun _ _ _ impossible => by cases impossible
      · refine (initUpload_sound _ _ _ _).bind fun result stored _ _ inserts => ?_
        rcases result with error | ⟨streamId, uploadURL⟩
        · exact sound_done fun _ _ _ impossible => by cases impossible
        · have inserted : Inserted stored streamId := inserts streamId uploadURL rfl
          refine sound_other (fun _ _ impossible => by cases impossible)
            fun choice now before after _ _ evolves => ?_
          refine sound_done fun final later response isResponse => ?_
          cases isResponse
          exact (later streamId).1 ((evolves streamId).1 inserted)

theorem completeUploadRpc_sound (streamId : Bytes) (fileHash : Slice) :
    discipline.Sound exec thread (Reads streamId) (completeUpload streamId fileHash) world := by
  unfold completeUpload
  split
  · exact reads_error
  · refine (completeUpload_sound streamId fileHash).bind fun result after _ _ reads => ?_
    cases result with
    | error error => exact reads_error
    | ok downloadURL => exact reads_ok (reads downloadURL rfl)

theorem getDownloadURLRpc_sound (streamId : Bytes) :
    discipline.Sound exec thread (Reads streamId) (getDownloadURL streamId) world := by
  unfold getDownloadURL
  split
  · exact reads_error
  · refine (getDownloadURL_sound streamId).bind fun result located _ _ reads => ?_
    cases result with
    | error error => exact reads_error
    | ok url =>
        refine sound_other (fun _ _ impossible => by cases impossible)
          fun choice now before after _ _ evolves => ?_
        exact reads_ok ((evolves streamId).2 (reads url rfl))

end Programs

/-- What the answer of a task promises. -/
def promise : MediaTask → MediaAnswer → MediaWorld → Prop
  | .rpc (.initUpload _), .initiated (.ok response), world => Inserted world response.streamId
  | .rpc (.completeUpload streamId _), .completed result, world => Reads streamId result world
  | .rpc (.getDownloadURL streamId), .located result, world => Reads streamId result world
  | _, _, _ => True

theorem task_sound (task : MediaTask) (thread : Nat) (world : MediaWorld) :
    discipline.Sound exec thread (promise task) (mediaService.code task) world := by
  rcases task with rpc | ⟨key, size⟩
  · cases rpc with
    | initUpload request =>
        refine (initUploadRpc_sound request).bind fun result after _ _ inserts => ?_
        cases result with
        | error error => exact sound_done fun _ _ => trivial
        | ok response =>
            exact sound_done fun final evolves => (evolves _).1 (inserts response rfl)
    | completeUpload streamId fileHash =>
        refine (completeUploadRpc_sound streamId fileHash).bind fun result after _ _ reads => ?_
        exact sound_done fun final evolves value isOk => (evolves streamId).2 (reads value isOk)
    | getDownloadURL streamId =>
        refine (getDownloadURLRpc_sound streamId).bind fun result after _ _ reads => ?_
        exact sound_done fun final evolves value isOk => (evolves streamId).2 (reads value isOk)
  · exact sound_other (fun _ _ impossible => by cases impossible)
      fun _ _ _ _ _ _ _ => sound_done fun _ _ => trivial

/-! ### Every schedule -/

/-- **No accepted upload is ever completed.** In every state that any schedule of
RPCs and changes of the bucket reaches, with any failures: the row of an upload
that `InitUpload` accepted is as it was inserted, and no call of `CompleteUpload`
or `GetDownloadURL` for its stream succeeded. -/
theorem accepted_upload_never_completes (initial : State)
    (events : List (Foundation.Event MediaTask Choice)) {pool : MediaPool}
    (ran : (Pool.start initial).run mediaService events = some pool) {request : InitUploadRequest}
    {response : InitUploadResponse} {running : Bool}
    (accepted : ⟨.rpc (.initUpload request), .done (.initiated (.ok response)), running⟩ ∈
      pool.threads) :
    Unread pool.world.state.table response.streamId ∧
    (∀ fileHash downloadURL running,
      ⟨.rpc (.completeUpload response.streamId fileHash), .done (.completed (.ok downloadURL)),
        running⟩ ∉ pool.threads) ∧
    ∀ located running,
      ⟨.rpc (.getDownloadURL response.streamId), .done (.located (.ok located)), running⟩ ∉
        pool.threads := by
  have start : discipline.Invariant ⟨initial, []⟩ := by
    rintro streamId ⟨thread, upload, -, recorded⟩
    cases recorded
  have disciplined := Pool.run_sound (fun task index world _ _ _ => task_sound task index world)
    events (Pool.start_disciplined start) ran
  have inserted : Inserted pool.world response.streamId := disciplined.result accepted rfl
  have unread := disciplined.invariant _ inserted
  refine ⟨unread, ?_, ?_⟩
  · intro fileHash downloadURL running finished
    have reads : Reads response.streamId _ pool.world := disciplined.result finished rfl
    exact unread.not_readable (reads downloadURL rfl)
  · intro located running finished
    have reads : Reads response.streamId _ pool.world := disciplined.result finished rfl
    exact unread.not_readable (reads located rfl)

def sampleRequest : InitUploadRequest where
  userId := some [1]
  mimeType := utf8 "image/png"
  totalSize := 3
  fileHash := some [4]

def sampleStream : Bytes := List.replicate 16 7

/-- An upload is accepted, its object is stored, and it is to be completed. -/
def uploadSchedule : List (Foundation.Event MediaTask Choice) :=
  [.spawn (.rpc (.initUpload sampleRequest)), .step 0 (.random sampleStream), .step 0 .ok,
    .step 0 (.url (utf8 "put")), .step 0 (.time 0),
    .spawn (.setObject (Service.s3Key [1] sampleStream) (some 3)), .step 1 .ok,
    .spawn (.rpc (.completeUpload sampleStream (some [4]))), .step 2 .ok]

def sampleResponse : InitUploadResponse := ⟨sampleStream, utf8 "put", 3600⟩

theorem accepted_upload_never_completes_sample :
    ∃ pool : MediaPool,
      (Pool.start ⟨fun _ => none, fun _ => none⟩).run mediaService uploadSchedule = some pool ∧
      Unread pool.world.state.table sampleStream := by
  obtain ⟨pool, ran⟩ : ∃ pool : MediaPool,
      (Pool.start ⟨fun _ => none, fun _ => none⟩).run mediaService uploadSchedule = some pool :=
    ⟨_, rfl⟩
  have accepted : pool.threads[0]? =
      some ⟨.rpc (.initUpload sampleRequest), .done (.initiated (.ok sampleResponse)), true⟩ := by
    obtain rfl := Option.some.inj ran
    rfl
  exact ⟨pool, ran, (accepted_upload_never_completes _ uploadSchedule ran
    (List.mem_iff_getElem?.mpr ⟨0, accepted⟩)).1⟩

/-- With the whole object in the bucket, `CompleteUpload` fails. -/
theorem stored_upload_not_completed :
    ∃ pool : MediaPool,
      (Pool.start ⟨fun _ => none, fun _ => none⟩).run mediaService uploadSchedule = some pool ∧
      pool.threads[0]? =
        some ⟨.rpc (.initUpload sampleRequest), .done (.initiated (.ok sampleResponse)), true⟩ ∧
      pool.world.state.table sampleStream =
        some ⟨[1], utf8 "image/png", 3, .uploading, Service.s3Key [1] sampleStream, none,
          some [4]⟩ ∧
      pool.world.state.objects (Service.s3Key [1] sampleStream) = some 3 ∧
      pool.threads[2]? =
        some ⟨.rpc (.completeUpload sampleStream (some [4])),
          .done (.completed (.error (.status .internal ("complete upload: get upload: " ++
            "media upload not found: can't scan into dest[7] (col: s3_url): " ++
            "cannot scan NULL into *string")))), true⟩ :=
  ⟨_, rfl, rfl, rfl, rfl, rfl⟩

end FProto.Media

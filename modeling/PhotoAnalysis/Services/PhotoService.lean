import PhotoAnalysis.Core.Logging
import PhotoAnalysis.Integrations.Storage
import PhotoAnalysis.Repositories

/-!
# Photos

`PhotoService`: uploads, single and in batches, and reads.  An upload flushes
its row, stores the object and commits, in that order.
-/

namespace PhotoAnalysis

open Foundation Program

/--
The `APP`, `MINIO`, `WORKER`, `RETRY` and `OUTBOX` settings the code reads, and the
interpreter it runs on.
-/
structure Settings where
  minioBucket : Str
  workerMaxAttempts : Int
  retryBackoffBaseSeconds : Rat
  outboxBatchSize : Nat
  interpreter : Interpreter

/--
`trace_id_var.get()`.  The variable holds a text everywhere but in the consumer
loop, which never reads it back.
-/
def traceIdVar : Py Str := do
  match ← wait .getTraceId with
  | .str traceId => pure traceId
  | _ => .raise (.loads .typeError)

namespace PhotoService

def maxFileSizeBytes : Nat := 50 * 1024 * 1024

def minBatchSize : Nat := 2

def maxBatchSize : Nat := 10

def batchMaxTotalBytes : Nat := maxBatchSize * maxFileSizeBytes

def jpegMagic : Bytes := [0xFF, 0xD8, 0xFF]

def pngMagic : Bytes := [0x89, 0x50, 0x4E, 0x47, 0x0D, 0x0A, 0x1A, 0x0A]

def analysisResponse (analysis : Option AnalysisResult) :
    Option AnalysisResultResponse :=
  analysis.map fun row =>
    ⟨row.facesCount, row.isBlurred, row.blurScore, row.perceptualHash⟩

/-- Extension and content type, by the first bytes only. -/
def validate (data : Bytes) : Except PyExc (Str × Str) :=
  if data.length = 0 then
    .error (AppError.validation.exc (py "Uploaded file is empty"))
  else if data.length > maxFileSizeBytes then
    .error (AppError.payloadTooLarge.exc
      (py "File exceeds the maximum allowed size (50 MB)"))
  else if data.take 3 = jpegMagic then .ok (py "jpg", py "image/jpeg")
  else if data.take 8 = pngMagic then .ok (py "png", py "image/png")
  else
    .error (AppError.unsupportedMediaType.exc
      (py "Only JPEG/PNG images are supported"))

theorem validate_ok {data : Bytes} {ext contentType : Str}
    (h : validate data = .ok (ext, contentType)) :
    ext = py "jpg" ∧ contentType = py "image/jpeg" ∨
      ext = py "png" ∧ contentType = py "image/png" := by
  unfold validate at h
  split at h
  · cases h
  split at h
  · cases h
  split at h
  · simp only [Except.ok.injEq, Prod.mk.injEq] at h
    exact .inl ⟨h.1.symm, h.2.symm⟩
  split at h
  · simp only [Except.ok.injEq, Prod.mk.injEq] at h
    exact .inr ⟨h.1.symm, h.2.symm⟩
  · cases h

/-- `text.rsplit(".", 1)[-1]` -/
def afterLastDot (s : Str) : Str := (s.reverse.takeWhile (· != 46)).reverse

def lower (s : Str) : Str :=
  s.map fun c => if 65 ≤ c ∧ c ≤ 90 then c + 32 else c

def extToMime (objectKey : Str) : Str :=
  let ext := lower (afterLastDot objectKey)
  if ext = py "jpg" ∨ ext = py "jpeg" then py "image/jpeg"
  else if ext = py "png" then py "image/png"
  else py "application/octet-stream"

/-- `f"photos/{photo_id}/original.{ext}"` -/
def objectKey (photoId : UUID) (ext : Str) : Str :=
  py "photos/" ++ photoId.text ++ py "/original." ++ ext

theorem photoId_of_objectKey {id id' : UUID} {ext ext' : Str}
    (h : objectKey id ext = objectKey id' ext') : id = id' := by
  simp only [objectKey, List.append_assoc] at h
  have htext := (List.append_inj (List.append_inj h rfl).2
    (by rw [UUID.length_text, UUID.length_text])).1
  exact UUID.text_injective htext

/-- Of a key the column cuts the extension only. -/
theorem exists_cut_objectKey (photoId : UUID) (ext : Str) :
    ∃ ext', Column.cut 1024 (objectKey photoId ext) = objectKey photoId ext' := by
  refine ⟨ext.take (1024 - (py "photos/" ++ photoId.text ++ py "/original.").length), ?_⟩
  have hfolder : (py "photos/" ++ photoId.text ++ py "/original.").length ≤ 1024 := by
    have hlengths : (py "photos/").length = 7 ∧ (py "/original.").length = 10 := by decide
    simp only [List.length_append, UUID.length_text, hlengths]
    decide
  unfold objectKey Column.cut
  rw [List.take_append, List.take_of_length_le hfolder]

/-- The column holds all of a key. -/
theorem cut_objectKey (photoId : UUID) {data : Bytes} {ext contentType : Str}
    (h : validate data = .ok (ext, contentType)) :
    Column.cut 1024 (objectKey photoId ext) = objectKey photoId ext := by
  have hext : ext.length = 3 := by
    rcases validate_ok h with ⟨rfl, -⟩ | ⟨rfl, -⟩ <;> decide
  have hlengths : (py "photos/").length = 7 ∧ (py "/original.").length = 10 := by decide
  refine Column.cut_eq_self.mpr ?_
  simp only [objectKey, List.length_append, UUID.length_text, hext, hlengths]
  decide

/-- `filename or f"{photo_id}.{ext}"` -/
def filenameOr (filename : Option Str) (photoId : UUID) (ext : Str) : Str :=
  match filename with
  | some (c :: rest) => c :: rest
  | _ => photoId.text ++ 46 :: ext

/-- The row both upload paths insert. -/
def newPhoto (photoId : UUID) (filename : Option Str) (ext traceId : Str)
    (batchId : Option UUID) : NewPhoto where
  photoId := photoId
  filename := filenameOr filename photoId ext
  objectKey := objectKey photoId ext
  status := .pending
  publishStatus := .notSent
  traceId := traceId
  batchId := batchId

def unreachable (photoId : Option Str) : PyExc :=
  AppError.storageUnavailable.exc (py "Storage is unreachable") photoId

def createPhoto (settings : Settings) (file : UploadFile) : Py Reply := do
  let (ext, contentType) ← ofExcept (validate file.data)
  let photoId ← wait .uuid4
  let key := objectKey photoId ext
  let traceId ← traceIdVar
  PhotoRepository.create (newPhoto photoId file.filename ext traceId none)
  let _ ← (ObjectStorage.saveFile settings.minioBucket key file.data
      file.data.length contentType).tryExcept fun exc =>
    if exc.isStorageFailure then do
      wait .rollback
      wait (.count .storageUploadErrorsTotal 1)
      .raise (unreachable (some photoId.text))
    else .raise exc
  wait .commit
  wait (.count .photosUploadedTotal 1)
  pure (.uploadPhoto photoId.text (py "pending"))

/-! ## Batches -/

structure ValidatedFile where
  filename : Option Str
  data : Bytes
  ext : Str
  contentType : Str

def validateAll : List UploadFile → Except PyExc (List ValidatedFile)
  | [] => .ok []
  | file :: files => do
      let (ext, contentType) ← validate file.data
      let rest ← validateAll files
      .ok (⟨file.filename, file.data, ext, contentType⟩ :: rest)

def deleteAll : List Str → Py Unit
  | [] => pure ()
  | key :: keys => do
      ObjectStorage.deleteFile key
      deleteAll keys

/-- The `except (StorageUnavailable, TimeoutError)` clause. -/
def abandonBatch (savedObjectKeys : List Str) : Py (List UUID) := do
  wait .rollback
  wait (.count .storageUploadErrorsTotal 1)
  deleteAll savedObjectKeys
  .raise (unreachable none)

/-- One turn of the loop over the files: the photo's id and object key. -/
def storeFile (settings : Settings) (batchId : UUID) (traceId : Str)
    (file : ValidatedFile) : Py (UUID × Str) := do
  let photoId ← wait .uuid4
  let key := objectKey photoId file.ext
  PhotoRepository.create
    (newPhoto photoId file.filename file.ext traceId (some batchId))
  let _ ← ObjectStorage.saveFile settings.minioBucket key file.data
    file.data.length file.contentType
  pure (photoId, key)

def storeFiles (settings : Settings) (batchId : UUID) (traceId : Str) :
    List ValidatedFile → (photos : List UUID) → (savedObjectKeys : List Str) →
      Py (List UUID)
  | [], photos, _ => pure photos
  | file :: files, photos, saved => do
      match ← (storeFile settings batchId traceId file).attempt with
      | .ok (photoId, key) =>
          storeFiles settings batchId traceId files (photos ++ [photoId])
            (saved ++ [key])
      | .error exc =>
          if exc.isStorageFailure then abandonBatch saved else .raise exc

def batchSizeMessage (count : Nat) : Str :=
  py s!"Batch must contain between {minBatchSize} and {maxBatchSize} files " ++
    py s!"(got {count})"

def batchTotalMessage (total : Nat) : Str :=
  py s!"Batch total size {total} bytes exceeds the maximum allowed " ++
    py s!"{batchMaxTotalBytes} bytes"

/-- Both checks that come before any write. -/
def checkBatch (files : List UploadFile) : Except PyExc (List ValidatedFile) :=
  if ¬(minBatchSize ≤ files.length ∧ files.length ≤ maxBatchSize) then
    .error (AppError.batchSize.exc (batchSizeMessage files.length))
  else do
    let validated ← validateAll files
    let total := (validated.map fun file => file.data.length).sum
    if total > batchMaxTotalBytes then
      .error (AppError.payloadTooLarge.exc (batchTotalMessage total))
    else .ok validated

def createBatch (settings : Settings) (files : List UploadFile) : Py Reply := do
  let validated ← ofExcept (checkBatch files)
  let batchId ← wait .uuid4
  BatchRepository.create batchId .processing
  let traceId ← traceIdVar
  let photos ← storeFiles settings batchId traceId validated [] []
  wait .commit
  wait (.count .photosUploadedTotal photos.length)
  pure (.batchAccepted batchId.text
    (photos.map fun photoId => ⟨photoId.text, py "pending"⟩))

/-! ## Reads -/

def photoResponse (loaded : LoadedPhoto) : PhotoResponse where
  id := loaded.photo.photoId.text
  filename := loaded.photo.filename
  status := loaded.photo.status.value
  analysis := analysisResponse loaded.analysis

def getPhoto (photoId : UUID) : Py Reply := do
  match ← PhotoRepository.getById photoId with
  | some loaded => pure (.photo (photoResponse loaded))
  | none => .raise (AppError.notFound.exc (py "Photo not found"))

def listPhotos (limit offset : Nat) : Py Reply := do
  let photos ← PhotoRepository.list limit offset
  pure (.photos (photos.map photoResponse))

def getPhotoContent (photoId : UUID) : Py Reply := do
  match ← PhotoRepository.getById photoId with
  | none => .raise (AppError.notFound.exc (py "Photo not found"))
  | some loaded =>
      let key := loaded.photo.objectKey
      let data ← (ObjectStorage.getFile key).tryExcept fun exc =>
        if exc.isTimeout then .raise (unreachable (some photoId.text))
        else .raise exc
      pure (.content data (extToMime key) loaded.photo.filename)

end PhotoService

end PhotoAnalysis

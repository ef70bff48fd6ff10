import PhotoAnalysis.World

/-!
# Repositories

The data access layer: every statement and query of the service.  A repository
never commits; the transaction belongs to its caller.
-/

namespace PhotoAnalysis

open Foundation Program

/-- `async with session_factory() as session` -/
def withSession {α : Type} (body : Py α) : Py α :=
  body.tryFinally (wait .close)

/-- A photo with its `analysis` relationship loaded. -/
structure LoadedPhoto where
  photo : Photo
  analysis : Option AnalysisResult
  deriving DecidableEq, Repr

/-- `selectinload(Photo.analysis)`: a second query, if there are photos. -/
def loadAnalyses (photos : List Photo) : Py (List LoadedPhoto) := do
  if photos.isEmpty then pure []
  else
    let rows ← wait (.select (.analyses (photos.map Photo.photoId)))
    pure (photos.map fun photo =>
      ⟨photo, rows.find? fun row => row.photoId = photo.photoId⟩)

namespace PhotoRepository

/-- Add and flush; a constraint violation becomes a conflict. -/
def create (photo : NewPhoto) : Py Unit := do
  let _ ← (wait (.execute (.insertPhoto photo))).tryExcept fun
    | .integrity _ => .raise (AppError.conflict.exc (py "Photo already exists"))
    | exc => .raise exc

def getById (photoId : UUID) : Py (Option LoadedPhoto) := do
  match ← wait (.select (.photo photoId)) with
  | some photo =>
      let loaded ← loadAnalyses [photo]
      pure loaded.head?
  | none => pure none

def list (limit offset : Nat) : Py (List LoadedPhoto) := do
  loadAnalyses (← wait (.select (.photos limit offset)))

def claimStmt (photoId : UUID) : Stmt :=
  .updatePhoto photoId (some .pending) { status := some .processing }

/-- `pending` to `processing`; the number of rows updated. -/
def claimForProcessing (photoId : UUID) : Py Nat :=
  wait (.execute (claimStmt photoId))

def attemptValues (attempts : Nat) (errorCode errorMessage : Str) :
    PhotoValues where
  attempts := some attempts
  lastErrorCode := some (some errorCode)
  lastErrorMessage := some (some errorMessage)

def recordAttempt (photoId : UUID) (attempts : Nat)
    (errorCode errorMessage : Str) : Py Unit := do
  let _ ← wait (.execute (.updatePhoto photoId none
    (attemptValues attempts errorCode errorMessage)))

def doneValues (attempts : Nat) : PhotoValues where
  status := some .done
  attempts := some attempts
  lastErrorCode := some none
  lastErrorMessage := some none

def markDone (photoId : UUID) (attempts : Nat) : Py Unit := do
  let _ ← wait (.execute (.updatePhoto photoId none (doneValues attempts)))

def failedValues (errorCode errorMessage : Str) (attempts : Nat) :
    PhotoValues where
  status := some .failed
  lastErrorCode := some (some errorCode)
  lastErrorMessage := some (some errorMessage)
  attempts := some attempts

def markFailed (photoId : UUID) (errorCode errorMessage : Str)
    (attempts : Nat) : Py Unit := do
  let _ ← wait (.execute (.updatePhoto photoId none
    (failedValues errorCode errorMessage attempts)))

def fetchUnpublished (limit : Nat) : Py (List Photo) :=
  wait (.select (.unpublished limit))

def publishedValues (publishedAt : Time) : PhotoValues where
  publishStatus := some .sent
  publishedAt := some publishedAt

def markPublished (photoId : UUID) : Py Unit := do
  let publishedAt ← wait .utcnow
  let _ ← wait (.execute (.updatePhoto photoId none (publishedValues publishedAt)))

end PhotoRepository

/-- An insert that does nothing if the photo already has a result. -/
def AnalysisResultRepository.upsert (photoId : UUID)
    (response : AnalyzePhotoResponse) : Py Unit := do
  let _ ← wait (.execute (.insertAnalysis photoId response.facesCount
    response.isBlurred response.blurScore response.perceptualHash))

/-- A batch with its `photos` relationship loaded, in its declared order. -/
structure LoadedBatch where
  batch : Batch
  photos : List LoadedPhoto
  deriving DecidableEq, Repr

namespace BatchRepository

def create (batchId : UUID) (status : BatchStatus) : Py Unit := do
  let _ ← wait (.execute (.insertBatch batchId status))

def getById (batchId : UUID) : Py (Option LoadedBatch) := do
  match ← wait (.select (.batch batchId)) with
  | some batch =>
      let photos ← wait (.select (.batchPhotos batchId))
      let loaded ← loadAnalyses photos
      pure (some ⟨batch, loaded⟩)
  | none => pure none

def markCompleted (batchId : UUID) (bestPhotoId : Option UUID) : Py Unit := do
  let _ ← wait (.execute (.updateBatch batchId .completed bestPhotoId))

end BatchRepository

end PhotoAnalysis

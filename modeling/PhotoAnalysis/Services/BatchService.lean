import PhotoAnalysis.Services.PhotoService

/-!
# Batches

`BatchService.get_batch` recomputes the status and the best photo of a batch
from its photos, and writes them through when it first sees the batch completed.
-/

namespace PhotoAnalysis.BatchService

open Foundation Program

def terminal (status : PhotoStatus) : Bool := status = .done || status = .failed

/-- The sort key of a candidate: the photo and its analysis. -/
abbrev Candidate := Photo × AnalysisResult

/--
`key(a) < key(b)` for the keys `(is_blurred, blur_score, -faces_count,
created_at, photo_id)`: the first components that differ decide, and doubles
that are equal as numbers do not differ.
-/
def keyLess (a b : Candidate) : Bool :=
  if a.2.isBlurred ≠ b.2.isBlurred then b.2.isBlurred
  else if ¬Double.eq a.2.blurScore b.2.blurScore then
    Double.lt a.2.blurScore b.2.blurScore
  else if a.2.facesCount ≠ b.2.facesCount then
    decide (-a.2.facesCount < -b.2.facesCount)
  else if a.1.createdAt ≠ b.1.createdAt then
    decide (a.1.createdAt < b.1.createdAt)
  else decide (a.1.photoId < b.1.photoId)

/-- `min`: the first of the least elements. -/
def minByKey : Candidate → List Candidate → Candidate
  | best, [] => best
  | best, candidate :: rest =>
      minByKey (if keyLess candidate best then candidate else best) rest

def candidate (loaded : LoadedPhoto) : Option Candidate :=
  if loaded.photo.status = .done then
    loaded.analysis.map fun analysis => (loaded.photo, analysis)
  else none

def selectBestPhoto (photos : List LoadedPhoto) : Option UUID :=
  match photos.filterMap candidate with
  | [] => none
  | first :: rest => some (minByKey first rest).1.photoId

/-- `bool(photos) and all(p.status in _TERMINAL_STATUSES for p in photos)` -/
def allTerminal (photos : List LoadedPhoto) : Bool :=
  !photos.isEmpty && photos.all fun loaded => terminal loaded.photo.status

def photoDetail (loaded : LoadedPhoto) : BatchPhotoDetail where
  photoId := loaded.photo.photoId.text
  filename := loaded.photo.filename
  status := loaded.photo.status.value
  analysis := PhotoService.analysisResponse loaded.analysis

def batchResponse (batchId : UUID) (photos : List LoadedPhoto) :
    BatchResponse where
  batchId := batchId.text
  status := if allTerminal photos then py "completed" else py "processing"
  photos := photos.map photoDetail
  bestPhotoId :=
    if allTerminal photos then (selectBestPhoto photos).map UUID.text else none

def getBatch (batchId : UUID) : Py Reply := do
  match ← BatchRepository.getById batchId with
  | none => .raise (AppError.notFound.exc (py "Batch not found"))
  | some loaded => do
      if allTerminal loaded.photos ∧ loaded.batch.status ≠ .completed then do
        BatchRepository.markCompleted loaded.batch.batchId
          (selectBestPhoto loaded.photos)
        wait .commit
      pure (.batch (batchResponse loaded.batch.batchId loaded.photos))

end PhotoAnalysis.BatchService

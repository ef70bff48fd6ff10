import Mathlib.Data.List.Sort
import Mathlib.Data.List.TakeDrop
import PhotoAnalysis.Core.Errors
import PhotoAnalysis.Foundation.Table
import PhotoAnalysis.Foundation.TxStore
import PhotoAnalysis.Foundation.Uuid

/-!
# The database

The rows of the tables `photos`, `analysis_results` and `batches`, the
statements the repositories issue and what each of them does to the tables: the
column types and constraints it is checked against, the rows it matches and the
write it leaves in the transaction.
-/

namespace PhotoAnalysis

open Foundation

/-- Microseconds since 1970-01-01T00:00:00+00:00. -/
abbrev Time := Nat

inductive PhotoStatus where
  | pending
  | processing
  | done
  | failed
  deriving DecidableEq, Repr

def PhotoStatus.value : PhotoStatus → Str
  | pending => py "pending"
  | processing => py "processing"
  | done => py "done"
  | failed => py "failed"

/-- The values the `CHECK` constraint on `publish_status` admits. -/
inductive PublishStatus where
  | notSent
  | sent
  deriving DecidableEq, Repr

/-- The values the `CHECK` constraint on `batches.status` admits. -/
inductive BatchStatus where
  | processing
  | completed
  deriving DecidableEq, Repr

/-- An IEEE 754 double, as its 64 bits. -/
abbrev Double := BitVec 64

namespace Double

def magnitude (x : Double) : Nat := x.toNat % 2 ^ 63

def isNaN (x : Double) : Bool := 0x7FF0000000000000 < magnitude x

/-- The order of the values that are not NaN; both zeros have the same place. -/
def rank (x : Double) : Int :=
  if x.toNat < 2 ^ 63 then magnitude x else -(magnitude x : Int)

def lt (x y : Double) : Bool := !isNaN x && !isNaN y && rank x < rank y

def eq (x y : Double) : Bool := !isNaN x && !isNaN y && rank x = rank y

end Double

structure Photo where
  photoId : UUID
  filename : Str
  objectKey : Str
  createdAt : Time
  status : PhotoStatus
  attempts : Nat
  lastErrorCode : Option Str
  lastErrorMessage : Option Str
  publishStatus : PublishStatus
  publishedAt : Option Time
  traceId : Option Str
  batchId : Option UUID
  deriving DecidableEq, Repr

structure AnalysisResult where
  photoId : UUID
  facesCount : Int
  isBlurred : Bool
  blurScore : Double
  perceptualHash : Str
  createdAt : Time
  deriving DecidableEq, Repr

structure Batch where
  batchId : UUID
  status : BatchStatus
  bestPhotoId : Option UUID
  createdAt : Time
  deriving DecidableEq, Repr

structure Tables where
  photos : Table UUID Photo Photo.photoId
  analyses : Table UUID AnalysisResult AnalysisResult.photoId
  batches : Table UUID Batch Batch.batchId

namespace Tables

def empty : Tables := ⟨.empty, .empty, .empty⟩

def photo (tables : Tables) (id : UUID) : Option Photo := tables.photos.find id

def analysis (tables : Tables) (id : UUID) : Option AnalysisResult :=
  tables.analyses.find id

def batch (tables : Tables) (id : UUID) : Option Batch := tables.batches.find id

end Tables

/-! ## Columns -/

namespace Column

/-- A value a text column can hold at all. -/
def storable (s : Str) : Bool :=
  s.all fun c => Text.isScalar c && c != 0

/-- A value a column of type `VARCHAR(n)` holds. -/
def holds (n : Nat) (s : Str) : Bool := storable s && s.length ≤ n

/-- A value that can be written to such a column: what is too long of it is spaces. -/
def fits (n : Nat) (s : Str) : Bool := storable s && (s.drop n).all (· = 32)

/-- What the column then holds. -/
def cut (n : Nat) (s : Str) : Str := s.take n

theorem cut_eq_self {n : Nat} {s : Str} : cut n s = s ↔ s.length ≤ n :=
  List.take_eq_self_iff s

theorem length_cut_le (n : Nat) (s : Str) : (cut n s).length ≤ n :=
  List.length_take_le n s

theorem fits_of_holds {n : Nat} {s : Str} (h : holds n s = true) : fits n s = true := by
  simp only [holds, Bool.and_eq_true, decide_eq_true_eq] at h
  simp [fits, h.1, List.drop_eq_nil_of_le h.2]

theorem storable_of_holds {n : Nat} {s : Str} (h : holds n s = true) :
    storable s = true := by
  rw [holds, Bool.and_eq_true] at h
  exact h.1

theorem holds_cut {n : Nat} {s : Str} (h : fits n s = true) : holds n (cut n s) = true := by
  simp only [fits, storable, Bool.and_eq_true, List.all_eq_true] at h
  simp only [holds, storable, Bool.and_eq_true, List.all_eq_true, decide_eq_true_eq]
  exact ⟨fun c hc => h.1 c (List.mem_of_mem_take hc), length_cut_le n s⟩

end Column

/-! ## Statements -/

/-- The values of an `INSERT INTO photos`; the other columns take defaults. -/
structure NewPhoto where
  photoId : UUID
  filename : Str
  objectKey : Str
  status : PhotoStatus
  publishStatus : PublishStatus
  traceId : Str
  batchId : Option UUID
  deriving DecidableEq, Repr

def NewPhoto.row (photo : NewPhoto) (now : Time) : Photo where
  photoId := photo.photoId
  filename := Column.cut 512 photo.filename
  objectKey := Column.cut 1024 photo.objectKey
  createdAt := now
  status := photo.status
  attempts := 0
  lastErrorCode := none
  lastErrorMessage := none
  publishStatus := photo.publishStatus
  publishedAt := none
  traceId := some (Column.cut 64 photo.traceId)
  batchId := photo.batchId

/-- The values of an `UPDATE photos`; a column that is not set keeps its value. -/
structure PhotoValues where
  status : Option PhotoStatus := none
  attempts : Option Nat := none
  lastErrorCode : Option (Option Str) := none
  lastErrorMessage : Option (Option Str) := none
  publishStatus : Option PublishStatus := none
  publishedAt : Option Time := none
  deriving DecidableEq, Repr

def Photo.set (values : PhotoValues) (photo : Photo) : Photo :=
  { photo with
    status := values.status.getD photo.status
    attempts := values.attempts.getD photo.attempts
    lastErrorCode :=
      (values.lastErrorCode.map (Option.map (Column.cut 64))).getD photo.lastErrorCode
    lastErrorMessage := values.lastErrorMessage.getD photo.lastErrorMessage
    publishStatus := values.publishStatus.getD photo.publishStatus
    publishedAt := values.publishedAt <|> photo.publishedAt }

@[simp] theorem Photo.photoId_set (values : PhotoValues) (photo : Photo) :
    (photo.set values).photoId = photo.photoId := rfl

def Batch.complete (status : BatchStatus) (best : Option UUID) (batch : Batch) :
    Batch :=
  { batch with status := status, bestPhotoId := best }

@[simp] theorem Batch.batchId_complete (status : BatchStatus)
    (best : Option UUID) (batch : Batch) :
    (batch.complete status best).batchId = batch.batchId := rfl

inductive Stmt where
  | insertPhoto (photo : NewPhoto)
  | insertBatch (batchId : UUID) (status : BatchStatus)
  /-- `ON CONFLICT (photo_id) DO NOTHING` -/
  | insertAnalysis (photoId : UUID) (facesCount : Int) (isBlurred : Bool)
      (blurScore : Double) (perceptualHash : Str)
  /-- `WHERE photo_id = ..`, and `AND status = ..` where one is given -/
  | updatePhoto (photoId : UUID) (status : Option PhotoStatus)
      (values : PhotoValues)
  | updateBatch (batchId : UUID) (status : BatchStatus) (best : Option UUID)
  deriving DecidableEq, Repr

/-- What a statement that matched leaves in its transaction. -/
inductive Write where
  | addPhoto (row : Photo)
  | addBatch (row : Batch)
  | addAnalysis (row : AnalysisResult)
  | setPhoto (photoId : UUID) (values : PhotoValues)
  | setBatch (batchId : UUID) (status : BatchStatus) (best : Option UUID)
  deriving DecidableEq, Repr

/-- Rows and unique index entries, as a transaction locks them. -/
inductive RowKey where
  | photo (id : UUID)
  | objectKey (key : Str)
  | analysis (id : UUID)
  | batch (id : UUID)
  deriving DecidableEq, Repr

namespace Write

def keys : Write → List RowKey
  | addPhoto row => [.photo row.photoId, .objectKey row.objectKey]
  | addBatch row => [.batch row.batchId]
  | addAnalysis row => [.analysis row.photoId]
  | setPhoto id _ => [.photo id]
  | setBatch id _ _ => [.batch id]

def apply (tables : Tables) : Write → Tables
  | addPhoto row => { tables with photos := tables.photos.add row }
  | addBatch row => { tables with batches := tables.batches.add row }
  | addAnalysis row => { tables with analyses := tables.analyses.add row }
  | setPhoto id values =>
      { tables with
        photos := tables.photos.modify id (Photo.set values)
          (Photo.photoId_set values) }
  | setBatch id status best =>
      { tables with
        batches := tables.batches.modify id (Batch.complete status best)
          (Batch.batchId_complete status best) }

end Write

abbrev Database := TxStore Tables Write RowKey Write.keys

/-! ## What a statement does -/

/-- `INSERT` and `UPDATE` reject a value that its column cannot hold. -/
def NewPhoto.fits (photo : NewPhoto) : Bool :=
  Column.fits 512 photo.filename && Column.fits 1024 photo.objectKey &&
    Column.fits 64 photo.traceId

def PhotoValues.storable (values : PhotoValues) : Bool :=
  ((values.lastErrorCode.bind id).all Column.storable) &&
    ((values.lastErrorMessage.bind id).all Column.storable)

def PhotoValues.fits (values : PhotoValues) : Bool :=
  values.storable && (values.lastErrorCode.bind id).all (Column.fits 64)

namespace Stmt

def tooLong : PyExc := .data (py "value too long for type character varying")

def uniqueViolation : PyExc :=
  .integrity (py "duplicate key value violates unique constraint")

def foreignKeyViolation : PyExc :=
  .integrity (py "insert or update violates foreign key constraint")

/--
Evaluate a statement on the tables its transaction sees: the write it leaves,
`none` when it matches no row, or the exception the database raises.
-/
def resolve (now : Time) (tables : Tables) : Stmt → Except PyExc (Option Write)
  | insertPhoto photo =>
      if !photo.fits then .error tooLong
      else if (tables.photo photo.photoId).isSome ||
          tables.photos.rows.any (fun row =>
            row.objectKey = Column.cut 1024 photo.objectKey) then
        .error uniqueViolation
      else if photo.batchId.any fun id => (tables.batch id).isNone then
        .error foreignKeyViolation
      else .ok (some (.addPhoto (photo.row now)))
  | insertBatch id status =>
      if (tables.batch id).isSome then .error uniqueViolation
      else .ok (some (.addBatch ⟨id, status, none, now⟩))
  | insertAnalysis id faces blurred score hash =>
      if !Column.fits 64 hash then .error tooLong
      else if (tables.analysis id).isSome then .ok none
      else if (tables.photo id).isNone then .error foreignKeyViolation
      else .ok (some (.addAnalysis ⟨id, faces, blurred, score, Column.cut 64 hash, now⟩))
  | updatePhoto id status values =>
      if !values.storable then .error tooLong
      else
        match tables.photo id with
        | none => .ok none
        | some photo =>
            if status.all (photo.status = ·) then
              if values.fits then .ok (some (.setPhoto id values))
              else .error tooLong
            else .ok none
  | updateBatch id status best =>
      if (tables.batch id).isNone then .ok none
      else if best.any fun photoId => (tables.photo photoId).isNone then
        .error foreignKeyViolation
      else .ok (some (.setBatch id status best))

end Stmt

/-! ## Queries -/

/-- `ORDER BY photos.created_at, photos.photo_id` -/
def Photo.listedBefore (p q : Photo) : Prop :=
  p.createdAt < q.createdAt ∨ p.createdAt = q.createdAt ∧ p.photoId ≤ q.photoId

instance : DecidableRel Photo.listedBefore := fun _ _ =>
  inferInstanceAs (Decidable (_ ∨ _))

inductive Query where
  /-- `SELECT photos WHERE photo_id = ..` -/
  | photo (photoId : UUID)
  /-- `SELECT photos ORDER BY created_at DESC LIMIT .. OFFSET ..` -/
  | photos (limit offset : Nat)
  /-- `SELECT analysis_results WHERE photo_id IN (..)` -/
  | analyses (photoIds : List UUID)
  /-- `SELECT batches WHERE batch_id = ..` -/
  | batch (batchId : UUID)
  /-- `SELECT photos WHERE batch_id = .. ORDER BY created_at, photo_id` -/
  | batchPhotos (batchId : UUID)
  /-- `SELECT photos WHERE publish_status = 'not_sent' ORDER BY created_at
  LIMIT ..` -/
  | unpublished (limit : Nat)
  deriving DecidableEq, Repr

namespace Query

abbrev Answer : Query → Type
  | photo _ => Option Photo
  | photos _ _ => List Photo
  | analyses _ => List AnalysisResult
  | batch _ => Option Batch
  | batchPhotos _ => List Photo
  | unpublished _ => List Photo

/--
The rows in the order of the given identifiers, where that is one of the orders
an `ORDER BY` allows: it lists each row once and respects `before`.
-/
def inOrder (before : Photo → Photo → Bool) (rows : List Photo)
    (order : List UUID) : Option (List Photo) :=
  let listed := order.filterMap fun id => rows.find? (·.photoId = id)
  if listed.map Photo.photoId = order ∧ order.Nodup ∧
      listed.length = rows.length ∧ listed.Pairwise (before · ·) then some listed
  else none

/-- `order` settles what the `ORDER BY` of a query leaves open. -/
def answer (tables : Tables) (order : List UUID) : (q : Query) → Option q.Answer
  | photo id => some (tables.photo id)
  | photos limit offset =>
      (inOrder (fun p q => q.createdAt ≤ p.createdAt) tables.photos.rows
        order).map fun rows => (rows.drop offset).take limit
  | analyses ids =>
      some (tables.analyses.rows.filter fun row => row.photoId ∈ ids)
  | batch id => some (tables.batch id)
  | batchPhotos id =>
      some ((tables.photos.rows.filter fun row =>
        row.batchId = some id).insertionSort Photo.listedBefore)
  | unpublished limit =>
      (inOrder (fun p q => p.createdAt ≤ q.createdAt)
        (tables.photos.rows.filter fun row => row.publishStatus = .notSent)
        order).map (List.take limit)

end Query

end PhotoAnalysis

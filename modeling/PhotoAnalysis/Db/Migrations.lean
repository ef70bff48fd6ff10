import PhotoAnalysis.Db.Models
import PhotoAnalysis.Foundation.Migrations

/-!
# The migrations

The revisions v001 and v002 as scripts, and the tables that `Base.metadata`
declares.
-/

namespace PhotoAnalysis.Migrations

open Foundation Sql

/-- The names the scripts and the models use. -/
inductive Name where
  | photoStatus
  | photos
  | analysisResults
  | batches
  | photoId
  | filename
  | objectKey
  | userId
  | createdAt
  | status
  | attempts
  | lastErrorCode
  | lastErrorMessage
  | publishStatus
  | publishedAt
  | traceId
  | batchId
  | facesCount
  | isBlurred
  | blurScore
  | perceptualHash
  | bestPhotoId
  | uqPhotosObjectKey
  | fkAnalysisResultsPhotoIdPhotos
  | fkBatchesBestPhotoIdPhotos
  | fkPhotosBatchIdBatches
  | ckBatchesStatus
  | ckPhotosPublishStatus
  | ixPhotosCreatedAt
  | ixPhotosBatchId
  | ixPhotosStatus
  | ixPhotosPublishStatus
  | ixBatchesCreatedAt
  -- the names PostgreSQL gives to the constraints that the models leave unnamed
  | photosObjectKeyKey
  | photosBatchIdFkey
  | analysisResultsPhotoIdFkey
  | batchesBestPhotoIdFkey
  deriving DecidableEq, Repr

inductive BaseType where
  | uuid
  | string (length : Nat)
  | text
  | integer
  | boolean
  | float
  | dateTime
  deriving DecidableEq, Repr

inductive Value where
  | uuid (id : UUID)
  | str (s : Str)
  | int (n : Int)
  | bool (b : Bool)
  | double (x : Double)
  | time (t : Time)
  deriving DecidableEq, Repr

/-- `INTEGER` has four bytes. -/
instance : Typing BaseType Value where
  holds
    | .uuid, .uuid _ => true
    | .string length, .str s => Column.holds length s
    | .text, .str s => Column.storable s
    | .integer, .int n => decide (-2 ^ 31 ≤ n ∧ n < 2 ^ 31)
    | .boolean, .bool _ => true
    | .float, .double _ => true
    | .dateTime, .time _ => true
    | _, _ => false

abbrev Column := Sql.Column Name BaseType Value

abbrev TableDef := Sql.TableDef Name BaseType Value

abbrev Script := Sql.Script Name BaseType Value

abbrev Schema := Sql.Schema Name BaseType Value

/-- `sa.Column(name, type, nullable=.., server_default=..)` -/
def column (name : Name) (type : BaseType) (nullable : Bool)
    (serverDefault : Option (Default Value) := none) : Column :=
  ⟨name, .base type, nullable, serverDefault⟩

/-- `sa.Column(name, postgresql.UUID(as_uuid=True), primary_key=True)` -/
def primaryKeyColumn (name : Name) : Column := column name .uuid false

/-- `sa.Column("created_at", .., server_default=sa.func.now(), nullable=False)` -/
def createdAtColumn : Column := column .createdAt .dateTime false (some .now)

def text (s : String) : Value := .str (py s)

def serverDefault (value : Value) : Option (Default Value) := some (.value value)

/-! ## v001 -/

def photoStatusEnum : List Value :=
  [text "pending", text "processing", text "done", text "failed"]

namespace V001

def photos : TableDef where
  name := .photos
  columns := [
    primaryKeyColumn .photoId,
    column .filename (.string 512) false,
    column .objectKey (.string 1024) false,
    column .userId (.string 255) true,
    createdAtColumn,
    ⟨.status, .enum .photoStatus, false, serverDefault (text "pending")⟩]
  primaryKey := some .photoId
  uniques := [⟨.uqPhotosObjectKey, .objectKey⟩]

def upgrade : Script := [
  .createType .photoStatus photoStatusEnum true,
  .createTable photos,
  .createIndex .photos ⟨.ixPhotosCreatedAt, .createdAt, none⟩]

def downgrade : Script := [
  .dropIndex .photos .ixPhotosCreatedAt,
  .dropTable .photos,
  .dropType .photoStatus true]

end V001

/-! ## v002 -/

namespace V002

def analysisResults : TableDef where
  name := .analysisResults
  columns := [
    primaryKeyColumn .photoId,
    column .facesCount .integer false,
    column .isBlurred .boolean false,
    column .blurScore .float false,
    column .perceptualHash (.string 64) false,
    createdAtColumn]
  primaryKey := some .photoId
  foreignKeys := [⟨.fkAnalysisResultsPhotoIdPhotos, .photoId, .photos, .photoId⟩]

def batches : TableDef where
  name := .batches
  columns := [
    primaryKeyColumn .batchId,
    column .status (.string 20) false (serverDefault (text "processing")),
    column .bestPhotoId .uuid true,
    createdAtColumn]
  primaryKey := some .batchId
  foreignKeys := [⟨.fkBatchesBestPhotoIdPhotos, .bestPhotoId, .photos, .photoId⟩]
  checks := [⟨.ckBatchesStatus, .status, [text "processing", text "completed"]⟩]

/-- The columns that `photos` gains. -/
def photosColumns : List Column := [
  column .attempts .integer false (serverDefault (.int 0)),
  column .lastErrorCode (.string 64) true,
  column .lastErrorMessage .text true,
  column .publishStatus (.string 20) false (serverDefault (text "not_sent")),
  column .publishedAt .dateTime true,
  column .traceId (.string 64) true,
  column .batchId .uuid true]

def createTables : Script := [
  .createTable analysisResults,
  .createTable batches,
  .createIndex .batches ⟨.ixBatchesCreatedAt, .createdAt, none⟩]

def batchForeignKey : ForeignKey Name :=
  ⟨.fkPhotosBatchIdBatches, .batchId, .batches, .batchId⟩

def publishStatusCheck : Check Name Value :=
  ⟨.ckPhotosPublishStatus, .publishStatus, [text "not_sent", text "sent"]⟩

def createIndexes : Script := [
  .createIndex .photos ⟨.ixPhotosBatchId, .batchId, none⟩,
  .createIndex .photos ⟨.ixPhotosStatus, .status, none⟩,
  .createIndex .photos
    ⟨.ixPhotosPublishStatus, .publishStatus, some (.publishStatus, text "not_sent")⟩]

def upgrade : Script :=
  createTables ++ photosColumns.map (.addColumn .photos) ++
    .addForeignKey .photos batchForeignKey :: .addCheck .photos publishStatusCheck ::
      createIndexes

def downgrade : Script := [
  .dropIndex .photos .ixPhotosPublishStatus,
  .dropIndex .photos .ixPhotosStatus,
  .dropIndex .photos .ixPhotosBatchId,
  .dropConstraint .photos .ckPhotosPublishStatus,
  .dropConstraint .photos .fkPhotosBatchIdBatches,
  .dropColumn .photos .batchId,
  .dropColumn .photos .traceId,
  .dropColumn .photos .publishedAt,
  .dropColumn .photos .publishStatus,
  .dropColumn .photos .lastErrorMessage,
  .dropColumn .photos .lastErrorCode,
  .dropColumn .photos .attempts,
  .dropIndex .batches .ixBatchesCreatedAt,
  .dropTable .batches,
  .dropTable .analysisResults]

end V002

/-- The revisions in the order of `down_revision`. -/
def versions : List (Revision Name BaseType Value) :=
  [⟨V001.upgrade, V001.downgrade⟩, ⟨V002.upgrade, V002.downgrade⟩]

/-! ## The declared tables -/

namespace Models

def photo : TableDef where
  name := .photos
  columns := [
    primaryKeyColumn .photoId,
    column .filename (.string 512) false,
    column .objectKey (.string 1024) false,
    column .userId (.string 255) true,
    createdAtColumn,
    ⟨.status, .enum .photoStatus, false, none⟩,
    column .attempts .integer false (serverDefault (.int 0)),
    column .lastErrorCode (.string 64) true,
    column .lastErrorMessage .text true,
    column .publishStatus (.string 20) false (serverDefault (text "not_sent")),
    column .publishedAt .dateTime true,
    column .traceId (.string 64) true,
    column .batchId .uuid true]
  primaryKey := some .photoId
  uniques := [⟨.photosObjectKeyKey, .objectKey⟩]
  foreignKeys := [⟨.photosBatchIdFkey, .batchId, .batches, .batchId⟩]
  checks := [⟨.ckPhotosPublishStatus, .publishStatus, [text "not_sent", text "sent"]⟩]
  indexes := [
    ⟨.ixPhotosCreatedAt, .createdAt, none⟩,
    ⟨.ixPhotosBatchId, .batchId, none⟩,
    ⟨.ixPhotosStatus, .status, none⟩,
    ⟨.ixPhotosPublishStatus, .publishStatus, some (.publishStatus, text "not_sent")⟩]

def analysisResult : TableDef where
  name := .analysisResults
  columns := [
    primaryKeyColumn .photoId,
    column .facesCount .integer false,
    column .isBlurred .boolean false,
    column .blurScore .float false,
    column .perceptualHash (.string 64) false,
    createdAtColumn]
  primaryKey := some .photoId
  foreignKeys := [⟨.analysisResultsPhotoIdFkey, .photoId, .photos, .photoId⟩]

def batch : TableDef where
  name := .batches
  columns := [
    primaryKeyColumn .batchId,
    column .status (.string 20) false (serverDefault (text "processing")),
    column .bestPhotoId .uuid true,
    createdAtColumn]
  primaryKey := some .batchId
  foreignKeys := [⟨.batchesBestPhotoIdFkey, .bestPhotoId, .photos, .photoId⟩]
  checks := [⟨.ckBatchesStatus, .status, [text "processing", text "completed"]⟩]
  indexes := [⟨.ixBatchesCreatedAt, .createdAt, none⟩]

/-- `Base.metadata` -/
def metadata : Schema where
  enums := [(.photoStatus, photoStatusEnum)]
  tables := [photo, analysisResult, batch]

end Models

end PhotoAnalysis.Migrations

import PhotoAnalysis.Guarantees.Batches
import PhotoAnalysis.Guarantees.Migrations
import PhotoAnalysis.Refinement.Provenance

/-!
# The rows of the migrated tables

The tables of the service as rows of the database that the migrations build.  In
every state the rows satisfy all that the migrated schema asks: types and lengths,
`NOT NULL`, unique and foreign keys, checks.
-/

namespace PhotoAnalysis

open Foundation Program

variable {settings : Settings} {state : State} {T : Tables}
variable {trace : Trace Op Op.Ans PyExc}

/-! ## What the statements let through -/

/--
What every statement makes sure of, and every write keeps, holds of the committed
tables.
-/
theorem reachable_tables {ok : Write → Prop} {P : Tables → Prop}
    (hok : ∀ stmt now T write, Stmt.resolve now T stmt = .ok (some write) → ok write)
    (hempty : P .empty) (happly : ∀ T write, ok write → P T → P (Write.apply T write))
    (h : Reachable settings state) : P state.world.db.committed := by
  have hfold : ∀ (ws : List Write) T, (∀ write ∈ ws, ok write) → P T →
      P (ws.foldl Write.apply T) := by
    intro ws
    induction ws with
    | nil => exact fun _ _ hp => hp
    | cons write ws ih =>
        intro T hws hp
        exact ih _ (fun other hother => hws other (.tail _ hother))
          (happly T write (hws write (.head _)) hp)
  let good (w : World) : Prop :=
    P w.db.committed ∧ ∀ t, ∀ write ∈ w.db.writes t, ok write
  have hclosed : ∀ (w : World) t outcome, good w → good (w.closed t outcome) := by
    intro w t outcome hw
    refine ⟨hw.1, fun other write hwrite => ?_⟩
    by_cases hother : other = t
    · subst hother
      have hnone : (w.closed other outcome).db.writes other = [] :=
        w.db.writes_rollback other
      rw [hnone] at hwrite
      cases hwrite
    · refine hw.2 other write ?_
      rw [← (w.db.kept_finish w.db.committed hother).writes]
      exact hwrite
  have hgood : good state.world := by
    refine Machine.Leads.induct (m := system settings)
      (P := fun state : State => good state.world) ?_ h ?_
    · intro pool label pool' hp hnext
      cases Machine.goes_of_next _ hnext with
      | start tid entry htask => exact hp
      | again tid loop htask => exact hp
      | returned tid reply loop htask => exact hclosed _ _ _ hp
      | raised tid exc loop htask => exact hclosed _ _ _ hp
      | crash tid now loop htask => exact hclosed _ _ _ hp
      | external event => cases event <;> exact hp
      | step tid choice op resume loop answer w' htask hperform =>
          have hdb := Transacts.perform hperform
          refine ⟨?_, fun other write hwrite => ?_⟩
          · rcases hdb.committed with heq | heq
            · exact heq ▸ hp.1
            · refine heq ▸ hfold _ _ (hp.2 tid) hp.1
          · by_cases hother : other = tid
            · subst hother
              rcases hdb.writes with heq | heq | ⟨stmt, added, rfl, hresolve, heq⟩
              · exact hp.2 other write (heq ▸ hwrite)
              · have hmem : write ∈ w'.db.writes other := hwrite
                rw [heq] at hmem
                cases hmem
              · have hmem : write ∈ w'.db.writes other := hwrite
                rw [heq, List.mem_append, List.mem_singleton] at hmem
                rcases hmem with hold | rfl
                · exact hp.2 other write hold
                · exact hok _ _ _ _ hresolve
            · refine hp.2 other write ?_
              rw [← (Spared.perform hperform hother).writes]
              exact hwrite
    · refine ⟨hempty, fun t write hwrite => ?_⟩
      cases hwrite
  exact hgood.1

/-- A write whose texts fit the columns the worker writes. -/
def Write.Fits : Write → Prop
  | addPhoto row => row.lastErrorCode = none ∧ row.lastErrorMessage = none
  | setPhoto _ values => values.fits = true
  | addAnalysis row => Column.holds 64 row.perceptualHash = true
  | _ => True

theorem fits_of_resolve {stmt : Stmt} {now : Time} {write : Write}
    (h : stmt.resolve now T = .ok (some write)) : write.Fits := by
  cases stmt with
  | insertPhoto photo =>
      simp only [Stmt.resolve] at h
      split at h
      · cases h
      split at h
      · cases h
      split at h
      · cases h
      · cases h
        exact ⟨rfl, rfl⟩
  | insertBatch id status =>
      simp only [Stmt.resolve] at h
      split at h
      · cases h
      · cases h
        trivial
  | insertAnalysis id faces blurred score hash =>
      simp only [Stmt.resolve] at h
      split at h
      · cases h
      next hfits =>
        split at h
        · cases h
        split at h
        · cases h
        · cases h
          have hhash : Column.fits 64 hash = true := by simpa using hfits
          exact Column.holds_cut hhash
  | updatePhoto id status values =>
      simp only [Stmt.resolve] at h
      split at h
      · cases h
      split at h
      · cases h
      split at h
      · split at h
        next hfits =>
          cases h
          exact hfits
        next => cases h
      · cases h
  | updateBatch id status best =>
      simp only [Stmt.resolve] at h
      split at h
      · cases h
      split at h
      · cases h
      · cases h
        trivial

/-- The texts of the columns the worker writes fit them. -/
structure TextsFit (T : Tables) : Prop where
  errors : ∀ p ∈ T.photos.rows, p.lastErrorCode.all (Column.holds 64) = true ∧
    p.lastErrorMessage.all Column.storable = true
  hashes : ∀ row ∈ T.analyses.rows, Column.holds 64 row.perceptualHash = true

theorem all_set {α : Type} {test : α → Bool} {new : Option (Option α)} {old : Option α}
    (hnew : (new.bind id).all test = true) (hold : old.all test = true) :
    (new.getD old).all test = true := by
  cases new with
  | none => exact hold
  | some value => exact hnew

theorem all_holds_cut {n : Nat} {new : Option (Option Str)}
    (h : (new.bind id).all (Column.fits n) = true) :
    ((new.map (Option.map (Column.cut n))).bind id).all (Column.holds n) = true := by
  rcases new with _ | _ | code
  · rfl
  · rfl
  · exact Column.holds_cut h

theorem TextsFit.apply {write : Write} (hwrite : write.Fits) (h : TextsFit T) :
    TextsFit (Write.apply T write) := by
  cases write with
  | addPhoto row =>
      refine ⟨fun p hp => ?_, h.hashes⟩
      have hmem : p ∈ (T.photos.add row).rows := hp
      unfold Table.add at hmem
      split at hmem
      · rcases List.mem_append.mp hmem with hold | hnew
        · exact h.errors p hold
        · rw [List.mem_singleton.mp hnew, hwrite.1, hwrite.2]
          exact ⟨rfl, rfl⟩
      · exact h.errors p hmem
  | setPhoto id values =>
      refine ⟨fun p hp => ?_, h.hashes⟩
      obtain ⟨q, hq, rfl⟩ := List.mem_map.mp hp
      obtain ⟨hcode, hmessage⟩ := h.errors q hq
      split
      · have hfits : values.fits = true := hwrite
        simp only [PhotoValues.fits, PhotoValues.storable, Bool.and_eq_true] at hfits
        exact ⟨all_set (all_holds_cut hfits.2) hcode, all_set hfits.1.2 hmessage⟩
      · exact ⟨hcode, hmessage⟩
  | addAnalysis row =>
      refine ⟨h.errors, fun other hother => ?_⟩
      have hmem : other ∈ (T.analyses.add row).rows := hother
      unfold Table.add at hmem
      split at hmem
      · rcases List.mem_append.mp hmem with hold | hnew
        · exact h.hashes other hold
        · rw [List.mem_singleton.mp hnew]
          exact hwrite
      · exact h.hashes other hmem
  | addBatch row => exact ⟨h.errors, h.hashes⟩
  | setBatch id status best => exact ⟨h.errors, h.hashes⟩

theorem reachable_textsFit (h : Reachable settings state) :
    TextsFit state.world.db.committed :=
  reachable_tables (fun _ _ _ _ => fits_of_resolve)
    ⟨fun _ hp => (List.not_mem_nil hp).elim, fun _ hrow => (List.not_mem_nil hrow).elim⟩
    (fun _ _ => TextsFit.apply) h

/-! ## Rows -/

def PublishStatus.value : PublishStatus → Str
  | notSent => py "not_sent"
  | sent => py "sent"

def BatchStatus.value : BatchStatus → Str
  | processing => py "processing"
  | completed => py "completed"

namespace Migrations

open Sql

/-- A row of `photos`; nothing writes `user_id`. -/
def photoCells (p : Photo) : Row :=
  [(.photoId, some (.uuid p.photoId)), (.filename, some (.str p.filename)),
    (.objectKey, some (.str p.objectKey)), (.userId, none),
    (.createdAt, some (.time p.createdAt)), (.status, some (.str p.status.value)),
    (.attempts, some (.int p.attempts)), (.lastErrorCode, p.lastErrorCode.map .str),
    (.lastErrorMessage, p.lastErrorMessage.map .str),
    (.publishStatus, some (.str p.publishStatus.value)),
    (.publishedAt, p.publishedAt.map .time), (.traceId, p.traceId.map .str),
    (.batchId, p.batchId.map .uuid)]

def analysisCells (row : AnalysisResult) : Row :=
  [(.photoId, some (.uuid row.photoId)), (.facesCount, some (.int row.facesCount)),
    (.isBlurred, some (.bool row.isBlurred)), (.blurScore, some (.double row.blurScore)),
    (.perceptualHash, some (.str row.perceptualHash)),
    (.createdAt, some (.time row.createdAt))]

def batchCells (batch : Batch) : Row :=
  [(.batchId, some (.uuid batch.batchId)), (.status, some (.str batch.status.value)),
    (.bestPhotoId, batch.bestPhotoId.map .uuid), (.createdAt, some (.time batch.createdAt))]

def rowsOf (T : Tables) : Rows
  | .photos => T.photos.rows.map photoCells
  | .analysisResults => T.analyses.rows.map analysisCells
  | .batches => T.batches.rows.map batchCells
  | _ => []

/-- Four bytes, with a sign. -/
def isInt32 (n : Int) : Prop := -2 ^ 31 ≤ n ∧ n < 2 ^ 31

instance (n : Int) : Decidable (isInt32 n) := inferInstanceAs (Decidable (_ ∧ _))

/-- The values of a row of `photos`, one by one. -/
structure PhotoFits (T : Tables) (p : Photo) : Prop where
  filename : Column.holds 512 p.filename = true
  objectKey : Column.holds 1024 p.objectKey = true
  attempts : isInt32 p.attempts
  lastErrorCode : p.lastErrorCode.all (Column.holds 64) = true
  lastErrorMessage : p.lastErrorMessage.all Column.storable = true
  traceId : p.traceId.all (Column.holds 64) = true
  batchId : ∀ id, p.batchId = some id → (T.batch id).isSome

/-- What the tables have to satisfy for their rows to fit. -/
structure TablesFit (T : Tables) : Prop where
  photos : ∀ p ∈ T.photos.rows, PhotoFits T p
  objectKeys : (T.photos.rows.map Photo.objectKey).Nodup
  hashes : ∀ row ∈ T.analyses.rows, Column.holds 64 row.perceptualHash = true
  faces : ∀ row ∈ T.analyses.rows, isInt32 row.facesCount
  owners : ∀ row ∈ T.analyses.rows, (T.photo row.photoId).isSome
  best : ∀ batch ∈ T.batches.rows, ∀ id, batch.bestPhotoId = some id →
    (T.photo id).isSome

/-- An optional cell is `NULL`, or holds a value that its column admits. -/
theorem holds_map {α : Type} {schema : Schema} {column : Column} {cell : Option α}
    {value : α → Value} (hnullable : column.nullable = true)
    (h : ∀ a, cell = some a → schema.admits column.type (value a) = true) :
    schema.holds column (cell.map value) = true := by
  cases cell with
  | none => exact hnullable
  | some a => exact h a rfl

theorem admits_photoStatus (status : PhotoStatus) :
    Models.metadata.admits (.enum .photoStatus) (.str status.value) = true := by
  cases status <;> decide

theorem holds_publishStatus (status : PublishStatus) :
    Typing.holds (BaseType.string 20) (Value.str status.value) = true ∧
      Value.str status.value ∈ [text "not_sent", text "sent"] := by
  cases status <;> decide

theorem holds_batchStatus (status : BatchStatus) :
    Typing.holds (BaseType.string 20) (Value.str status.value) = true ∧
      Value.str status.value ∈ [text "processing", text "completed"] := by
  cases status <;> decide

theorem holds_int {n : Int} (h : isInt32 n) :
    Typing.holds BaseType.integer (Value.int n) = true :=
  decide_eq_true h

theorem resolves_photo {name column : Name} {id : Option UUID} {row : Row}
    (hrow : row.get column = id.map Value.uuid)
    (h : ∀ found, id = some found → (T.photo found).isSome) :
    (⟨name, column, .photos, .photoId⟩ : ForeignKey Name).resolves (rowsOf T) row = true := by
  simp only [ForeignKey.resolves, hrow]
  cases id with
  | none => rfl
  | some found =>
      obtain ⟨p, hp⟩ := Option.isSome_iff_exists.mp (h found rfl)
      simp only [Option.map_some, Option.all_some, List.any_eq_true]
      refine ⟨photoCells p, List.mem_map_of_mem (Table.mem_of_find hp), ?_⟩
      rw [← Table.key_of_find hp]
      exact decide_eq_true rfl

theorem resolves_batch {name column : Name} {id : Option UUID} {row : Row}
    (hrow : row.get column = id.map Value.uuid)
    (h : ∀ found, id = some found → (T.batch found).isSome) :
    (⟨name, column, .batches, .batchId⟩ : ForeignKey Name).resolves (rowsOf T) row = true := by
  simp only [ForeignKey.resolves, hrow]
  cases id with
  | none => rfl
  | some found =>
      obtain ⟨batch, hbatch⟩ := Option.isSome_iff_exists.mp (h found rfl)
      simp only [Option.map_some, Option.all_some, List.any_eq_true]
      refine ⟨batchCells batch, List.mem_map_of_mem (Table.mem_of_find hbatch), ?_⟩
      rw [← Table.key_of_find hbatch]
      exact decide_eq_true rfl

/-- A column that shows a key of the rows holds no value twice. -/
theorem distinct_of_nodup {ρ κ : Type} {rows : List ρ} {cells : ρ → Row} {column : Name}
    {key : ρ → κ} {value : κ → Value} (hvalue : Function.Injective value)
    (hget : ∀ row, (cells row).get column = some (value (key row)))
    (hnodup : (rows.map key).Nodup) : Distinct column (rows.map cells) := by
  have hcolumn : (rows.map cells).filterMap (fun row => Sql.Row.get row column) =
      (rows.map key).map value := by
    rw [List.filterMap_map, List.map_map, ← List.filterMap_eq_map]
    exact List.filterMap_congr fun row _ => hget row
  rw [Distinct, hcolumn]
  exact hnodup.map hvalue

theorem TablesFit.photo (h : TablesFit T) :
    Models.photo.Fits Models.metadata (rowsOf T) where
  shape := by
    simp only [rowsOf, Models.photo, List.forall_mem_map]
    exact fun p _ => rfl
  values := by
    simp only [rowsOf, Models.photo, List.forall_mem_map, List.forall_mem_cons]
    intro p hp
    have hfits := h.photos p hp
    refine ⟨rfl, hfits.filename, hfits.objectKey, rfl, rfl, admits_photoStatus p.status,
      holds_int hfits.attempts, ?_, ?_, (holds_publishStatus p.publishStatus).1, ?_, ?_, ?_,
      List.forall_mem_nil _⟩
    · exact holds_map rfl fun code hcode => by
        have hcodes := hfits.lastErrorCode
        rwa [hcode] at hcodes
    · exact holds_map rfl fun message hmessage => by
        have hmessages := hfits.lastErrorMessage
        rwa [hmessage] at hmessages
    · exact holds_map rfl fun _ _ => rfl
    · exact holds_map rfl fun traceId htraceId => by
        have htraceIds := hfits.traceId
        rwa [htraceId] at htraceIds
    · exact holds_map rfl fun _ _ => rfl
  checks := by
    simp only [rowsOf, Models.photo, List.forall_mem_map, List.forall_mem_singleton]
    exact fun p _ => decide_eq_true (holds_publishStatus p.publishStatus).2
  references := by
    simp only [rowsOf, Models.photo, List.forall_mem_map, List.forall_mem_singleton]
    exact fun p hp => resolves_batch rfl (h.photos p hp).batchId
  distinct := by
    intro key hkey
    rcases List.mem_pair.mp (show key ∈ [Name.photoId, .objectKey] from hkey) with rfl | rfl
    · exact distinct_of_nodup (fun _ _ heq => Value.uuid.inj heq) (fun _ => rfl)
        T.photos.nodup
    · exact distinct_of_nodup (fun _ _ heq => Value.str.inj heq) (fun _ => rfl) h.objectKeys

theorem TablesFit.analysisResult (h : TablesFit T) :
    Models.analysisResult.Fits Models.metadata (rowsOf T) where
  shape := by
    simp only [rowsOf, Models.analysisResult, List.forall_mem_map]
    exact fun row _ => rfl
  values := by
    simp only [rowsOf, Models.analysisResult, List.forall_mem_map, List.forall_mem_cons]
    exact fun row hrow => ⟨rfl, holds_int (h.faces row hrow), rfl, rfl, h.hashes row hrow, rfl,
      List.forall_mem_nil _⟩
  checks := fun _ _ _ hcheck => (List.not_mem_nil hcheck).elim
  references := by
    simp only [rowsOf, Models.analysisResult, List.forall_mem_map, List.forall_mem_singleton]
    intro row hrow
    have howner : ∀ found, some row.photoId = some found → (T.photo found).isSome := by
      intro found hfound
      cases hfound
      exact h.owners row hrow
    exact resolves_photo rfl howner
  distinct := by
    intro key hkey
    rw [List.mem_singleton.mp (show key ∈ [Name.photoId] from hkey)]
    exact distinct_of_nodup (fun _ _ heq => Value.uuid.inj heq) (fun _ => rfl)
      T.analyses.nodup

theorem TablesFit.batch (h : TablesFit T) :
    Models.batch.Fits Models.metadata (rowsOf T) where
  shape := by
    simp only [rowsOf, Models.batch, List.forall_mem_map]
    exact fun batch _ => rfl
  values := by
    simp only [rowsOf, Models.batch, List.forall_mem_map, List.forall_mem_cons]
    exact fun batch _ => ⟨rfl, (holds_batchStatus batch.status).1,
      holds_map rfl fun _ _ => rfl, rfl, List.forall_mem_nil _⟩
  checks := by
    simp only [rowsOf, Models.batch, List.forall_mem_map, List.forall_mem_singleton]
    exact fun batch _ => decide_eq_true (holds_batchStatus batch.status).2
  references := by
    simp only [rowsOf, Models.batch, List.forall_mem_map, List.forall_mem_singleton]
    exact fun batch hbatch => resolves_photo rfl (h.best batch hbatch)
  distinct := by
    intro key hkey
    rw [List.mem_singleton.mp (show key ∈ [Name.batchId] from hkey)]
    exact distinct_of_nodup (fun _ _ heq => Value.uuid.inj heq) (fun _ => rfl)
      T.batches.nodup

theorem TablesFit.fits (h : TablesFit T) : (schemas 2).Fits (rowsOf T) := by
  rw [← Schema.fits_essence, Path.essence path, Schema.fits_essence]
  simp only [Sql.Schema.Fits, Models.metadata, List.forall_mem_cons]
  exact ⟨h.photo, h.analysisResult, h.batch, List.forall_mem_nil _⟩

/-! ## What the service writes -/

/-- The analyzer counts faces in an `int32`. -/
def CountsInt32 (trace : Trace Op Op.Ans PyExc) : Prop :=
  ∀ t photoId objectKey response,
    (t, ⟨.analyzePhoto photoId objectKey, .ok response⟩) ∈ trace → isInt32 response.facesCount

/-- The upload that a photo comes from. -/
theorem uploaded_of_mem {p : Photo} (h : Reachable settings state)
    (hp : p ∈ state.world.db.committed.photos.rows) :
    ∃ file traceId batchId row, Uploads file traceId batchId row ∧
      row.photoId = p.photoId ∧ p.identity = row.identity := by
  have hI := reachable_inv h
  have hfind : state.world.db.committed.photo p.photoId = some p := Table.find_of_mem hp
  obtain ⟨created, file, hid, hcreated⟩ := hI.created p.photoId p hfind
  obtain ⟨⟨q, hq, hidentity⟩, -, traceId, batchId, huploads⟩ := hI.stored created file hcreated
  rw [hid] at hq
  obtain rfl : p = q := Option.some.inj (hfind.symm.trans hq)
  exact ⟨file, traceId, batchId, created, huploads, hid, hidentity⟩

theorem photoFits_of_reachable (h : Reachable settings state)
    (hmax : settings.workerMaxAttempts < 2 ^ 31) :
    ∀ p ∈ state.world.db.committed.photos.rows, PhotoFits state.world.db.committed p := by
  intro p hp
  have hI := reachable_inv h
  have htexts := (reachable_textsFit h).errors p hp
  have hfind : state.world.db.committed.photo p.photoId = some p := Table.find_of_mem hp
  obtain ⟨file, traceId, batchId, row, ⟨ext, contentType, now, -, hfits, hrow⟩, -, hidentity⟩ :=
    uploaded_of_mem h hp
  obtain ⟨-, hfilename, hkey, -, htraceId, -⟩ := Photo.identity_eq hidentity
  simp only [NewPhoto.fits, Bool.and_eq_true] at hfits
  obtain ⟨life, hshows⟩ := hI.life p.photoId _ (Tables.loaded_of_photo hfind)
  have hattempts : p.attempts = life.attempts :=
    congrArg (fun progress => progress.2.1) hshows.progress
  have hbound : life.attempts ≤ settings.workerMaxAttempts.toNat := by
    cases life with
    | pending | claimed => exact Nat.zero_le _
    | retrying n code message hn | done n result hn | failed n code message hn => exact hn.2
  refine ⟨?_, ?_, ⟨by omega, by omega⟩, htexts.1, htexts.2, ?_, fun id hid =>
    hI.member p.photoId p id hfind hid⟩
  · rw [hfilename, hrow]
    exact Column.holds_cut hfits.1.1
  · rw [hkey, hrow]
    exact Column.holds_cut hfits.1.2
  · rw [htraceId, hrow]
    exact Column.holds_cut hfits.2

/-- An object key names its photo. -/
theorem objectKeys_nodup (h : Reachable settings state) :
    (state.world.db.committed.photos.rows.map Photo.objectKey).Nodup := by
  have hkey : ∀ p ∈ state.world.db.committed.photos.rows,
      ∃ ext, p.objectKey = PhotoService.objectKey p.photoId ext := by
    intro p hp
    obtain ⟨file, traceId, batchId, row, huploads, hid, hidentity⟩ := uploaded_of_mem h hp
    obtain ⟨ext, hext⟩ := huploads.objectKey
    obtain ⟨-, -, hsame, -⟩ := Photo.identity_eq hidentity
    exact ⟨ext, by rw [hsame, hext, hid]⟩
  refine List.Nodup.map_on (fun p hp q hq heq => ?_) (.of_map _ (Table.nodup _))
  obtain ⟨ext, hp'⟩ := hkey p hp
  obtain ⟨ext', hq'⟩ := hkey q hq
  exact List.inj_on_of_nodup_map (Table.nodup _) hp hq
    (PhotoService.photoId_of_objectKey (hp'.symm.trans (heq.trans hq')))

theorem best_of_reachable (h : Reachable settings state) :
    ∀ batch ∈ state.world.db.committed.batches.rows, ∀ id, batch.bestPhotoId = some id →
      (state.world.db.committed.photo id).isSome := by
  intro batch hbatch id hid
  have hfind : state.world.db.committed.batch batch.batchId = some batch :=
    Table.find_of_mem hbatch
  have hok := (reachable_inv h).batches batch.batchId batch hfind
  cases hstatus : batch.status with
  | processing =>
      rw [hok.processing hstatus] at hid
      cases hid
  | completed =>
      rw [(hok.completed hstatus).2] at hid
      obtain ⟨loaded, hloaded, rfl, -⟩ := BatchService.selectBestPhoto_mem hid
      have hphoto : state.world.db.committed.photo loaded.photo.photoId = some loaded.photo := by
        rw [← Tables.photo_of_loaded]
        exact congrArg (Option.map LoadedPhoto.photo) (Tables.loaded_of_mem_members hloaded).1
      rw [hphoto]
      rfl

/--
In every run, whatever fails in it, the rows of the service are rows of the migrated
database: no value outgrows its column and no key is missing or taken twice.
-/
theorem tables_fit (hmax : settings.workerMaxAttempts < 2 ^ 31)
    (hrun : (system settings).Run start state trace) (hcounts : CountsInt32 trace) :
    (schemas 2).Fits (rowsOf state.world.db.committed) := by
  have h : Reachable settings state := hrun.leads
  have hI := reachable_inv h
  refine TablesFit.fits
    { photos := photoFits_of_reachable h hmax
      objectKeys := objectKeys_nodup h
      hashes := (reachable_textsFit h).hashes
      faces := fun row hrow => ?_
      owners := fun row hrow => ?_
      best := best_of_reachable h }
  · obtain ⟨response, ⟨t, photoId, objectKey, hmem, -⟩, hstored⟩ :=
      (run_sourced hrun).rows row hrow
    have hfaces : row.facesCount = response.facesCount :=
      congrArg AnalyzePhotoResponse.facesCount hstored
    exact hfaces ▸ hcounts t photoId objectKey response hmem
  · have hanalysis : state.world.db.committed.analysis row.photoId = some row :=
      Table.find_of_mem hrow
    rw [Option.isSome_iff_ne_none]
    intro hnone
    have hmissing := hI.orphan row.photoId hnone
    rw [show state.world.ledger.tables.analysis row.photoId = some row from hanalysis]
      at hmissing
    cases hmissing

/-- The entry is no answer of the analyzer, or counts faces in an `int32`. -/
def countsInt32 : Tid × Performed Op Op.Ans PyExc → Bool
  | (_, ⟨.analyzePhoto _ _, .ok response⟩) =>
      decide (isInt32 response.facesCount)
  | _ => true

theorem tables_fit_upload :
    ∃ state trace, (system defaultSettings).replay start []
        (uploads ++ publishes ++ receives 2 ++ analyzes 2) = some (state, trace) ∧
      state.world.db.committed.analyses.rows.length = 1 ∧
      (schemas 2).Fits (rowsOf state.world.db.committed) := by
  have hany : ((system defaultSettings).replay start []
      (uploads ++ publishes ++ receives 2 ++ analyzes 2)).any
        (fun result => result.1.world.db.committed.analyses.rows.length = 1 ∧
          result.2.all countsInt32) = true := by decide +kernel
  cases hreplay : (system defaultSettings).replay start []
      (uploads ++ publishes ++ receives 2 ++ analyzes 2) with
  | none =>
      rw [hreplay] at hany
      cases hany
  | some result =>
      rw [hreplay, Option.any_some, decide_eq_true_iff] at hany
      have hcounts : CountsInt32 result.2 := fun t photoId objectKey response hmem =>
        of_decide_eq_true (List.all_eq_true.mp hany.2 _ hmem)
      exact ⟨result.1, result.2, rfl, hany.1,
        tables_fit (by decide) (.replay _ .start hreplay) hcounts⟩

end Migrations

end PhotoAnalysis

import PhotoAnalysis.Refinement.Footprints
import PhotoAnalysis.Refinement.Publisher

/-!
# What each routine does to the data

The few operations that change a table, store or remove an object or ask the
analyzer, and which of them each routine can get to.
-/

namespace PhotoAnalysis

open Foundation Program

/-- What an operation does to the data; most do nothing to it. -/
inductive DataEffect where
  | nothing
  | insertPhoto
  | insertBatch
  | insertAnalysis
  | markPublished
  | progress
  | complete
  | put
  | remove
  | ask
  deriving DecidableEq, Repr

def Stmt.effect : Stmt → DataEffect
  | insertPhoto _ => .insertPhoto
  | insertBatch _ _ => .insertBatch
  | insertAnalysis _ _ _ _ _ => .insertAnalysis
  | updatePhoto _ _ values =>
      if values.publishStatus.isSome then .markPublished else .progress
  | updateBatch _ _ _ => .complete

def Op.effect : Op → DataEffect
  | execute stmt => stmt.effect
  | putObject _ _ _ => .put
  | removeObject _ => .remove
  | analyzePhoto _ _ => .ask
  | _ => .nothing

/-- Nothing, or one of these effects. -/
def Op.Does (effects : List DataEffect) (op : Op) : Prop :=
  op.effect ∈ DataEffect.nothing :: effects

/-- An effect of an operation is one of its task's. -/
theorem Op.Does.ne {op : Op} {effects : List DataEffect} {effect : DataEffect}
    (h : op.Does effects) (heffect : effect ∉ effects) (hsome : effect ≠ .nothing) :
    op.effect ≠ effect := by
  rintro rfl
  rcases List.mem_cons.mp h with heq | hmem
  · exact hsome heq
  · exact heffect hmem

theorem Op.effect_of_isLocal {op : Op} (h : op.isLocal) : op.effect = .nothing := by
  cases op with
  | execute | putObject | removeObject | analyzePhoto => cases h
  | _ => rfl

section

variable {α : Type} {settings : Settings} {effects : List DataEffect}

theorem wait_does {op : Op} (h : decide (op.effect ∈ DataEffect.nothing :: effects) = true) :
    (wait op).Uses (Op.Does effects) :=
  uses_call.mpr (of_decide_eq_true h : op.effect ∈ DataEffect.nothing :: effects)

/-- An operation with no effect of its own. -/
theorem wait_nothing {op : Op} (h : op.effect = .nothing) :
    (wait op).Uses (Op.Does effects) :=
  uses_call.mpr (List.mem_cons.mpr (.inl h))

theorem does_of_isLocal {program : Py α} (h : program.Uses (Op.isLocal ·)) :
    program.Uses (Op.Does effects) :=
  h.mono fun _ hop => List.mem_cons.mpr (.inl (Op.effect_of_isLocal hop))

theorem reraise_does {caught : Bool} {value : α} {exc : PyExc} :
    (if caught then pure value else .raise exc : Py α).Uses (Op.Does effects) := by
  split
  · exact uses_ret _
  · exact uses_raise _

theorem withSession_does {body : Py α} (h : body.Uses (Op.Does effects)) :
    (withSession body).Uses (Op.Does effects) :=
  h.tryFinally (wait_nothing rfl)

theorem traceIdVar_does : traceIdVar.Uses (Op.Does effects) := by
  refine .bind (wait_nothing rfl) fun value => ?_
  cases value with
  | str traceId => exact uses_ret _
  | _ => exact uses_raise _

theorem execute_does {stmt : Stmt}
    (h : decide (stmt.effect ∈ DataEffect.nothing :: effects) = true) :
    (do let _ ← wait (.execute stmt) : Py Unit).Uses (Op.Does effects) :=
  .bind (wait_does h) fun _ => uses_ret _

/-! ## Uploads -/

theorem create_does (photo : NewPhoto) (h : DataEffect.insertPhoto ∈ effects) :
    (PhotoRepository.create photo).Uses (Op.Does effects) := by
  have hinsert : (wait (.execute (.insertPhoto photo))).Uses (Op.Does effects) :=
    uses_call.mpr (List.mem_cons.mpr (.inr h))
  refine .bind (.tryExcept hinsert fun exc => ?_) fun _ => uses_ret _
  cases exc with
  | _ => exact uses_raise _

theorem saveFile_does (bucket name : Str) (data : Bytes) (length : Nat)
    (contentType : Str) (h : DataEffect.put ∈ effects) :
    (ObjectStorage.saveFile bucket name data length contentType).Uses
      (Op.Does effects) := by
  have hput : (wait (.putObject name (data.take length) contentType)).Uses
      (Op.Does effects) := uses_call.mpr (List.mem_cons.mpr (.inr h))
  refine .bind ?_ fun _ => .bind (.tryExcept hput fun exc => ?_) fun _ => uses_ret _
  · unfold ObjectStorage.validateObjectName
    split
    · exact uses_raise _
    · exact uses_ret _
  · cases exc with
    | _ => exact uses_raise _

theorem deleteAll_does (keys : List Str) (h : DataEffect.remove ∈ effects) :
    (PhotoService.deleteAll keys).Uses (Op.Does effects) := by
  induction keys with
  | nil => exact uses_ret _
  | cons key keys ih =>
      have hremove : (wait (.removeObject key)).Uses (Op.Does effects) :=
        uses_call.mpr (List.mem_cons.mpr (.inr h))
      refine .bind (.tryExcept hremove fun exc => ?_) fun _ => ih
      cases exc with
      | s3 code text => exact uses_ret _
      | _ => exact uses_raise _

theorem createPhoto_does (file : UploadFile) :
    (PhotoService.createPhoto settings file).Uses (Op.Does [.insertPhoto, .put]) := by
  unfold PhotoService.createPhoto
  refine .bind (uses_ofExcept _) ?_
  rintro ⟨ext, contentType⟩
  refine .bind (wait_nothing rfl) fun photoId => ?_
  dsimp only
  refine .bind traceIdVar_does fun traceId => .bind (create_does _ (by simp)) fun _ => ?_
  generalize PhotoService.objectKey photoId ext = key
  generalize PhotoService.unreachable (some photoId.text) = unreachable
  refine .bind (.tryExcept (saveFile_does _ _ _ _ _ (by simp)) fun exc => ?_) fun _ => ?_
  · split
    · exact .bind (wait_nothing rfl) fun _ => .bind (wait_nothing rfl) fun _ =>
        uses_raise _
    · exact uses_raise _
  · generalize photoId.text = text
    exact .bind (wait_nothing rfl) fun _ => .bind (wait_nothing rfl) fun _ => uses_ret _

theorem storeFiles_does (batchId : UUID) (traceId : Str)
    (files : List PhotoService.ValidatedFile) (photos : List UUID) (saved : List Str) :
    (PhotoService.storeFiles settings batchId traceId files photos saved).Uses
      (Op.Does [.insertPhoto, .insertBatch, .put, .remove]) := by
  induction files generalizing photos saved with
  | nil => exact uses_ret _
  | cons file files ih =>
      unfold PhotoService.storeFiles
      have hstore : (PhotoService.storeFile settings batchId traceId file).Uses
          (Op.Does [.insertPhoto, .insertBatch, .put, .remove]) := by
        refine .bind (wait_nothing rfl) fun photoId => ?_
        dsimp only
        refine .bind (create_does _ (by simp)) fun _ => ?_
        generalize PhotoService.objectKey photoId file.ext = key
        exact .bind (saveFile_does _ _ _ _ _ (by simp)) fun _ => uses_ret _
      refine .bind hstore.attempt ?_
      rintro (exc | ⟨photoId, key⟩)
      · dsimp only
        split
        · exact .bind (wait_nothing rfl) fun _ => .bind (wait_nothing rfl) fun _ =>
            .bind (deleteAll_does saved (by simp)) fun _ => uses_raise _
        · exact uses_raise _
      · exact ih _ _

theorem createBatch_does (files : List UploadFile) :
    (PhotoService.createBatch settings files).Uses
      (Op.Does [.insertPhoto, .insertBatch, .put, .remove]) :=
  .bind (uses_ofExcept _) fun _ => .bind (wait_nothing rfl) fun _ =>
    .bind (execute_does rfl) fun _ => .bind traceIdVar_does fun traceId =>
      .bind (storeFiles_does _ traceId _ [] []) fun _ =>
        .bind (wait_nothing rfl) fun _ => .bind (wait_nothing rfl) fun _ => uses_ret _

/-! ## Reads -/

theorem loadAnalyses_does (photos : List Photo) :
    (loadAnalyses photos).Uses (Op.Does effects) := by
  unfold loadAnalyses
  split
  · exact uses_ret _
  · exact .bind (wait_nothing rfl) fun _ => uses_ret _

theorem getById_does (photoId : UUID) :
    (PhotoRepository.getById photoId).Uses (Op.Does effects) := by
  refine .bind (wait_nothing rfl) fun found => ?_
  split
  · exact .bind (loadAnalyses_does _) fun _ => uses_ret _
  · exact uses_ret _

theorem getPhoto_does (photoId : UUID) :
    (PhotoService.getPhoto photoId).Uses (Op.Does effects) := by
  refine .bind (getById_does photoId) fun found => ?_
  split
  · exact uses_ret _
  · exact uses_raise _

theorem listPhotos_does (limit offset : Nat) :
    (PhotoService.listPhotos limit offset).Uses (Op.Does effects) :=
  .bind (.bind (wait_nothing rfl) fun _ => loadAnalyses_does _) fun _ => uses_ret _

theorem getPhotoContent_does (photoId : UUID) :
    (PhotoService.getPhotoContent photoId).Uses (Op.Does effects) := by
  refine .bind (getById_does photoId) fun found => ?_
  split
  · exact uses_raise _
  refine .bind (.tryExcept (.tryExcept (wait_nothing rfl) fun exc => ?_) fun exc => ?_)
    fun _ => uses_ret _
  · cases exc with
    | s3 code text =>
        dsimp only
        split
        · exact uses_raise _
        · exact uses_raise _
    | _ => exact uses_raise _
  · split
    · exact uses_raise _
    · exact uses_raise _

theorem getBatch_does (batchId : UUID) :
    (BatchService.getBatch batchId).Uses (Op.Does [.complete]) := by
  have hload : (BatchRepository.getById batchId).Uses (Op.Does [.complete]) := by
    refine .bind (wait_nothing rfl) fun found => ?_
    split
    · exact .bind (wait_nothing rfl) fun _ => .bind (loadAnalyses_does _) fun _ =>
        uses_ret _
    · exact uses_ret _
  refine .bind hload fun found => ?_
  split
  · exact uses_raise _
  · dsimp only
    split
    · exact .bind (execute_does rfl) fun _ => .bind (wait_nothing rfl) fun _ => uses_ret _
    · exact uses_ret _

/-! ## The worker -/

theorem retryLoop_does (photoId objectKey : Str) (photoUuid : UUID)
    (remaining attempt : Nat) (progress : AnalysisProcessor.Progress) :
    (AnalysisProcessor.retryLoop settings photoId objectKey photoUuid remaining attempt
      progress).Uses (Op.Does [.progress, .insertAnalysis, .ask]) := by
  induction remaining generalizing attempt progress with
  | zero => exact uses_ret _
  | succ remaining ih =>
      have hask : (AnalyzerGrpcClient.analyze photoId objectKey).Uses
          (Op.Does [.progress, .insertAnalysis, .ask]) := wait_does rfl
      refine .bind hask.attempt ?_
      rintro (exc | response)
      · dsimp only
        split
        · exact uses_raise _
        · refine .bind (wait_nothing rfl) fun _ => .bind (execute_does rfl) fun _ =>
            .bind (wait_nothing rfl) fun _ => ?_
          split
          · exact uses_ret _
          · exact .bind (uses_ofExcept _) fun _ =>
              .bind (wait_nothing rfl) fun _ => ih _ _
      · exact uses_ret _

theorem process_does (photoId objectKey : Str) :
    (AnalysisProcessor.process settings photoId objectKey).Uses
      (Op.Does [.progress, .insertAnalysis, .ask]) := by
  have hwrite : ∀ photoUuid progress, (AnalysisProcessor.terminalWrite photoUuid
      progress).Uses (Op.Does [.progress, .insertAnalysis, .ask]) := by
    intro photoUuid progress
    unfold AnalysisProcessor.terminalWrite
    split
    · exact .bind (execute_does rfl) fun _ => .bind (execute_does rfl) fun _ =>
        .bind (wait_nothing rfl) fun _ => .bind (wait_nothing rfl) fun _ =>
          wait_nothing rfl
    · exact .bind (execute_does rfl) fun _ => .bind (wait_nothing rfl) fun _ =>
        .bind (wait_nothing rfl) fun _ => wait_nothing rfl
  unfold AnalysisProcessor.process
  split
  · exact uses_raise _
  · refine .bind (wait_does rfl) fun rowcount => .bind (wait_nothing rfl) fun _ => ?_
    split
    · exact wait_nothing rfl
    · exact .bind (wait_nothing rfl) fun _ => .bind (wait_nothing rfl) fun _ =>
        .bind (retryLoop_does _ _ _ _ _ _) fun progress =>
          .bind (wait_nothing rfl) fun _ => .bind (wait_nothing rfl) fun _ => hwrite _ _

theorem consumerTurn_does {process : Str → Str → Py Unit}
    (hprocess : ∀ photoId objectKey, (process photoId objectKey).Uses (Op.Does effects))
    (interpreter : Interpreter) :
    (Consumer.turn interpreter process).Uses (Op.Does effects) := by
  refine .bind (wait_nothing rfl) fun stop => ?_
  split
  · exact uses_ret _
  refine .bind (wait_nothing rfl : (wait .getone).Uses _).attempt fun outcome => ?_
  cases outcome with
  | error exc => exact reraise_does
  | ok message =>
      have hlocal : ∀ op : Op, op.effect = .nothing → op.Does effects :=
        fun op h => List.mem_cons.mpr (.inl h)
      exact .bind (handleMessage_uses (fun _ => hlocal _ rfl) (hlocal _ rfl)
        hprocess interpreter message) fun _ => .bind (wait_nothing rfl) fun _ => uses_ret _

/-! ## The publisher -/

theorem publishRows_does (app : Nat) (rows : List Photo) :
    (Outbox.publishRows app rows).Uses (Op.Does [.markPublished]) := by
  have hencode : ∀ text, (KafkaEventProducer.encodeUtf8 text).Uses
      (Op.Does [.markPublished]) := by
    intro text
    unfold KafkaEventProducer.encodeUtf8
    split
    · exact uses_ret _
    · exact uses_raise _
  have hpublish : ∀ row, (Outbox.publishRow app row).Uses (Op.Does [.markPublished]) := by
    intro row
    refine .bind traceIdVar_does fun traceId => .bind (.bind (wait_nothing rfl)
      fun self => ?_) fun _ => .bind (wait_nothing rfl) fun _ => execute_does rfl
    generalize Json.dumps _ = message
    generalize row.photoId.text = photoId
    split
    · exact .bind (hencode message) fun _ => .bind (hencode photoId) fun _ =>
        wait_nothing rfl
    · exact uses_raise _
  induction rows with
  | nil => exact uses_ret _
  | cons row rows ih =>
      have hid : (Outbox.rowTraceId row).Uses (Op.Does [.markPublished]) := by
        unfold Outbox.rowTraceId
        split
        · exact uses_ret _
        · exact .bind (wait_nothing rfl) fun _ => uses_ret _
      refine .bind hid fun text => .bind (wait_nothing rfl) fun token =>
        .bind (.tryFinally (.tryExcept (hpublish row) fun exc => ?_)
          (.bind (wait_nothing rfl) fun _ => uses_ret _)) fun _ => ih
      split
      · exact wait_nothing rfl
      · exact uses_raise _

theorem outboxTurn_does (app : Nat) :
    (Outbox.turn settings app).Uses (Op.Does [.markPublished]) := by
  have hpoll : (Outbox.poll settings app).Uses (Op.Does [.markPublished]) := by
    have hstart : (KafkaEventProducer.ensureStarted app).Uses (Op.Does [.markPublished]) :=
      does_of_isLocal (ensureStarted_uses app)
    refine .bind hstart.attempt fun outcome => ?_
    cases outcome with
    | error exc => exact reraise_does
    | ok value =>
        refine .tryExcept (withSession_does ?_) fun exc => reraise_does
        exact .bind (wait_nothing rfl) fun rows => .bind (publishRows_does app rows)
          fun _ => wait_nothing rfl
  refine .bind (wait_nothing rfl) fun stop => ?_
  split
  · exact uses_ret _
  exact .bind hpoll fun _ => .bind (.tryExcept (wait_nothing rfl) fun exc => reraise_does)
    fun _ => uses_ret _

theorem lifecycle_does {program : Py Unit} (h : program.Uses (Op.isLocal ·)) :
    (do
      program.tryExcept fun exc => if exc.isException then pure () else .raise exc
      pure .stopped : Py Reply).Uses (Op.Does effects) :=
  .bind (.tryExcept (does_of_isLocal h) fun _ => reraise_does) fun _ => uses_ret _

end

/-! ## All routines -/

/-- What a task can do to the data. -/
def Entry.effects : Entry → List DataEffect
  | createPhoto _ _ => [.insertPhoto, .put]
  | createBatch _ _ => [.insertPhoto, .insertBatch, .put, .remove]
  | getBatch _ _ => [.complete]
  | outboxPublisher _ => [.markPublished]
  | worker => [.progress, .insertAnalysis, .ask]
  | _ => []

theorem routine_does (settings : Settings) (entry : Entry) :
    (routine settings entry).first.Uses (Op.Does entry.effects) ∧
      (routine settings entry).loop.Uses (Op.Does entry.effects) := by
  cases entry with
  | createPhoto _ file => exact once_uses (createPhoto_does file)
  | createBatch _ files => exact once_uses (createBatch_does files)
  | getPhoto _ photoId => exact once_uses (getPhoto_does photoId)
  | listPhotos _ limit offset => exact once_uses (listPhotos_does limit offset)
  | getPhotoContent _ photoId => exact once_uses (getPhotoContent_does photoId)
  | getBatch _ batchId => exact once_uses (getBatch_does batchId)
  | startProducer app => exact once_uses (lifecycle_does (ensureStarted_uses app))
  | stopProducer app => exact once_uses (lifecycle_does (stop_uses app))
  | outboxPublisher app => exact ⟨outboxTurn_does app, outboxTurn_does app⟩
  | worker =>
      exact ⟨.bind (wait_nothing rfl) fun _ => uses_ret _, consumerTurn_does process_does _⟩

end PhotoAnalysis

import PhotoAnalysis.Refinement.Frame
import PhotoAnalysis.System

/-!
# The operations each routine can wait for

Most operations matter to no other task than through the tables and the objects.
The others are sorted by what they act on, and each routine is confined to a few
kinds of them.
-/

namespace PhotoAnalysis

open Foundation Program

/-- What an operation acts on, apart from the data. -/
inductive Concern where
  | plain
  | traceId
  | producer
  | send
  | consumer
  deriving DecidableEq, Repr

def Op.concern : Op → Concern
  | setTraceId _ => .traceId
  | setProducer _ _ | setStarted _ _ => .producer
  | acquireStartLock _ | releaseStartLock _ => .producer
  | buildProducer | startProducer _ | stopProducer _ _ => .producer
  | sendAndWait _ _ _ => .send
  | startConsumer | getone | commitOffset | stopConsumer => .consumer
  | _ => .plain

def Op.Plain (op : Op) : Prop := op.concern = .plain

/-- Plain, or one of these concerns. -/
def Op.Within (concerns : List Concern) (op : Op) : Prop :=
  op.concern ∈ Concern.plain :: concerns

theorem Op.Plain.within {op : Op} (h : op.Plain) (concerns : List Concern) :
    op.Within concerns :=
  List.mem_cons.mpr (.inl h)

theorem Op.Within.mono {op : Op} {concerns concerns' : List Concern}
    (h : op.Within concerns) (hsub : concerns ⊆ concerns') : op.Within concerns' :=
  List.cons_subset_cons _ hsub h

/-! ## What an operation leaves alone -/

/-- An operation touches what it is concerned with, and the data. -/
structure Keeps (concern : Concern) (w w' : World) : Prop where
  stopSet : w'.stopSet = w.stopSet
  traceId : concern ≠ .traceId → w'.traceId = w.traceId
  producers : concern ≠ .producer → w'.producers = w.producers
  clients : concern ≠ .producer → w'.clients = w.clients
  topic : concern ≠ .send → w'.topic = w.topic
  offset : concern ≠ .consumer → w'.committedOffset = w.committedOffset
  position : concern ≠ .consumer → w'.position = w.position

namespace Keeps

variable {t : Tid} {concern : Concern} {w w' w'' : World}

theorem trans (h : Keeps concern w w') (h' : Keeps concern w' w'') :
    Keeps concern w w'' where
  stopSet := h'.stopSet.trans h.stopSet
  traceId := fun hne => (h'.traceId hne).trans (h.traceId hne)
  producers := fun hne => (h'.producers hne).trans (h.producers hne)
  clients := fun hne => (h'.clients hne).trans (h.clients hne)
  topic := fun hne => (h'.topic hne).trans (h.topic hne)
  offset := fun hne => (h'.offset hne).trans (h.offset hne)
  position := fun hne => (h'.position hne).trans (h.position hne)

theorem note (concern : Concern) (w : World) (event : Event) :
    Keeps concern w (w.note event) :=
  ⟨rfl, fun _ => rfl, fun _ => rfl, fun _ => rfl, fun _ => rfl, fun _ => rfl,
    fun _ => rfl⟩

theorem rollback (concern : Concern) (t : Tid) (w : World) :
    Keeps concern w (w.rollback t) :=
  ⟨rfl, fun _ => rfl, fun _ => rfl, fun _ => rfl, fun _ => rfl, fun _ => rfl,
    fun _ => rfl⟩

theorem execute {stmt : Stmt} {answer : Except PyExc Nat}
    (h : w.execute t stmt = some (answer, w')) : Keeps concern w w' := by
  simp only [World.execute] at h
  split at h
  · cases h
    exact (rollback concern t w).trans (note concern _ _)
  · cases h
    exact ⟨rfl, fun _ => rfl, fun _ => rfl, fun _ => rfl, fun _ => rfl, fun _ => rfl,
      fun _ => rfl⟩
  · split at h <;> cases h
    exact ⟨rfl, fun _ => rfl, fun _ => rfl, fun _ => rfl, fun _ => rfl, fun _ => rfl,
      fun _ => rfl⟩

theorem answer {op : Op} {choice : Choice} {answer : Except PyExc op.Ans}
    (h : w.answer t op choice = some (answer, w')) : Keeps op.concern w w' := by
  cases op with
  | execute stmt => cases choice <;> first | exact execute h | cases h
  | select query =>
      cases choice <;> try cases h
      obtain ⟨rows, -, heq⟩ := Option.map_eq_some_iff.mp h
      cases heq
      exact ⟨rfl, fun _ => rfl, fun _ => rfl, fun _ => rfl, fun _ => rfl, fun _ => rfl,
        fun _ => rfl⟩
  | uuid4 | getObject _ | acquireStartLock _ | sleep _ | waitStop | getone =>
      cases choice <;> try cases h
      simp only [World.answer] at h
      split at h <;> cases h <;> constructor <;>
        first | rfl | exact fun _ => rfl | exact fun hne => absurd rfl hne
  | _ =>
      cases choice <;> cases h
      constructor <;> first | rfl | exact fun _ => rfl | exact fun hne => absurd rfl hne

theorem halfDone {op : Op} (h : w.halfDone t op = some w') : Keeps op.concern w w' := by
  cases op <;> cases h <;> constructor <;>
    first | rfl | exact fun _ => rfl | exact fun hne => absurd rfl hne

theorem perform {op : Op} {choice : Choice} {answer : Except PyExc op.Ans}
    (h : World.perform t op choice w = some (answer, w')) : Keeps op.concern w w' := by
  rcases World.perform_cases h with ⟨exc, kept, -, -, rfl⟩ |
    ⟨exc, w₁, hw₁, -, rfl⟩ | h
  · cases kept
    · exact (rollback _ t w).trans (note _ _ _)
    · exact note _ _ _
  · exact (halfDone hw₁).trans (note _ _ _)
  · exact .answer h

end Keeps

section

variable {α : Type} {settings : Settings}

theorem wait_plain {op : Op} (h : op.concern = .plain) : (wait op).Uses Op.Plain :=
  uses_call.mpr h

theorem wait_within {op : Op} {concerns : List Concern}
    (h : decide (op.concern ∈ Concern.plain :: concerns) = true) :
    (wait op).Uses (Op.Within concerns) :=
  uses_call.mpr (of_decide_eq_true h : op.concern ∈ Concern.plain :: concerns)

theorem withSession_plain {body : Py α} (h : body.Uses Op.Plain) :
    (withSession body).Uses Op.Plain :=
  h.tryFinally (wait_plain rfl)

theorem traceIdVar_plain : traceIdVar.Uses Op.Plain := by
  refine .bind (wait_plain rfl) fun value => ?_
  cases value with
  | str traceId => exact uses_ret _
  | _ => exact uses_raise _

/-! ## Uploads -/

theorem create_plain (photo : NewPhoto) : (PhotoRepository.create photo).Uses Op.Plain := by
  refine .bind (.tryExcept (wait_plain rfl) fun exc => ?_) fun _ => uses_ret _
  cases exc with
  | _ => exact uses_raise _

theorem saveFile_plain (bucket name : Str) (data : Bytes) (length : Nat)
    (contentType : Str) :
    (ObjectStorage.saveFile bucket name data length contentType).Uses Op.Plain := by
  refine .bind ?_ fun _ => .bind (.tryExcept (wait_plain rfl) fun exc => ?_)
    fun _ => uses_ret _
  · unfold ObjectStorage.validateObjectName
    split
    · exact uses_raise _
    · exact uses_ret _
  · cases exc with
    | _ => exact uses_raise _

theorem deleteFile_plain (name : Str) : (ObjectStorage.deleteFile name).Uses Op.Plain := by
  refine .tryExcept (wait_plain rfl) fun exc => ?_
  cases exc with
  | s3 code text => exact uses_ret _
  | _ => exact uses_raise _

theorem createPhoto_plain (file : UploadFile) :
    (PhotoService.createPhoto settings file).Uses Op.Plain := by
  have hfail : ∀ exc, (do
      wait .rollback
      wait (.count .storageUploadErrorsTotal 1)
      .raise exc : Py Str).Uses Op.Plain := fun exc =>
    .bind (wait_plain rfl) fun _ => .bind (wait_plain rfl) fun _ => uses_raise _
  unfold PhotoService.createPhoto
  refine .bind (uses_ofExcept _) ?_
  rintro ⟨ext, contentType⟩
  refine .bind (wait_plain rfl) fun photoId => ?_
  dsimp only
  refine .bind traceIdVar_plain fun traceId => .bind (create_plain _) fun _ => ?_
  generalize PhotoService.objectKey photoId ext = key
  generalize PhotoService.unreachable (some photoId.text) = unreachable
  refine .bind (.tryExcept (saveFile_plain _ _ _ _ _) fun exc => ?_) fun _ => ?_
  · split
    · exact hfail _
    · exact uses_raise _
  · generalize photoId.text = text
    exact .bind (wait_plain rfl) fun _ => .bind (wait_plain rfl) fun _ => uses_ret _

theorem deleteAll_plain (keys : List Str) : (PhotoService.deleteAll keys).Uses Op.Plain := by
  induction keys with
  | nil => exact uses_ret _
  | cons key keys ih => exact .bind (deleteFile_plain key) fun _ => ih

theorem abandonBatch_plain (saved : List Str) :
    (PhotoService.abandonBatch saved).Uses Op.Plain :=
  .bind (wait_plain rfl) fun _ => .bind (wait_plain rfl) fun _ =>
    .bind (deleteAll_plain saved) fun _ => uses_raise _

theorem storeFile_plain (batchId : UUID) (traceId : Str)
    (file : PhotoService.ValidatedFile) :
    (PhotoService.storeFile settings batchId traceId file).Uses Op.Plain := by
  refine .bind (wait_plain rfl) fun photoId => ?_
  dsimp only
  refine .bind (create_plain _) fun _ => ?_
  generalize PhotoService.objectKey photoId file.ext = key
  exact .bind (saveFile_plain _ _ _ _ _) fun _ => uses_ret _

theorem storeFiles_plain (batchId : UUID) (traceId : Str)
    (files : List PhotoService.ValidatedFile) (photos : List UUID) (saved : List Str) :
    (PhotoService.storeFiles settings batchId traceId files photos saved).Uses Op.Plain := by
  induction files generalizing photos saved with
  | nil => exact uses_ret _
  | cons file files ih =>
      unfold PhotoService.storeFiles
      refine .bind (storeFile_plain batchId traceId file).attempt ?_
      rintro (exc | ⟨photoId, key⟩)
      · dsimp only
        split
        · exact abandonBatch_plain saved
        · exact uses_raise _
      · exact ih _ _

theorem createBatch_plain (files : List UploadFile) :
    (PhotoService.createBatch settings files).Uses Op.Plain :=
  .bind (uses_ofExcept _) fun _ => .bind (wait_plain rfl) fun batchId =>
    .bind (.bind (wait_plain rfl) fun _ => uses_ret _) fun _ =>
      .bind traceIdVar_plain fun traceId =>
        .bind (storeFiles_plain batchId traceId _ [] []) fun _ =>
          .bind (wait_plain rfl) fun _ => .bind (wait_plain rfl) fun _ => uses_ret _

/-! ## Reads -/

theorem loadAnalyses_plain (photos : List Photo) : (loadAnalyses photos).Uses Op.Plain := by
  unfold loadAnalyses
  split
  · exact uses_ret _
  · exact .bind (wait_plain rfl) fun _ => uses_ret _

theorem getById_plain (photoId : UUID) :
    (PhotoRepository.getById photoId).Uses Op.Plain := by
  refine .bind (wait_plain rfl) fun found => ?_
  split
  · exact .bind (loadAnalyses_plain _) fun _ => uses_ret _
  · exact uses_ret _

theorem getPhoto_plain (photoId : UUID) : (PhotoService.getPhoto photoId).Uses Op.Plain := by
  refine .bind (getById_plain photoId) fun found => ?_
  split
  · exact uses_ret _
  · exact uses_raise _

theorem listPhotos_plain (limit offset : Nat) :
    (PhotoService.listPhotos limit offset).Uses Op.Plain :=
  .bind (.bind (wait_plain rfl) fun _ => loadAnalyses_plain _) fun _ => uses_ret _

theorem getFile_plain (name : Str) : (ObjectStorage.getFile name).Uses Op.Plain := by
  refine .tryExcept (wait_plain rfl) fun exc => ?_
  cases exc with
  | s3 code text =>
      dsimp only
      split
      · exact uses_raise _
      · exact uses_raise _
  | _ => exact uses_raise _

theorem getPhotoContent_plain (photoId : UUID) :
    (PhotoService.getPhotoContent photoId).Uses Op.Plain := by
  refine .bind (getById_plain photoId) fun found => ?_
  split
  · exact uses_raise _
  · refine .bind (.tryExcept (getFile_plain _) fun exc => ?_) fun _ => uses_ret _
    split
    · exact uses_raise _
    · exact uses_raise _

theorem getBatch_plain (batchId : UUID) : (BatchService.getBatch batchId).Uses Op.Plain := by
  have hload : (BatchRepository.getById batchId).Uses Op.Plain := by
    refine .bind (wait_plain rfl) fun found => ?_
    split
    · exact .bind (wait_plain rfl) fun _ => .bind (loadAnalyses_plain _) fun _ => uses_ret _
    · exact uses_ret _
  refine .bind hload fun found => ?_
  split
  · exact uses_raise _
  · dsimp only
    split
    · refine .bind (.bind (wait_plain rfl) fun _ => uses_ret _) fun _ => ?_
      exact .bind (wait_plain rfl) fun _ => uses_ret _
    · exact uses_ret _

/-! ## Processing -/

theorem execute_plain (stmt : Stmt) :
    (do let _ ← wait (.execute stmt) : Py Unit).Uses Op.Plain :=
  .bind (wait_plain rfl) fun _ => uses_ret _

theorem retryLoop_plain (photoId objectKey : Str) (photoUuid : UUID)
    (remaining attempt : Nat) (progress : AnalysisProcessor.Progress) :
    (AnalysisProcessor.retryLoop settings photoId objectKey photoUuid remaining attempt
      progress).Uses Op.Plain := by
  induction remaining generalizing attempt progress with
  | zero => exact uses_ret _
  | succ remaining ih =>
      have hcall : (AnalyzerGrpcClient.analyze photoId objectKey).Uses Op.Plain :=
        wait_plain rfl
      refine .bind hcall.attempt ?_
      rintro (exc | response)
      · dsimp only
        split
        · exact uses_raise _
        · refine .bind (wait_plain rfl) fun _ => .bind (execute_plain _) fun _ =>
            .bind (wait_plain rfl) fun _ => ?_
          split
          · exact uses_ret _
          · exact .bind (uses_ofExcept _) fun _ =>
              .bind (wait_plain rfl) fun _ => ih _ _
      · exact uses_ret _

theorem terminalWrite_plain (photoUuid : UUID) (progress : AnalysisProcessor.Progress) :
    (AnalysisProcessor.terminalWrite photoUuid progress).Uses Op.Plain := by
  unfold AnalysisProcessor.terminalWrite
  split
  · exact .bind (execute_plain _) fun _ => .bind (execute_plain _) fun _ =>
      .bind (wait_plain rfl) fun _ => .bind (wait_plain rfl) fun _ => wait_plain rfl
  · exact .bind (execute_plain _) fun _ => .bind (wait_plain rfl) fun _ =>
      .bind (wait_plain rfl) fun _ => wait_plain rfl

theorem process_plain (photoId objectKey : Str) :
    (AnalysisProcessor.process settings photoId objectKey).Uses Op.Plain := by
  unfold AnalysisProcessor.process
  split
  · exact uses_raise _
  · refine .bind (wait_plain rfl) fun rowcount => .bind (wait_plain rfl) fun _ => ?_
    split
    · exact wait_plain rfl
    · exact .bind (wait_plain rfl) fun _ => .bind (wait_plain rfl) fun _ =>
        .bind (retryLoop_plain _ _ _ _ _ _) fun progress =>
          .bind (wait_plain rfl) fun _ => .bind (wait_plain rfl) fun _ =>
            terminalWrite_plain _ _

theorem log_uses {p : Op → Prop} (interpreter : Interpreter) (level : LogLevel)
    (value : Json) : (Consumer.log interpreter level value).Uses p := by
  unfold Consumer.log
  split
  · exact uses_ret _
  · exact uses_raise _

theorem log_or_raise_uses {p : Op → Prop} {logged : Bool} (interpreter : Interpreter)
    (level : LogLevel) (value : Json) (exc : PyExc) :
    (if logged then Consumer.log interpreter level value else .raise exc).Uses p := by
  split
  · exact log_uses _ _ _
  · exact uses_raise _

/-- Handling a message adds to the processor's operations these two only. -/
theorem handleMessage_uses {p : Op → Prop} {process : Str → Str → Py Unit}
    (hset : ∀ value, p (.setTraceId value)) (hclose : p .close)
    (hprocess : ∀ photoId objectKey, (process photoId objectKey).Uses p)
    (interpreter : Interpreter) (message : ConsumerRecord) :
    (Consumer.handleMessage interpreter process message).Uses p := by
  unfold Consumer.handleMessage
  split
  · exact log_uses _ _ _
  · exact log_uses _ _ _
  · exact uses_raise _
  · split
    · exact log_uses _ _ _
    · refine .bind (uses_call.mpr (hset _)) fun token => .tryFinally (.tryExcept
        (.tryFinally (hprocess _ _) (uses_call.mpr hclose))
        fun exc => log_or_raise_uses _ _ _ _)
        (.bind (uses_call.mpr (hset _)) fun _ => uses_ret _)
  · exact log_or_raise_uses _ _ _ _

theorem handleMessage_within {process : Str → Str → Py Unit}
    (hprocess : ∀ photoId objectKey, (process photoId objectKey).Uses Op.Plain)
    (interpreter : Interpreter) (message : ConsumerRecord) :
    (Consumer.handleMessage interpreter process message).Uses (Op.Within [.traceId]) :=
  handleMessage_uses (fun _ => by simp [Op.Within, Op.concern]) (by simp [Op.Within, Op.concern])
    (fun photoId objectKey => (hprocess photoId objectKey).mono fun op h => h.within _)
    interpreter message

/-! ## The producer -/

theorem currentProducer_within (app : Nat) :
    (KafkaEventProducer.currentProducer app).Uses (Op.Within [.producer]) := by
  refine .bind (wait_within rfl) fun self => ?_
  split
  · exact uses_ret _
  · exact wait_within rfl

theorem ensureStarted_within (app : Nat) :
    (KafkaEventProducer.ensureStarted app).Uses (Op.Within [.producer]) := by
  refine .bind (wait_within rfl) fun self => ?_
  split
  · exact uses_ret _
  refine .bind (wait_within rfl) fun _ => .tryFinally
    (.bind (wait_within rfl) fun self => ?_) (wait_within rfl)
  split
  · exact uses_ret _
  refine .bind (currentProducer_within app) fun client =>
    .bind (wait_within rfl) fun _ =>
      .bind (.tryExcept (wait_within rfl) fun exc => ?_) fun _ =>
        wait_within rfl
  split
  · exact .bind (wait_within rfl) fun _ => uses_raise _
  · exact uses_raise _

theorem stop_within (app : Nat) :
    (KafkaEventProducer.stop app).Uses (Op.Within [.producer]) := by
  exact .bind (wait_within rfl) fun self => wait_within rfl

theorem startProducer_within (app : Nat) :
    (startProducer app).Uses (Op.Within [.producer]) := by
  refine .bind (.tryExcept (ensureStarted_within app) fun exc => ?_) fun _ => uses_ret _
  split
  · exact uses_ret _
  · exact uses_raise _

theorem stopProducer_within (app : Nat) :
    (stopProducer app).Uses (Op.Within [.producer]) := by
  refine .bind (.tryExcept (stop_within app) fun exc => ?_) fun _ => uses_ret _
  split
  · exact uses_ret _
  · exact uses_raise _

/-! ## The loops -/

theorem consumerTurn_within {process : Str → Str → Py Unit}
    (hprocess : ∀ photoId objectKey, (process photoId objectKey).Uses Op.Plain)
    (interpreter : Interpreter) :
    (Consumer.turn interpreter process).Uses (Op.Within [.traceId, .consumer]) := by
  refine .bind (wait_within rfl) fun stop => ?_
  split
  · exact uses_ret _
  refine .bind (wait_within rfl : (wait .getone).Uses _).attempt fun outcome => ?_
  cases outcome with
  | error exc =>
      dsimp only
      split
      · exact uses_ret _
      · exact uses_raise _
  | ok message =>
      exact .bind ((handleMessage_within hprocess interpreter message).mono fun op h =>
        h.mono (by simp)) fun _ => .bind (wait_within rfl) fun _ => uses_ret _

theorem publishRow_within (app : Nat) (row : Photo) :
    (Outbox.publishRow app row).Uses (Op.Within [.traceId, .producer, .send]) := by
  have hencode : ∀ text, (KafkaEventProducer.encodeUtf8 text).Uses
      (Op.Within [.traceId, .producer, .send]) := by
    intro text
    unfold KafkaEventProducer.encodeUtf8
    split
    · exact uses_ret _
    · exact uses_raise _
  refine .bind (traceIdVar_plain.mono fun op h => h.within _) fun traceId =>
    .bind (.bind (wait_within rfl) fun self => ?_) fun _ =>
      .bind (wait_within rfl) fun _ => .bind (wait_within rfl) fun _ => uses_ret _
  generalize Json.dumps _ = message
  generalize row.photoId.text = photoId
  split
  · exact .bind (hencode message) fun _ => .bind (hencode photoId) fun _ =>
      wait_within rfl
  · exact uses_raise _

theorem publishRows_within (app : Nat) (rows : List Photo) :
    (Outbox.publishRows app rows).Uses (Op.Within [.traceId, .producer, .send]) := by
  induction rows with
  | nil => exact uses_ret _
  | cons row rows ih =>
      have hid : (Outbox.rowTraceId row).Uses (Op.Within [.traceId, .producer, .send]) := by
        unfold Outbox.rowTraceId
        split
        · exact uses_ret _
        · exact .bind (wait_within rfl) fun _ => uses_ret _
      refine .bind hid fun text => .bind (wait_within rfl) fun token =>
        .bind (.tryFinally (.tryExcept (publishRow_within app row) fun exc => ?_)
          (.bind (wait_within rfl) fun _ => uses_ret _)) fun _ => ih
      split
      · exact wait_within rfl
      · exact uses_raise _

theorem outboxTurn_within (app : Nat) :
    (Outbox.turn settings app).Uses (Op.Within [.traceId, .producer, .send]) := by
  have hcatch : ∀ exc : PyExc, (if exc.isException then pure () else .raise exc :
      Py Unit).Uses (Op.Within [.traceId, .producer, .send]) := by
    intro exc
    split
    · exact uses_ret _
    · exact uses_raise _
  have hpoll : (Outbox.poll settings app).Uses
      (Op.Within [.traceId, .producer, .send]) := by
    refine .bind ((ensureStarted_within app).mono fun op h =>
      h.mono (by simp)).attempt fun outcome => ?_
    cases outcome with
    | error exc => exact hcatch exc
    | ok value =>
        refine .tryExcept (.tryFinally ?_ (wait_within rfl)) hcatch
        exact .bind (wait_within rfl) fun rows => .bind (publishRows_within app rows)
          fun _ => wait_within rfl
  refine .bind (wait_within rfl) fun stop => ?_
  split
  · exact uses_ret _
  refine .bind hpoll fun _ => .bind (.tryExcept (wait_within rfl) fun exc => ?_)
    fun _ => uses_ret _
  split
  · exact uses_ret _
  · exact uses_raise _

end

/-! ## All routines -/

/-- What a task acts on, apart from the data. -/
def Entry.concerns : Entry → List Concern
  | startProducer _ | stopProducer _ => [.producer]
  | outboxPublisher _ => [.traceId, .producer, .send]
  | worker => [.traceId, .consumer]
  | _ => []

theorem once_uses {body : Py Reply} {p : Op → Prop} (h : body.Uses p) :
    (once body).first.Uses p ∧ (once body).loop.Uses p :=
  ⟨.bind h fun _ => uses_ret _, .bind h fun _ => uses_ret _⟩

theorem routine_within (settings : Settings) (entry : Entry) :
    (routine settings entry).first.Uses (Op.Within entry.concerns) ∧
      (routine settings entry).loop.Uses (Op.Within entry.concerns) := by
  have hplain : ∀ {body : Py Reply}, body.Uses Op.Plain →
      (once body).first.Uses (Op.Within []) ∧ (once body).loop.Uses (Op.Within []) :=
    fun h => once_uses (h.mono fun op h => h.within [])
  cases entry with
  | createPhoto _ file => exact hplain (createPhoto_plain file)
  | createBatch _ files => exact hplain (createBatch_plain files)
  | getPhoto _ photoId => exact hplain (getPhoto_plain photoId)
  | listPhotos _ limit offset => exact hplain (listPhotos_plain limit offset)
  | getPhotoContent _ photoId => exact hplain (getPhotoContent_plain photoId)
  | getBatch _ batchId => exact hplain (getBatch_plain batchId)
  | startProducer app => exact once_uses (startProducer_within app)
  | stopProducer app => exact once_uses (stopProducer_within app)
  | outboxPublisher app => exact ⟨outboxTurn_within app, outboxTurn_within app⟩
  | worker =>
      exact ⟨.bind (wait_within rfl) fun _ => uses_ret _,
        consumerTurn_within process_plain _⟩

/-- A concern of an operation is one of its task's. -/
theorem Op.Within.ne {op : Op} {concerns : List Concern} {concern : Concern}
    (h : op.Within concerns) (hconcern : concern ∉ concerns)
    (hplain : concern ≠ .plain) : op.concern ≠ concern := by
  rintro rfl
  rcases List.mem_cons.mp h with heq | hmem
  · exact hplain heq
  · exact hconcern hmem

/-- A task that runs is confined to what its routine acts on. -/
theorem running_within {settings : Settings} {state : State}
    (h : Reachable settings state) {t : Tid} {now loop : Py (Option Reply)}
    (hrun : state.tasks t = .running now loop) :
    ∃ arrival, state.world.arrivals t = some arrival ∧
      now.Uses (Op.Within arrival.entry.concerns) ∧
      loop = (routine settings arrival.entry).loop := by
  refine Machine.Leads.induct (m := system settings)
    (P := fun state : State => ∀ t now loop,
    state.tasks t = .running now loop → ∃ arrival,
      state.world.arrivals t = some arrival ∧
      now.Uses (Op.Within arrival.entry.concerns) ∧
      loop = (routine settings arrival.entry).loop) ?_ h ?_ t now loop hrun
  · intro state label state' ih hnext t now loop hrun
    cases Machine.goes_of_next _ hnext with
    | start tid entry htask =>
        rcases Pool.running_of_set hrun with ⟨rfl, hself⟩ | ⟨hother, hrun⟩
        · cases hself
          exact ⟨_, Function.update_self .., (routine_within settings entry).1, rfl⟩
        · obtain ⟨arrival, ha, huses⟩ := ih t now loop hrun
          exact ⟨arrival, (Function.update_of_ne hother ..).trans ha, huses⟩
    | step tid choice op resume loop' answer w' htask hp =>
        have harrivals := (World.perform_tasks hp).1
        rcases Pool.running_of_set hrun with ⟨rfl, hself⟩ | ⟨-, hrun⟩
        · cases hself
          obtain ⟨arrival, ha, huses, hloop⟩ := ih _ _ _ htask
          exact ⟨arrival, (congrFun harrivals t).trans ha, huses.2 answer, hloop⟩
        · obtain ⟨arrival, ha, huses⟩ := ih t now loop hrun
          exact ⟨arrival, (congrFun harrivals t).trans ha, huses⟩
    | again tid loop' htask =>
        rcases Pool.running_of_set hrun with ⟨rfl, hself⟩ | ⟨-, hrun⟩
        · cases hself
          obtain ⟨arrival, ha, -, rfl⟩ := ih _ _ _ htask
          exact ⟨arrival, ha, (routine_within settings arrival.entry).2, rfl⟩
        · exact ih t now loop hrun
    | returned | raised | crash =>
        rcases Pool.running_of_set hrun with ⟨-, hself⟩ | ⟨-, hrun⟩
        · cases hself
        · exact ih t now loop hrun
    | external event =>
        obtain ⟨arrival, ha, huses⟩ := ih t now loop hrun
        refine ⟨arrival, ?_, huses⟩
        cases event with
        | _ => exact ha
  · intro t now loop hrun
    cases hrun

end PhotoAnalysis

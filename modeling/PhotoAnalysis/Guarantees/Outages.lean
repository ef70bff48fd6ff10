import PhotoAnalysis.Guarantees.Compensation

/-!
# When the object store is down

An outage can surface as an `S3Error`, as a timeout or as any other exception of
the SDK.  A call that meets one answers `StorageUnavailable` and commits nothing
exactly when each exception it met is of a class that is caught where it was raised.
-/

namespace PhotoAnalysis

open Foundation Program

/-- `isinstance(exc, S3Error)` -/
def PyExc.isS3 : PyExc → Bool
  | s3 _ _ => true
  | _ => false

/-- A missing object is no failure of the store. -/
def PyExc.isOutage : PyExc → Bool
  | s3 code _ => code != py "NoSuchKey"
  | exc => exc.isException

namespace Log

def outage (log : Log) : Bool :=
  log.any fun
    | ⟨.putObject _ _ _, .error exc⟩ => exc.isOutage
    | ⟨.getObject _, .error exc⟩ => exc.isOutage
    | ⟨.removeObject _, .error exc⟩ => exc.isOutage
    | _ => false

/--
Each exception was caught where it was raised: `save_file` and `get_file` catch an
`S3Error` and their callers a timeout, `delete_file` catches an `S3Error` only.
-/
def caught (log : Log) : Bool :=
  log.all fun
    | ⟨.putObject _ _ _, .error exc⟩ => exc.isS3 || exc.isTimeout
    | ⟨.getObject _, .error exc⟩ => exc.isS3 || exc.isTimeout
    | ⟨.removeObject _, .error exc⟩ => exc.isS3
    | ⟨.uuid4, .error exc⟩ => exc.isTimeout
    | ⟨.execute _, .error exc⟩ => exc.isTimeout
    | ⟨_, .error _⟩ => false
    | ⟨_, .ok _⟩ => true

def committed (log : Log) : Bool :=
  log.any fun
    | ⟨.commit, _⟩ => true
    | _ => false

@[simp] theorem outage_append (log log' : Log) :
    outage (log ++ log') = (outage log || outage log') :=
  List.any_append

@[simp] theorem caught_append (log log' : Log) :
    caught (log ++ log') = (caught log && caught log') :=
  List.all_append

@[simp] theorem committed_append (log log' : Log) :
    committed (log ++ log') = (committed log || committed log') :=
  List.any_append

end Log

namespace PhotoService

open Log

/-- The calls that store or read objects. -/
inductive StorageCall where
  | createPhoto (file : UploadFile)
  | createBatch (files : List UploadFile)
  | getPhotoContent (photoId : UUID)

def StorageCall.program (settings : Settings) : StorageCall → Py Reply
  | createPhoto file => PhotoService.createPhoto settings file
  | createBatch files => PhotoService.createBatch settings files
  | getPhotoContent photoId => PhotoService.getPhotoContent photoId

/-- The answer is a 503 and nothing has been committed. -/
def CleanOutage (outcome : Except PyExc Reply) (log : Log) : Prop :=
  (∃ error message photoId, outcome = .error (.app error message photoId) ∧
    error = .storageUnavailable ∧ error.httpStatus = 503) ∧ committed log = false

/-- What the service waits for raises no `AppError`: these are its own. -/
def Foreign {σ : Type} (handler : Handler Op Op.Ans PyExc σ) : Prop :=
  ∀ op s error message photoId, (handler op s).1 ≠ .error (.app error message photoId)

def unavailable : PyExc → Bool
  | .app .storageUnavailable _ _ => true
  | _ => false

theorem unavailable_of_foreign {σ : Type} {handler : Handler Op Op.Ans PyExc σ}
    (h : Foreign handler) {op : Op} {s : σ} {exc : PyExc}
    (hraises : (handler op s).1 = .error exc) : unavailable exc = false := by
  cases exc with
  | app error message photoId => exact absurd hraises (h op s error message photoId)
  | _ => rfl

theorem isStorageFailure_eq (exc : PyExc) :
    exc.isStorageFailure = (unavailable exc || exc.isTimeout) := by
  cases exc with
  | app error message photoId => cases error <;> rfl
  | _ => rfl

section

variable {σ : Type} {handler : Handler Op Op.Ans PyExc σ} {settings : Settings}

/-- The call goes on as if nothing had failed. -/
structure Unharmed (s : σ × Log) : Prop where
  outage : outage s.2 = false
  caught : caught s.2 = true
  committed : committed s.2 = false

/-- `exc` is on its way to the `except (StorageUnavailable, TimeoutError)` clause. -/
structure Refused (exc : PyExc) (s : σ × Log) : Prop where
  committed : committed s.2 = false
  caught : exc.isStorageFailure = true → caught s.2 = true
  passed : exc.isStorageFailure = false → outage s.2 = true → Log.caught s.2 = false

/-- An outage is being answered. -/
structure Answering (s : σ × Log) : Prop where
  caught : caught s.2 = true
  committed : committed s.2 = false

/-- What a call raises is the clean answer exactly when all was caught. -/
def Judged (exc : PyExc) (s : σ × Log) : Prop :=
  outage s.2 = true →
    (unavailable exc = true ∧ committed s.2 = false ↔ caught s.2 = true)

/-- A call that returns has met no outage. -/
abbrev Verdict {α : Type} : Except PyExc α → σ × Log → Prop :=
  Ends.Exits (fun _ s => outage s.2 = false) Judged

theorem Judged.of_quiet {exc : PyExc} {s : σ × Log} (h : outage s.2 = false) :
    Judged exc s := by
  intro houtage
  rw [h] at houtage
  cases houtage

theorem Judged.of_lost {exc : PyExc} {s : σ × Log} (hexc : unavailable exc = false)
    (h : caught s.2 = false) : Judged exc s := by
  intro _
  simp [hexc, h]

theorem Judged.of_answering {exc : PyExc} {s : σ × Log} (hexc : unavailable exc = true)
    (h : Answering s) : Judged exc s := by
  intro _
  simp [hexc, h.caught, h.committed]

theorem Unharmed.keep {s : σ × Log} (h : Unharmed s) {entry : Performed Op Op.Ans PyExc}
    {s' : σ} (houtage : Log.outage [entry] = false) (hcaught : Log.caught [entry] = true)
    (hcommitted : Log.committed [entry] = false) : Unharmed (s', s.2 ++ [entry]) := by
  refine ⟨?_, ?_, ?_⟩
  · rw [outage_append, h.outage, houtage]
    rfl
  · rw [caught_append, h.caught, hcaught]
    rfl
  · rw [committed_append, h.committed, hcommitted]
    rfl

/-- The operations that neither reach the store nor commit. -/
structure Aside (op : Op) : Prop where
  outage : ∀ answer, outage [⟨op, answer⟩] = false
  committed : ∀ answer, committed [⟨op, answer⟩] = false
  caught : ∀ value, caught [⟨op, .ok value⟩] = true

/-- Before the store is reached a failure is no outage. -/
theorem ends_aside {op : Op} (hop : Aside op) {α : Type} {next : op.Ans → Py α}
    (hnext : ∀ value, Ends (logged handler) Unharmed (next value) Verdict) :
    Ends (logged handler) Unharmed ((wait op).bind next) Verdict := by
  refine .exits_bind (fun _ => Unharmed) (fun _ s => outage s.2 = false)
    (.call fun s hs => ?_) hnext fun _ _ => .of_quiet
  cases h : (handler op s.1).1 with
  | ok value =>
      simp only [logged, h]
      exact hs.keep (hop.outage _) (hop.caught _) (hop.committed _)
  | error exc =>
      simp only [logged, h]
      change Log.outage _ = false
      rw [outage_append, hs.outage, hop.outage]
      rfl

theorem Unharmed.refused {s : σ × Log} (h : Unharmed s) (exc : PyExc) :
    Refused exc s :=
  ⟨h.committed, fun _ => h.caught, fun _ houtage => by
    rw [h.outage] at houtage
    cases houtage⟩

/-- An operation of the `try` block other than `save_file`, which catches a timeout. -/
theorem Unharmed.fail {s : σ × Log} (h : Unharmed s) {op : Op} {s' : σ} {exc : PyExc}
    (hexc : unavailable exc = false) (hop : Aside op)
    (hcaught : Log.caught [⟨op, .error exc⟩] = exc.isTimeout) :
    Refused exc (s', s.2 ++ [⟨op, .error exc⟩]) := by
  refine ⟨?_, fun hfailure => ?_, fun _ hout => ?_⟩
  · rw [committed_append, h.committed, hop.committed]
    rfl
  · rw [isStorageFailure_eq, hexc, Bool.false_or] at hfailure
    rw [caught_append, h.caught, hcaught, hfailure]
    rfl
  · rw [outage_append, h.outage, hop.outage] at hout
    cases hout

theorem ends_try {op : Op} (hforeign : Foreign handler) (hop : Aside op)
    (hcaught : ∀ exc, Log.caught [⟨op, .error exc⟩] = exc.isTimeout) {α : Type}
    {next : op.Ans → Py α} {post : α → σ × Log → Prop}
    (hnext : ∀ value, Ends (logged handler) Unharmed (next value)
      (Ends.Exits post Refused)) :
    Ends (logged handler) Unharmed ((wait op).bind next) (Ends.Exits post Refused) := by
  refine .exits_bind (fun _ => Unharmed) _ (.call fun s hs => ?_) hnext fun _ _ hs => hs
  cases h : (handler op s.1).1 with
  | ok value =>
      simp only [logged, h]
      exact hs.keep (hop.outage _) (hop.caught _) (hop.committed _)
  | error exc =>
      simp only [logged, h]
      exact hs.fail (unavailable_of_foreign hforeign h) hop (hcaught exc)

theorem create_answers (hforeign : Foreign handler) (photo : NewPhoto) :
    Ends (logged handler) Unharmed (PhotoRepository.create photo)
      (Ends.Exits (fun _ => Unharmed)
        fun exc s => Refused exc s ∧ Log.outage s.2 = false) := by
  unfold PhotoRepository.create
  have haside : Aside (.execute (.insertPhoto photo)) :=
    ⟨fun _ => rfl, fun _ => rfl, fun _ => rfl⟩
  refine .exits_bind (fun _ => Unharmed) _ (.exits_tryExcept
    (fun exc s => Refused exc s ∧ Log.outage s.2 = false) ?_ fun exc => ?_)
    (fun _ => .ret fun _ hs => hs) fun _ _ hs => hs
  · refine .call fun s hs => ?_
    cases h : (handler (.execute (.insertPhoto photo)) s.1).1 with
    | ok rowcount =>
        simp only [logged, h]
        exact hs.keep rfl rfl rfl
    | error exc =>
        simp only [logged, h]
        refine ⟨hs.fail (unavailable_of_foreign hforeign h) haside (Bool.and_true _), ?_⟩
        rw [outage_append, hs.outage, haside.outage]
        rfl
  · cases exc with
    | integrity text =>
        exact .raise fun s hs => ⟨⟨hs.1.committed, (fun hfailure => by cases hfailure),
          fun _ => hs.1.passed rfl⟩, hs.2⟩
    | _ => exact .raise fun s hs => hs

/-- `save_file` turns an `S3Error` into what its callers catch. -/
theorem saveFile_answers (hforeign : Foreign handler) (bucket name : Str)
    (data : Bytes) (length : Nat) (contentType : Str) :
    Ends (logged handler) Unharmed
      (ObjectStorage.saveFile bucket name data length contentType)
      (Ends.Exits (fun _ => Unharmed) Refused) := by
  unfold ObjectStorage.saveFile
  refine .exits_bind (fun _ => Unharmed) _ ?_ (fun _ => ?_) fun _ _ hs => hs
  · unfold ObjectStorage.validateObjectName
    split
    · exact .raise fun s hs => hs.refused _
    · exact .ret fun s hs => hs
  refine .exits_bind (fun _ => Unharmed) _ (.exits_tryExcept
    (fun exc s => unavailable exc = false ∧ Log.committed s.2 = false ∧
      Log.caught s.2 = (exc.isS3 || exc.isTimeout)) ?_ fun exc => ?_)
    (fun _ => .ret fun _ hs => hs) fun _ _ hs => hs
  · refine .call fun s hs => ?_
    cases h : (handler (.putObject name (data.take length) contentType) s.1).1 with
    | ok value =>
        simp only [logged, h]
        exact hs.keep rfl rfl rfl
    | error exc =>
        simp only [logged, h]
        refine ⟨unavailable_of_foreign hforeign h, ?_, ?_⟩
        · rw [committed_append, hs.committed]
          rfl
        · rw [caught_append, hs.caught, Bool.true_and]
          exact Bool.and_true _
  · cases exc with
    | s3 code text =>
        exact .raise fun s hs => ⟨hs.2.1, fun _ => hs.2.2, fun h => by cases h⟩
    | _ =>
        refine .raise fun s hs => ⟨hs.2.1, fun hfailure => ?_, fun hpassed _ => ?_⟩
        · rw [isStorageFailure_eq, hs.1, Bool.false_or] at hfailure
          rw [hs.2.2, hfailure, Bool.or_true]
        · rw [isStorageFailure_eq, hs.1, Bool.false_or] at hpassed
          rw [hs.2.2, hpassed]
          rfl

theorem ends_traceIdVar {α : Type} {next : Str → Py α}
    (hnext : ∀ traceId, Ends (logged handler) Unharmed (next traceId) Verdict) :
    Ends (logged handler) Unharmed (traceIdVar.bind next) Verdict := by
  unfold traceIdVar
  simp only [bind_eq, bind_assoc]
  refine ends_aside ⟨fun _ => rfl, fun _ => rfl, fun _ => rfl⟩ fun value => ?_
  cases value with
  | str traceId => exact hnext traceId
  | _ => exact .raise fun s hs => .of_quiet hs.outage

/-! ## Answering -/

/-- A step of the answer: where it raises, what it raises leaves the call. -/
theorem ends_answering (hforeign : Foreign handler) {op : Op}
    (hok : ∀ value, Log.caught [⟨op, .ok value⟩] = true)
    (herror : ∀ exc, Log.caught [⟨op, .error exc⟩] = false)
    (hcommitted : ∀ answer, Log.committed [⟨op, answer⟩] = false) {α : Type}
    {next : op.Ans → Py α} {post : α → σ × Log → Prop}
    (hnext : ∀ value, Ends (logged handler) Answering (next value)
      (Ends.Exits post Judged)) :
    Ends (logged handler) Answering ((wait op).bind next) (Ends.Exits post Judged) := by
  refine .exits_bind (fun _ => Answering) _ (.call fun s hs => ?_) hnext fun _ _ hs => hs
  cases h : (handler op s.1).1 with
  | ok value =>
      simp only [logged, h]
      refine ⟨?_, ?_⟩
      · rw [caught_append, hs.caught, hok]
        rfl
      · rw [committed_append, hs.committed, hcommitted]
        rfl
  | error exc =>
      simp only [logged, h]
      refine Judged.of_lost (unavailable_of_foreign hforeign h) ?_
      rw [caught_append, herror, Bool.and_false]

theorem deleteFile_answers (hforeign : Foreign handler) (key : Str) :
    Ends (logged handler) Answering (ObjectStorage.deleteFile key)
      (Ends.Exits (fun _ => Answering) Judged) := by
  unfold ObjectStorage.deleteFile
  refine .exits_tryExcept (fun exc s => unavailable exc = false ∧
    Log.committed s.2 = false ∧ Log.caught s.2 = exc.isS3) (.call fun s hs => ?_)
    fun exc => ?_
  · cases h : (handler (.removeObject key) s.1).1 with
    | ok value =>
        simp only [logged, h]
        refine ⟨?_, ?_⟩
        · rw [caught_append, hs.caught]
          rfl
        · rw [committed_append, hs.committed]
          rfl
    | error exc =>
        simp only [logged, h]
        refine ⟨unavailable_of_foreign hforeign h, ?_, ?_⟩
        · rw [committed_append, hs.committed]
          rfl
        · rw [caught_append, hs.caught, Bool.true_and]
          exact Bool.and_true _
  · cases exc with
    | s3 code text => exact .ret fun s hs => ⟨hs.2.2, hs.2.1⟩
    | _ => exact .raise fun s hs => Judged.of_lost hs.1 hs.2.2

theorem deleteAll_answers (hforeign : Foreign handler) (keys : List Str) :
    Ends (logged handler) Answering (deleteAll keys)
      (Ends.Exits (fun _ => Answering) Judged) := by
  induction keys with
  | nil => exact .ret fun s hs => hs
  | cons key keys ih =>
      exact .exits_bind (fun _ => Answering) _ (deleteFile_answers hforeign key)
        (fun _ => ih) fun _ _ hs => hs

/-- Roll back, count the failure and go on with the answer. -/
theorem ends_rollback (hforeign : Foreign handler) {metric : Metric} {amount : Int}
    {α : Type} {next : Py α} {post : α → σ × Log → Prop}
    (hnext : Ends (logged handler) Answering next (Ends.Exits post Judged)) :
    Ends (logged handler) Answering
      ((wait .rollback).bind fun _ => (wait (.count metric amount)).bind fun _ => next)
      (Ends.Exits post Judged) :=
  ends_answering hforeign (fun _ => rfl) (fun _ => rfl) (fun _ => rfl) fun _ =>
    ends_answering hforeign (fun _ => rfl) (fun _ => rfl) (fun _ => rfl) fun _ => hnext

theorem abandonBatch_answers (hforeign : Foreign handler) (keys : List Str)
    {post : List UUID → σ × Log → Prop} :
    Ends (logged handler) Answering (abandonBatch keys) (Ends.Exits post Judged) := by
  unfold abandonBatch
  refine ends_rollback hforeign ?_
  exact .exits_bind (fun _ => Answering) _ (deleteAll_answers hforeign keys)
    (fun _ => .raise fun s hs => Judged.of_answering rfl hs) fun _ _ hs => hs

/-- What no clause catches is not the clean answer. -/
theorem Refused.judged {exc : PyExc} {s : σ × Log} (h : Refused exc s)
    (hexc : exc.isStorageFailure = false) : Judged exc s := by
  intro houtage
  have hunavailable : unavailable exc = false := by
    rw [isStorageFailure_eq, Bool.or_eq_false_iff] at hexc
    exact hexc.1
  simp [hunavailable, h.passed hexc houtage]

/-! ## The three calls -/

theorem storeFile_answers (hforeign : Foreign handler) (batchId : UUID) (traceId : Str)
    (file : ValidatedFile) :
    Ends (logged handler) Unharmed (storeFile settings batchId traceId file)
      (Ends.Exits (fun _ => Unharmed) Refused) := by
  unfold storeFile
  simp only [bind_eq, pure_eq_ret]
  refine ends_try hforeign ⟨fun _ => rfl, fun _ => rfl, fun _ => rfl⟩ ?_
    fun photoId => ?_
  · exact fun _ => Bool.and_true _
  refine .exits_bind (fun _ => Unharmed) _ (create_answers hforeign _) (fun _ => ?_)
    fun _ _ hs => hs.1
  generalize objectKey photoId file.ext = key
  exact .exits_bind (fun _ => Unharmed) _ (saveFile_answers hforeign _ _ _ _ _)
    (fun _ => .ret fun s hs => hs) fun _ _ hs => hs

theorem storeFiles_answers (hforeign : Foreign handler) (batchId : UUID) (traceId : Str)
    (files : List ValidatedFile) (photos : List UUID) (keys : List Str) :
    Ends (logged handler) Unharmed
      (storeFiles settings batchId traceId files photos keys)
      (Ends.Exits (fun _ => Unharmed) Judged) := by
  induction files generalizing photos keys with
  | nil => exact .ret fun s hs => hs
  | cons file files ih =>
      unfold storeFiles
      refine .bind (fun outcome s => Ends.Exits (fun _ => Unharmed) Refused outcome s)
        (.attempt (storeFile_answers hforeign batchId traceId file)) fun outcome => ?_
      cases outcome with
      | ok stored => exact ih _ _
      | error exc =>
          cases hexc : exc.isStorageFailure with
          | true =>
              simp only [hexc, if_true]
              exact (abandonBatch_answers hforeign keys).pre fun s hs =>
                ⟨hs.caught hexc, hs.committed⟩
          | false =>
              simp only [hexc, Bool.false_eq_true, if_false]
              exact .raise fun s hs => hs.judged hexc

/-- After the last object is stored no failure is an outage. -/
theorem ends_committing {metric : Metric} {amount : Int} {reply : Reply} :
    Ends (logged handler) Unharmed
      (do wait .commit
          wait (.count metric amount)
          pure reply : Py Reply) Verdict := by
  simp only [bind_eq, pure_eq_ret]
  have hquiet : ∀ op : Op, (∀ answer, Log.outage [⟨op, answer⟩] = false) →
      ∀ next : op.Ans → Py Reply,
        (∀ value, Ends (logged handler) (fun s => Log.outage s.2 = false) (next value)
          Verdict) →
        Ends (logged handler) (fun s => Log.outage s.2 = false) ((wait op).bind next)
          Verdict := by
    intro op hop next hnext
    refine .exits_bind (fun _ s => Log.outage s.2 = false)
      (fun _ s => Log.outage s.2 = false) (.call fun s hs => ?_) hnext
      fun _ _ => .of_quiet
    have hs' : Log.outage (logged handler op s).2.2 = false := by
      simp only [logged, outage_append, hs, hop, Bool.or_false]
    cases h : (logged handler op s).1 with
    | ok value => exact hs'
    | error exc => exact hs'
  refine .pre ?_ fun s hs => hs.outage
  refine hquiet _ ?_ _ fun _ => ?_
  · exact fun _ => rfl
  refine hquiet _ ?_ _ fun _ => .ret fun s hs => hs
  exact fun _ => rfl

theorem createPhoto_answers (hforeign : Foreign handler) (file : UploadFile) :
    Ends (logged handler) Unharmed (createPhoto settings file) Verdict := by
  unfold createPhoto
  cases hvalid : validate file.data with
  | error exc => exact .raise fun s hs => .of_quiet hs.outage
  | ok valid =>
      obtain ⟨ext, contentType⟩ := valid
      simp only [Program.ofExcept, bind_eq, ret_bind]
      refine ends_aside ⟨fun _ => rfl, fun _ => rfl, fun _ => rfl⟩ fun photoId => ?_
      refine ends_traceIdVar fun traceId => ?_
      refine .exits_bind (fun _ => Unharmed) _ (create_answers hforeign _) (fun _ => ?_)
        fun _ _ hs => .of_quiet hs.2
      generalize objectKey photoId ext = key
      refine .exits_bind (fun _ => Unharmed) _ (.exits_tryExcept _
        (saveFile_answers hforeign _ _ _ _ _) fun exc => ?_) (fun _ => ends_committing)
        fun _ _ hs => hs
      cases hexc : exc.isStorageFailure with
      | true =>
          simp only [if_true]
          refine .pre (ends_rollback hforeign ?_) fun s hs =>
            ⟨hs.caught hexc, hs.committed⟩
          exact .raise fun s hs => Judged.of_answering rfl hs
      | false => exact .raise fun s hs => hs.judged hexc

theorem createBatch_answers (hforeign : Foreign handler) (files : List UploadFile) :
    Ends (logged handler) Unharmed (createBatch settings files) Verdict := by
  unfold createBatch
  cases hvalid : checkBatch files with
  | error exc => exact .raise fun s hs => .of_quiet hs.outage
  | ok validated =>
      simp only [Program.ofExcept, BatchRepository.create, bind_eq, ret_bind, bind_assoc,
        pure_eq_ret]
      refine ends_aside ⟨fun _ => rfl, fun _ => rfl, fun _ => rfl⟩ fun batchId => ?_
      refine ends_aside ⟨fun _ => rfl, fun _ => rfl, fun _ => rfl⟩ fun _ => ?_
      refine ends_traceIdVar fun traceId => ?_
      exact .exits_bind (fun _ => Unharmed) _
        (storeFiles_answers hforeign batchId traceId validated [] [])
        (fun _ => ends_committing) fun _ _ hs => hs

/-- A timeout of `get_file` is caught by its caller, a missing object is no outage. -/
theorem getFile_answers (hforeign : Foreign handler) (photoId : UUID) (key : Str) :
    Ends (logged handler) Unharmed
      ((ObjectStorage.getFile key).tryExcept fun exc =>
        if exc.isTimeout then .raise (unreachable (some photoId.text)) else .raise exc)
      Verdict := by
  unfold ObjectStorage.getFile
  refine .exits_tryExcept (fun exc s =>
    (exc.isTimeout = true → Answering s) ∧ (exc.isTimeout = false → Judged exc s))
    (.exits_tryExcept (fun exc s => unavailable exc = false ∧
      Log.committed s.2 = false ∧ Log.outage s.2 = exc.isOutage ∧
      Log.caught s.2 = (exc.isS3 || exc.isTimeout)) (.call fun s hs => ?_)
      fun exc => ?_) fun exc => ?_
  · cases h : (handler (.getObject key) s.1).1 with
    | ok value =>
        simp only [logged, h]
        exact (hs.keep rfl rfl rfl).outage
    | error exc =>
        simp only [logged, h]
        refine ⟨unavailable_of_foreign hforeign h, ?_, ?_, ?_⟩
        · rw [committed_append, hs.committed]
          rfl
        · rw [outage_append, hs.outage, Bool.false_or]
          exact Bool.or_false _
        · rw [caught_append, hs.caught, Bool.true_and]
          exact Bool.and_true _
  · cases exc with
    | s3 code text =>
        change Ends _ _ (if code = py "NoSuchKey" then _ else _) _
        split
        next hmissing =>
          refine .raise fun s hs => ⟨(fun h => by cases h), fun _ => .of_quiet ?_⟩
          rw [hs.2.2.1, PyExc.isOutage, hmissing]
          decide
        next =>
          refine .raise fun s hs => ⟨(fun h => by cases h), fun _ => ?_⟩
          exact Judged.of_answering rfl ⟨hs.2.2.2, hs.2.1⟩
    | _ =>
        refine .raise fun s hs => ⟨fun htimeout => ⟨?_, hs.2.1⟩, fun hother => ?_⟩
        · rw [hs.2.2.2, htimeout, Bool.or_true]
        · refine Judged.of_lost hs.1 ?_
          rw [hs.2.2.2, hother]
          rfl
  · cases htimeout : exc.isTimeout with
    | true => exact .raise fun s hs => Judged.of_answering rfl (hs.1 rfl)
    | false => exact .raise fun s hs => hs.2 rfl

theorem getPhotoContent_answers (hforeign : Foreign handler) (photoId : UUID) :
    Ends (logged handler) Unharmed (getPhotoContent photoId) Verdict := by
  unfold getPhotoContent PhotoRepository.getById
  simp only [bind_eq, bind_assoc, pure_eq_ret]
  refine ends_aside ⟨fun _ => rfl, fun _ => rfl, fun _ => rfl⟩ fun found => ?_
  cases found with
  | none => exact .raise fun s hs => .of_quiet hs.outage
  | some photo =>
      simp only [loadAnalyses, List.isEmpty_cons, Bool.false_eq_true, if_false, bind_eq,
        bind_assoc, pure_eq_ret, ret_bind]
      refine ends_aside ⟨fun _ => rfl, fun _ => rfl, fun _ => rfl⟩ fun rows => ?_
      simp only [List.map_cons, List.head?_cons]
      refine .exits_bind (fun _ s => Log.outage s.2 = false) _
        (getFile_answers hforeign photoId _) (fun _ => .ret fun s hs => hs)
        fun _ _ hs => hs

theorem outage_clean_iff (hforeign : Foreign handler) (s : σ) (settings : Settings)
    (call : StorageCall)
    (houtage : outage ((call.program settings).run (logged handler) (s, [])).2.2 = true) :
    CleanOutage ((call.program settings).run (logged handler) (s, [])).1
        ((call.program settings).run (logged handler) (s, [])).2.2 ↔
      caught ((call.program settings).run (logged handler) (s, [])).2.2 = true := by
  have hends : Ends (logged handler) Unharmed (call.program settings) Verdict := by
    cases call with
    | createPhoto file => exact createPhoto_answers hforeign file
    | createBatch files => exact createBatch_answers hforeign files
    | getPhotoContent photoId => exact getPhotoContent_answers hforeign photoId
  have hverdict := hends (s, []) ⟨rfl, rfl, rfl⟩
  cases hrun : (call.program settings).run (logged handler) (s, []) with
  | mk outcome last =>
      rw [hrun] at hverdict houtage
      cases outcome with
      | ok reply =>
          have hquiet : outage last.2 = false := hverdict
          rw [hquiet] at houtage
          cases houtage
      | error exc =>
          have hjudged : Judged exc last := hverdict
          refine Iff.trans (and_congr_left' ⟨?_, fun h => ?_⟩) (hjudged houtage)
          · rintro ⟨error, message, photoId, ⟨⟩, rfl, -⟩
            rfl
          · cases exc with
            | app error message photoId =>
                cases error with
                | storageUnavailable => exact ⟨_, _, _, rfl, rfl, rfl⟩
                | _ => cases h
            | _ => cases h

end

/-- Everything but storing an object works. -/
def refusesObjects (exc : PyExc) : Handler Op Op.Ans PyExc Unit :=
  fun op s => match op with
    | .uuid4 => (.ok jpegId, s)
    | .getTraceId => (.ok (.str (py "r")), s)
    | .execute _ => (.ok 1, s)
    | .putObject _ _ _ => (.error exc, s)
    | .commit => (.ok (), s)
    | .rollback => (.ok (), s)
    | .count _ _ => (.ok (), s)
    | _ => (.error (.other []), s)

theorem refusesObjects_foreign {exc : PyExc}
    (hexc : ∀ error message photoId, exc ≠ .app error message photoId) :
    Foreign (refusesObjects exc) := by
  intro op s error message photoId heq
  cases op with
  | putObject name data contentType => exact hexc _ _ _ (Except.error.inj heq)
  | _ => cases heq

theorem outage_clean_slowDown :
    CleanOutage
      ((createPhoto defaultSettings jpegFile).run
        (logged (refusesObjects (.s3 (py "SlowDown") []))) ((), [])).1
      ((createPhoto defaultSettings jpegFile).run
        (logged (refusesObjects (.s3 (py "SlowDown") []))) ((), [])).2.2 := by
  have hforeign : Foreign (refusesObjects (.s3 (py "SlowDown") [])) :=
    refusesObjects_foreign fun _ _ _ h => nomatch h
  exact (outage_clean_iff hforeign () defaultSettings (.createPhoto jpegFile)
    (by rfl)).mpr (by rfl)

theorem outage_not_clean :
    ¬∀ (handler : Handler Op Op.Ans PyExc Unit), Foreign handler →
      ∀ call : StorageCall,
        outage ((call.program defaultSettings).run (logged handler) ((), [])).2.2 = true →
        CleanOutage ((call.program defaultSettings).run (logged handler) ((), [])).1
          ((call.program defaultSettings).run (logged handler) ((), [])).2.2 := by
  intro h
  obtain ⟨⟨error, message, photoId, hraises, -⟩, -⟩ :=
    h (refusesObjects (.other (py "connection refused")))
      (refusesObjects_foreign fun _ _ _ h => nomatch h) (.createPhoto jpegFile) (by rfl)
  have hother : (((StorageCall.createPhoto jpegFile).program defaultSettings).run
      (logged (refusesObjects (.other (py "connection refused")))) ((), [])).1 =
        .error (.other (py "connection refused")) := by rfl
  rw [hother] at hraises
  cases hraises

end PhotoService

end PhotoAnalysis

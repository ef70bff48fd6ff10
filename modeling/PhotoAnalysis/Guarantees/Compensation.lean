import PhotoAnalysis.Guarantees.Photos

/-!
# What an upload that fails leaves in the object store

`create_batch` answers a storage failure by deleting what it has stored.  The
operations of a call are logged with their answers, and what has been deleted is
compared with what has been stored.
-/

namespace PhotoAnalysis

open Foundation Program

/-- The operations of a call with their answers, oldest first. -/
abbrev Log := List (Performed Op Op.Ans PyExc)

namespace Log

/-- The keys whose `save_file` returned. -/
def saved (log : Log) : List Str :=
  log.filterMap fun
    | ⟨.putObject name _ _, .ok _⟩ => some name
    | _ => none

/-- The keys `delete_file` was called for. -/
def deleted (log : Log) : List Str :=
  log.filterMap fun
    | ⟨.removeObject name, _⟩ => some name
    | _ => none

/-- The flush or the `save_file` of a photo raised what the uploads catch. -/
def storageFailed (log : Log) : Bool :=
  log.any fun
    | ⟨.execute (.insertPhoto _), .error exc⟩ => exc.isStorageFailure
    | ⟨.putObject _ _ _, .error (.s3 _ _)⟩ => true
    | ⟨.putObject _ _ _, .error exc⟩ => exc.isStorageFailure
    | _ => false

/-- The rollback, the counter or a `delete_file` raised. -/
def cleanupFailed (log : Log) : Bool :=
  log.any fun
    | ⟨.rollback, .error _⟩ => true
    | ⟨.count _ _, .error _⟩ => true
    | ⟨.removeObject _, .error (.s3 _ _)⟩ => false
    | ⟨.removeObject _, .error _⟩ => true
    | _ => false

@[simp] theorem saved_append (log log' : Log) :
    saved (log ++ log') = saved log ++ saved log' :=
  List.filterMap_append

@[simp] theorem deleted_append (log log' : Log) :
    deleted (log ++ log') = deleted log ++ deleted log' :=
  List.filterMap_append

@[simp] theorem storageFailed_append (log log' : Log) :
    storageFailed (log ++ log') = (storageFailed log || storageFailed log') :=
  List.any_append

@[simp] theorem cleanupFailed_append (log log' : Log) :
    cleanupFailed (log ++ log') = (cleanupFailed log || cleanupFailed log') :=
  List.any_append

/-- No key is deleted that was not stored, and after a storage failure all are. -/
structure Compensated (log : Log) : Prop where
  deleted : deleted log <+: saved log
  complete : storageFailed log = true → cleanupFailed log = false →
    log.deleted = log.saved

/-- The keys in `keys` are stored and nothing has been deleted. -/
structure Stored (keys : List Str) (log : Log) : Prop where
  saved : saved log = keys
  deleted : deleted log = []

theorem Stored.compensated {keys : List Str} {log : Log} (h : Stored keys log)
    (hstorage : storageFailed log = false) : Compensated log :=
  ⟨by simp [h.deleted], by simp [hstorage]⟩

/-- Where nothing has been stored there is nothing to delete. -/
theorem Stored.compensated_nil {log : Log} (h : Stored [] log) : Compensated log :=
  ⟨by simp [h.deleted], fun _ _ => h.deleted.trans h.saved.symm⟩

theorem Stored.append {keys keys' : List Str} {log log' : Log} (h : Stored keys log)
    (hsaved : log'.saved = keys') (hdeleted : log'.deleted = []) :
    Stored (keys ++ keys') (log ++ log') :=
  ⟨by rw [saved_append, h.saved, hsaved],
    by rw [deleted_append, h.deleted, hdeleted]; rfl⟩

theorem Stored.keep {keys : List Str} {log log' : Log} (h : Stored keys log)
    (hsaved : log'.saved = []) (hdeleted : log'.deleted = []) :
    Stored keys (log ++ log') := by
  simpa using h.append hsaved hdeleted

end Log

namespace PhotoService

open Log

variable {σ : Type} {handler : Handler Op Op.Ans PyExc σ} {settings : Settings}
variable {keys : List Str}

/-- The keys are stored and no storage failure has been met. -/
structure Healthy (keys : List Str) (s : σ × Log) : Prop where
  stored : Stored keys s.2
  healthy : storageFailed s.2 = false

/-- `exc` was raised after the keys were stored. -/
structure Failed (keys : List Str) (exc : PyExc) (s : σ × Log) : Prop where
  stored : Stored keys s.2
  raised : storageFailed s.2 = true → exc.isStorageFailure = true

/-- How a step of the upload ends: in `post`, or with the keys as they were. -/
def Ended {α : Type} (keys : List Str) (post : α → σ × Log → Prop) :
    Except PyExc α → σ × Log → Prop
  | .ok value => post value
  | .error exc => Failed keys exc

theorem ends_bind {α β : Type} {program : Py α} {next : α → Py β}
    {Q : Except PyExc β → σ × Log → Prop} (mid : α → σ × Log → Prop)
    (h : Ends (logged handler) (Healthy keys) program (Ended keys mid))
    (hnext : ∀ value, Ends (logged handler) (mid value) (next value) Q)
    (hraise : ∀ exc s, Failed keys exc s → Q (.error exc) s) :
    Ends (logged handler) (Healthy keys) (program.bind next) Q := by
  refine .bind mid (h.post fun outcome s hs => ?_) hnext
  cases outcome with
  | ok value => exact hs
  | error exc => exact hraise exc s hs

theorem Healthy.keep {s : σ × Log} (h : Healthy keys s) {entry : Performed Op Op.Ans PyExc}
    {s' : σ} (hsaved : saved [entry] = []) (hdeleted : Log.deleted [entry] = [])
    (hstorage : storageFailed [entry] = false) : Healthy keys (s', s.2 ++ [entry]) :=
  ⟨h.stored.keep hsaved hdeleted, by
    rw [storageFailed_append, h.healthy, hstorage]
    rfl⟩

theorem Healthy.fail {s : σ × Log} (h : Healthy keys s) {entry : Performed Op Op.Ans PyExc}
    {s' : σ} {exc : PyExc} (hsaved : saved [entry] = [])
    (hdeleted : Log.deleted [entry] = [])
    (hstorage : storageFailed [entry] = true → exc.isStorageFailure = true) :
    Failed keys exc (s', s.2 ++ [entry]) := by
  refine ⟨h.stored.keep hsaved hdeleted, fun hfailed => hstorage ?_⟩
  rwa [storageFailed_append, h.healthy, Bool.false_or] at hfailed

/-- The operations that neither store nor delete nor fail as the storage does. -/
def Plain (op : Op) : Prop :=
  ∀ answer, saved [⟨op, answer⟩] = [] ∧ Log.deleted [⟨op, answer⟩] = [] ∧
    storageFailed [⟨op, answer⟩] = false

theorem ends_plain {op : Op} (hplain : Plain op) {α : Type} {next : op.Ans → Py α}
    {Q : Except PyExc α → σ × Log → Prop}
    (hnext : ∀ value, Ends (logged handler) (Healthy keys) (next value) Q)
    (hraise : ∀ exc s, Healthy keys s → Q (.error exc) s) :
    Ends (logged handler) (Healthy keys) ((wait op).bind next) Q := by
  refine .bind (fun _ => Healthy keys) (.call fun s hs => ?_) hnext
  obtain ⟨hsaved, hdeleted, hstorage⟩ := hplain (handler op s.1).1
  have hs' : Healthy keys (logged handler op s).2 := hs.keep hsaved hdeleted hstorage
  cases h : (logged handler op s).1 with
  | ok value => exact hs'
  | error exc => exact hraise exc _ hs'

theorem Healthy.failed {s : σ × Log} (h : Healthy keys s) (exc : PyExc) :
    Failed keys exc s :=
  ⟨h.stored, by simp [h.healthy]⟩

theorem create_ends (photo : NewPhoto) :
    Ends (logged handler) (Healthy keys) (PhotoRepository.create photo)
      (Ended keys fun _ => Healthy keys) := by
  unfold PhotoRepository.create
  refine ends_bind (fun _ => Healthy keys) (.tryExcept (Failed keys) ?_
    fun exc => ?_) (fun _ => .ret fun _ hs => hs) fun _ _ hs => hs
  · refine .call fun s hs => ?_
    cases h : (handler (.execute (.insertPhoto photo)) s.1).1 with
    | ok rowcount =>
        simp only [logged, h]
        exact hs.keep rfl rfl rfl
    | error exc =>
        simp only [logged, h]
        exact hs.fail rfl rfl fun hstorage => by simpa [storageFailed] using hstorage
  · cases exc with
    | integrity text =>
        refine .raise fun s hs => ⟨hs.1, fun hstorage => ?_⟩
        cases hs.2 hstorage
    | _ => exact .raise fun s hs => hs

/-- What `save_file` makes of an exception of the SDK. -/
def translated : PyExc → PyExc
  | .s3 _ _ => ObjectStorage.unreachable
  | exc => exc

theorem saveFile_ends (bucket name : Str) (data : Bytes) (length : Nat)
    (contentType : Str) :
    Ends (logged handler) (Healthy keys)
      (ObjectStorage.saveFile bucket name data length contentType)
      (Ended keys fun _ => Healthy (keys ++ [name])) := by
  unfold ObjectStorage.saveFile
  refine ends_bind (fun _ => Healthy keys) ?_ (fun _ => ?_) fun _ _ hs => hs
  · unfold ObjectStorage.validateObjectName
    split
    · exact .raise fun s hs => hs.failed _
    · exact .ret fun s hs => hs
  refine ends_bind (fun _ => Healthy (keys ++ [name])) (.tryExcept
    (fun exc => Failed keys (translated exc)) ?_ fun exc => ?_)
    (fun _ => .ret fun _ hs => hs) fun _ _ hs => hs
  · refine .call fun s hs => ?_
    cases h : (handler (.putObject name (data.take length) contentType) s.1).1 with
    | ok value =>
        simp only [logged, h]
        exact ⟨hs.stored.append rfl rfl, by rw [storageFailed_append, hs.healthy]; rfl⟩
    | error exc =>
        simp only [logged, h]
        refine hs.fail rfl rfl fun hstorage => ?_
        cases exc with
        | s3 code text => rfl
        | _ => simpa [storageFailed, translated] using hstorage
  · cases exc with
    | _ => exact .raise fun s hs => hs

theorem traceIdVar_ends :
    Ends (logged handler) (Healthy keys) traceIdVar (Ended keys fun _ => Healthy keys) := by
  unfold traceIdVar
  refine ends_plain (fun _ => ⟨rfl, rfl, rfl⟩) (fun value => ?_)
    fun exc s hs => hs.failed exc
  cases value with
  | str text => exact .ret fun s hs => hs
  | _ => exact .raise fun s hs => hs.failed _

theorem storeFile_ends (batchId : UUID) (traceId : Str) (file : ValidatedFile) :
    Ends (logged handler) (Healthy keys) (storeFile settings batchId traceId file)
      (Ended keys fun stored => Healthy (keys ++ [stored.2])) := by
  unfold storeFile
  simp only [bind_eq, pure_eq_ret]
  refine ends_plain (fun _ => ⟨rfl, rfl, rfl⟩) (fun photoId => ?_)
    fun exc s hs => hs.failed exc
  refine ends_bind (fun _ => Healthy keys) (create_ends _) (fun _ => ?_)
    fun _ _ hs => hs
  generalize objectKey photoId file.ext = key
  exact ends_bind (fun _ => Healthy (keys ++ [key])) (saveFile_ends _ _ _ _ _)
    (fun _ => .ret fun s hs => hs) fun _ _ hs => hs

/-! ## Deleting what has been stored -/

/-- Of the stored keys, those in `done` have been deleted. -/
structure Deleting (keys done : List Str) (s : σ × Log) : Prop where
  saved : saved s.2 = keys
  deleted : Log.deleted s.2 = done

/-- The call raises after some of the keys have been deleted. -/
structure Abandoned (keys : List Str) (s : σ × Log) : Prop where
  saved : saved s.2 = keys
  deleted : Log.deleted s.2 <+: keys
  cleanup : cleanupFailed s.2 = true

theorem Abandoned.compensated {s : σ × Log} (h : Abandoned keys s) :
    Compensated s.2 :=
  ⟨by rw [h.saved]; exact h.deleted, by simp [h.cleanup]⟩

theorem deleteFile_ends {done : List Str} (key : Str) (hdone : done ++ [key] <+: keys) :
    Ends (logged handler) (Deleting keys done) (ObjectStorage.deleteFile key)
      fun outcome s => match outcome with
        | .ok _ => Deleting keys (done ++ [key]) s
        | .error _ => Abandoned keys s := by
  unfold ObjectStorage.deleteFile
  refine .tryExcept (fun exc s => Deleting keys (done ++ [key]) s ∧
    ((∀ code text, exc ≠ .s3 code text) → cleanupFailed s.2 = true))
    (.call fun s hs => ?_) fun exc => ?_
  · have hs' : Deleting keys (done ++ [key]) (logged handler (.removeObject key) s).2 := by
      refine ⟨?_, ?_⟩
      · simp only [logged, saved_append, hs.saved]
        exact List.append_nil _
      · simp only [logged, deleted_append, hs.deleted]
        rfl
    cases h : (logged handler (.removeObject key) s).1 with
    | ok value => exact hs'
    | error exc =>
        refine ⟨hs', fun hexc => ?_⟩
        have hentry : cleanupFailed [⟨.removeObject key, .error exc⟩] = true := by
          cases exc with
          | s3 code text => exact absurd rfl (hexc code text)
          | _ => rfl
        have hanswer : (handler (.removeObject key) s.1).1 = .error exc := h
        simp only [logged, cleanupFailed_append, hanswer, hentry, Bool.or_true]
  · cases exc with
    | s3 code text => exact .ret fun s hs => hs.1
    | _ =>
        refine .raise fun s hs => ⟨hs.1.saved, ?_, hs.2 fun _ _ h => nomatch h⟩
        rw [hs.1.deleted]
        exact hdone

theorem deleteAll_ends (done rest : List Str) :
    Ends (logged handler) (Deleting (done ++ rest) done) (deleteAll rest)
      fun outcome s => match outcome with
        | .ok _ => Deleting (done ++ rest) (done ++ rest) s
        | .error _ => Abandoned (done ++ rest) s := by
  induction rest generalizing done with
  | nil => exact .ret fun s hs => by simpa using hs
  | cons key rest ih =>
      have happend : done ++ key :: rest = (done ++ [key]) ++ rest := by simp
      rw [happend]
      refine .bind (fun _ => Deleting ((done ++ [key]) ++ rest) (done ++ [key]))
        ((deleteFile_ends key (List.prefix_append _ _)).post ?_) fun _ => ih _
      rintro (exc | value) s hs <;> exact hs

/-- A step before the deletes: where it raises, none of them is reached. -/
theorem ends_before {op : Op} {α : Type} {next : op.Ans → Py α}
    {Q : Except PyExc α → σ × Log → Prop}
    (hop : ∀ answer, saved [⟨op, answer⟩] = [] ∧ Log.deleted [⟨op, answer⟩] = [])
    (hcleanup : ∀ exc, cleanupFailed [⟨op, .error exc⟩] = true)
    (hnext : ∀ value, Ends (logged handler) (Deleting keys []) (next value) Q)
    (hraise : ∀ exc s, Abandoned keys s → Q (.error exc) s) :
    Ends (logged handler) (Deleting keys []) ((wait op).bind next) Q := by
  refine .bind (fun _ => Deleting keys []) (.call fun s hs => ?_) hnext
  obtain ⟨hsaved, hdeleted⟩ := hop (handler op s.1).1
  have hs' : Deleting keys [] (logged handler op s).2 := by
    refine ⟨?_, ?_⟩
    · simp only [logged, saved_append, hs.saved, hsaved, List.append_nil]
    · simp only [logged, deleted_append, hs.deleted, hdeleted, List.append_nil]
  cases h : (logged handler op s).1 with
  | ok value => exact hs'
  | error exc =>
      have hanswer : (handler op s.1).1 = .error exc := h
      refine hraise exc _ ⟨hs'.saved, ?_, ?_⟩
      · rw [hs'.deleted]
        exact List.nil_prefix
      · simp only [logged, cleanupFailed_append, hanswer, hcleanup, Bool.or_true]

theorem abandonBatch_ends :
    Ends (logged handler) (fun s => Stored keys s.2) (abandonBatch keys)
      fun outcome s => (∃ exc, outcome = .error exc) ∧ Compensated s.2 := by
  unfold abandonBatch
  refine .pre (P := Deleting keys []) ?_ fun s hs => ⟨hs.saved, hs.deleted⟩
  refine ends_before (fun _ => ⟨rfl, rfl⟩) (fun _ => rfl) (fun _ => ?_)
    fun exc s hs => ⟨⟨exc, rfl⟩, hs.compensated⟩
  refine ends_before (fun _ => ⟨rfl, rfl⟩) (fun _ => rfl) (fun _ => ?_)
    fun exc s hs => ⟨⟨exc, rfl⟩, hs.compensated⟩
  refine .bind (fun _ => Deleting keys keys) ((deleteAll_ends [] keys).post ?_)
    fun _ => .raise fun s hs => ⟨⟨_, rfl⟩, ?_⟩
  · rintro (exc | value) s hs
    · exact ⟨⟨exc, rfl⟩, hs.compensated⟩
    · exact hs
  · have hall : Log.deleted s.2 = saved s.2 := hs.deleted.trans hs.saved.symm
    exact ⟨hall ▸ List.prefix_refl _, fun _ _ => hall⟩

/-! ## Both uploads -/

/-- A failure that is no storage failure leaves the keys where they are. -/
theorem Failed.compensated {exc : PyExc} {s : σ × Log} (h : Failed keys exc s)
    (hexc : exc.isStorageFailure = false) : Compensated s.2 := by
  refine h.stored.compensated (Bool.eq_false_iff.mpr fun hstorage => ?_)
  rw [h.raised hstorage] at hexc
  cases hexc

theorem storeFiles_ends (batchId : UUID) (traceId : Str) (files : List ValidatedFile)
    (photos : List UUID) :
    Ends (logged handler) (Healthy keys)
      (storeFiles settings batchId traceId files photos keys)
      fun outcome s => match outcome with
        | .ok _ => ∃ keys', Healthy keys' s
        | .error _ => Compensated s.2 := by
  induction files generalizing keys photos with
  | nil => exact .ret fun s hs => ⟨keys, hs⟩
  | cons file files ih =>
      unfold storeFiles
      refine .bind (fun outcome s => Ended keys
        (fun stored => Healthy (keys ++ [stored.2])) outcome s)
        (.attempt (storeFile_ends batchId traceId file)) fun outcome => ?_
      cases outcome with
      | ok stored => exact ih _
      | error exc =>
          cases hexc : exc.isStorageFailure with
          | true =>
              simp only [hexc, if_true]
              intro s hs
              obtain ⟨⟨exc', hraises⟩, hcompensated⟩ := abandonBatch_ends s hs.stored
              rw [hraises]
              exact hcompensated
          | false =>
              simp only [hexc, Bool.false_eq_true, if_false]
              exact .raise fun s hs => hs.compensated hexc

/-- What is logged of a call that raises. -/
def Compensates (handler : Handler Op Op.Ans PyExc σ) (s : σ) (call : Py Reply) :
    Prop :=
  ∀ exc, (call.run (logged handler) (s, [])).1 = .error exc →
    Compensated (call.run (logged handler) (s, [])).2.2

theorem compensates_of_ends {s : σ} {call : Py Reply}
    (h : Ends (logged handler) (Healthy []) call fun outcome s => match outcome with
      | .ok _ => True
      | .error _ => Compensated s.2) : Compensates handler s call := by
  intro exc hexc
  have hends := h (s, []) ⟨⟨rfl, rfl⟩, rfl⟩
  rw [hexc] at hends
  exact hends

theorem Healthy.compensated {s : σ × Log} (h : Healthy keys s) : Compensated s.2 :=
  h.stored.compensated h.healthy

/-- After the last object is stored no failure is one of the storage. -/
theorem ends_commit {metric : Metric} {amount : Int} {reply : Reply} :
    Ends (logged handler) (Healthy keys)
      (do wait .commit
          wait (.count metric amount)
          pure reply : Py Reply) fun outcome s => match outcome with
        | .ok _ => True
        | .error _ => Compensated s.2 := by
  refine ends_plain (fun _ => ⟨rfl, rfl, rfl⟩) (fun _ => ?_)
    fun exc s hs => hs.compensated
  exact ends_plain (fun _ => ⟨rfl, rfl, rfl⟩) (fun _ => .ret fun _ _ => trivial)
    fun exc s hs => hs.compensated

theorem createPhoto_compensates (handler : Handler Op Op.Ans PyExc σ) (s : σ)
    (settings : Settings) (file : UploadFile) :
    Compensates handler s (createPhoto settings file) := by
  refine compensates_of_ends ?_
  unfold createPhoto
  cases hvalid : validate file.data with
  | error exc => exact .raise fun s hs => hs.compensated
  | ok valid =>
      obtain ⟨ext, contentType⟩ := valid
      simp only [Program.ofExcept, bind_eq, ret_bind]
      refine ends_plain (fun _ => ⟨rfl, rfl, rfl⟩) (fun photoId => ?_)
        fun exc s hs => hs.compensated
      refine ends_bind (fun _ => Healthy []) traceIdVar_ends (fun traceId => ?_)
        fun exc s hs => hs.stored.compensated_nil
      refine ends_bind (fun _ => Healthy []) (create_ends _) (fun _ => ?_)
        fun exc s hs => hs.stored.compensated_nil
      generalize objectKey photoId ext = key
      refine .bind (fun _ => Healthy [key]) (.tryExcept (Failed [])
        ((saveFile_ends _ _ _ _ _).post ?_) fun exc => ?_) fun _ => ends_commit
      · rintro (exc | value) s hs <;> exact hs
      · split
        · refine .pre (P := Deleting [] []) ?_
            fun s hs => ⟨hs.stored.saved, hs.stored.deleted⟩
          refine ends_before (fun _ => ⟨rfl, rfl⟩) (fun _ => rfl) (fun _ => ?_)
            fun exc s hs => hs.compensated
          refine ends_before (fun _ => ⟨rfl, rfl⟩) (fun _ => rfl) (fun _ => ?_)
            fun exc s hs => hs.compensated
          exact .raise fun s hs => Stored.compensated_nil ⟨hs.saved, hs.deleted⟩
        · exact .raise fun s hs => hs.stored.compensated_nil

theorem createBatch_compensates (handler : Handler Op Op.Ans PyExc σ) (s : σ)
    (settings : Settings) (files : List UploadFile) :
    Compensates handler s (createBatch settings files) := by
  refine compensates_of_ends ?_
  unfold createBatch
  cases hvalid : checkBatch files with
  | error exc => exact .raise fun s hs => hs.compensated
  | ok validated =>
      simp only [Program.ofExcept, BatchRepository.create, bind_eq, ret_bind, bind_assoc,
        pure_eq_ret]
      refine ends_plain (fun _ => ⟨rfl, rfl, rfl⟩) (fun batchId => ?_)
        fun exc s hs => hs.compensated
      refine ends_plain (fun _ => ⟨rfl, rfl, rfl⟩) (fun _ => ?_)
        fun exc s hs => hs.compensated
      refine ends_bind (fun _ => Healthy []) traceIdVar_ends (fun traceId => ?_)
        fun exc s hs => hs.stored.compensated_nil
      refine .bind (fun _ s => ∃ keys, Healthy keys s)
        ((storeFiles_ends batchId traceId validated []).post ?_) fun photos => ?_
      · rintro (exc | value) s hs <;> exact hs
      · rintro s ⟨keys, hs⟩
        exact ends_commit s hs

theorem upload_compensated (handler : Handler Op Op.Ans PyExc σ) (s : σ)
    (settings : Settings) :
    (∀ file, Compensates handler s (createPhoto settings file)) ∧
      ∀ files, Compensates handler s (createBatch settings files) :=
  ⟨createPhoto_compensates handler s settings, createBatch_compensates handler s settings⟩

/-- Everything but the commit works. -/
def refusesCommit : Handler Op Op.Ans PyExc Unit :=
  fun op s => match op with
    | .uuid4 => (.ok jpegId, s)
    | .getTraceId => (.ok (.str (py "r")), s)
    | .execute _ => (.ok 1, s)
    | .putObject _ _ _ => (.ok (), s)
    | .commit => (.error (.database (py "connection is closed")), s)
    | _ => (.error (.other []), s)

theorem commit_not_compensated :
    ¬∀ (handler : Handler Op Op.Ans PyExc Unit) (file : UploadFile) (exc : PyExc),
      exc.isException = true →
      ((createPhoto defaultSettings file).run (logged handler) ((), [])).1 = .error exc →
      ∀ key, key ∈ saved
          ((createPhoto defaultSettings file).run (logged handler) ((), [])).2.2 →
        key ∈ Log.deleted
          ((createPhoto defaultSettings file).run (logged handler) ((), [])).2.2 := by
  intro h
  have hraises : ((createPhoto defaultSettings jpegFile).run (logged refusesCommit)
      ((), [])).1 = .error (.database (py "connection is closed")) := by rfl
  have hsaved : saved ((createPhoto defaultSettings jpegFile).run
      (logged refusesCommit) ((), [])).2.2 = [objectKey jpegId (py "jpg")] := by rfl
  have hdeleted : Log.deleted ((createPhoto defaultSettings jpegFile).run
      (logged refusesCommit) ((), [])).2.2 = [] := by rfl
  have hkey := h refusesCommit jpegFile _ rfl hraises (objectKey jpegId (py "jpg"))
  rw [hsaved, hdeleted] at hkey
  exact absurd (hkey List.mem_cons_self) List.not_mem_nil

end PhotoService

end PhotoAnalysis

import PhotoAnalysis.Foundation.Monitor
import PhotoAnalysis.Refinement.Effects

/-!
# What a task has locked

How the open transaction of a task looks when it waits for a statement: at most one
photo is updated in a transaction, and last, but by the publisher, which goes through
the photos that it has fetched in their order.  Nobody holds a start lock meanwhile.
-/

namespace PhotoAnalysis

open Foundation Program

/-- What a task has locked. -/
inductive Hold where
  | nothing
  /-- rows of its own making -/
  | rows
  | result
  /-- some of the first `n` of the photos it has fetched -/
  | marks (photos : List Photo) (n : Nat)
  /-- whatever it may be, there is no further statement -/
  | last
  | startLock (app : Nat)

/-- How the photos it has fetched are left behind by an update. -/
def markedUpTo (photos : List Photo) (n : Nat) (id : UUID) : Nat :=
  n + (photos.drop n).findIdx (fun photo => photo.photoId = id) + 1

def Hold.after (hold : Hold) : Stmt → Hold
  | .insertPhoto _ | .insertBatch _ _ => rows
  | .insertAnalysis _ _ _ _ _ => result
  | .updatePhoto id _ _ =>
      match hold with
      | marks photos n => marks photos (markedUpTo photos n id)
      | _ => last
  | .updateBatch _ _ _ => last

/-- What a task has locked, and the identifiers it has come up with. -/
structure Grip where
  minted : List UUID
  hold : Hold

namespace Grip

def make (grip : Grip) (hold : Hold) : Grip := { grip with hold := hold }

def name (grip : Grip) (id : UUID) : Grip := { grip with minted := id :: grip.minted }

def allowed (grip : Grip) : Op → Prop
  | .execute (.insertPhoto photo) =>
      (grip.hold = .nothing ∨ grip.hold = .rows) ∧ photo.photoId ∈ grip.minted ∧
        ∃ ext, photo.objectKey = PhotoService.objectKey photo.photoId ext
  | .execute (.insertBatch id _) => grip.hold = .nothing ∧ id ∈ grip.minted
  | .execute (.insertAnalysis _ _ _ _ _) => grip.hold = .nothing
  | .execute (.updatePhoto id status values) =>
      grip.hold = .nothing ∨ grip.hold = .result ∨ ∃ photos n, grip.hold = .marks photos n ∧
        status = none ∧ (∃ time, values = PhotoRepository.publishedValues time) ∧
          ∃ photo ∈ photos.drop n, photo.photoId = id
  | .execute (.updateBatch _ _ _) => grip.hold = .nothing
  | .select (.unpublished _) => grip.hold = .nothing
  | .commit | .rollback | .close => ∀ app, grip.hold ≠ .startLock app
  | .acquireStartLock _ => grip.hold = .nothing
  | .releaseStartLock app => grip.hold = .startLock app
  | _ => True

def next (grip : Grip) : (op : Op) → Except PyExc op.Ans → Option Grip
  | .uuid4, .ok id => some (grip.name id)
  | .execute stmt, .ok _ => some (grip.make (grip.hold.after stmt))
  | .select (.unpublished _), .ok photos => some (grip.make (.marks photos 0))
  | .commit, .ok _ => some (grip.make .nothing)
  | .rollback, _ | .close, _ => some (grip.make .nothing)
  | .acquireStartLock app, .ok _ => some (grip.make (.startLock app))
  | .releaseStartLock _, .ok _ => some (grip.make .nothing)
  | .releaseStartLock _, .error _ => none
  | _, _ => some grip

/-- Nothing is locked. -/
def Free (grip : Grip) : Prop := grip.hold = .nothing

def Unlocked (grip : Grip) : Prop := ∀ app, grip.hold ≠ .startLock app

theorem Free.unlocked {grip : Grip} (h : grip.Free) : grip.Unlocked := by
  intro app heq
  cases h.symm.trans heq

/-- Nothing is locked, but after an exception. -/
def Quits {α : Type} : Except PyExc α → Grip → Prop
  | .ok _, grip => grip.Free
  | .error _, grip => grip.Unlocked

/-- There is no further statement, unless one failed. -/
def Lasts {α : Type} : Except PyExc α → Grip → Prop
  | .ok _, grip => grip.hold = .last
  | .error _, grip => grip.Unlocked

/-- Rows of its own making at most, under these identifiers among others. -/
def Makes (ids : List UUID) (grip : Grip) : Prop :=
  (grip.hold = .nothing ∨ grip.hold = .rows) ∧ ∀ id ∈ ids, id ∈ grip.minted

/-- Marks on the first `n` of the photos at most. -/
def Marks (photos : List Photo) (n : Nat) (grip : Grip) : Prop :=
  ∃ m ≤ n, grip.hold = .marks photos m

end Grip

def grips : Protocol Op Op.Ans PyExc Grip := ⟨Grip.allowed, Grip.next⟩

/-- An operation that locks nothing, gives nothing up and names nothing. -/
def Op.isLight : Op → Bool
  | uuid4 | execute _ | commit | rollback | close => false
  | select (.unpublished _) => false
  | acquireStartLock _ | releaseStartLock _ => false
  | _ => true

section

variable {α β : Type} {settings : Settings} {grip : Grip} {within : Grip → Prop}
variable {ids : List UUID}

theorem light_stays {program : Py α} (h : program.Uses (Op.isLight ·)) :
    Stays grips within program := by
  refine Stays.uses h ?_
  intro op grip _ hop
  cases op with
  | uuid4 | execute | commit | rollback | close | acquireStartLock | releaseStartLock =>
      cases hop
  | select query =>
      cases query with
      | unpublished limit => cases hop
      | _ => exact ⟨trivial, fun answer mode' hnext => (Option.some.inj hnext).symm⟩
  | _ => exact ⟨trivial, fun answer mode' hnext => (Option.some.inj hnext).symm⟩

theorem wait_light {op : Op} (h : op.isLight = true) : (wait op).Uses (Op.isLight ·) :=
  uses_call.mpr h

theorem grip_bind {op : Op} {next : op.Ans → Py α} {post : Except PyExc α → Grip → Prop}
    (hallowed : grip.allowed op)
    (hok : ∀ value grip', grip.next op (.ok value) = some grip' →
      (next value).Follows grips post grip')
    (herror : ∀ exc grip', grip.next op (.error exc) = some grip' →
      post (.error exc) grip') :
    ((wait op).bind next).Follows grips post grip := by
  refine ⟨hallowed, fun answer grip' hnext => ?_⟩
  cases answer with
  | ok value => exact hok value grip' hnext
  | error exc => exact herror exc grip' hnext

theorem uuid_bind {next : UUID → Py α} {post : Except PyExc α → Grip → Prop}
    (hok : ∀ id, (next id).Follows grips post (grip.name id))
    (herror : ∀ exc, post (.error exc) grip) :
    ((wait .uuid4).bind next).Follows grips post grip := by
  refine grip_bind trivial ?_ ?_
  · rintro id _ ⟨⟩
    exact hok id
  · rintro exc _ ⟨⟩
    exact herror exc

theorem light_bind {program : Py α} {next : α → Py β} {post : Except PyExc β → Grip → Prop}
    (h : program.Uses (Op.isLight ·)) (hok : ∀ value, (next value).Follows grips post grip)
    (herror : ∀ exc, post (.error exc) grip) :
    (program.bind next).Follows grips post grip := by
  refine Follows.bind (fun _ grip' => grip' = grip)
    (((light_stays h : Stays grips (· = grip) program) grip rfl).mono ?_) ?_
  · rintro (exc | value) grip' rfl
    · exact herror exc
    · rfl
  · rintro value grip' rfl
    exact hok value

/-! ## Reads -/

theorem loadAnalyses_light (photos : List Photo) :
    (loadAnalyses photos).Uses (Op.isLight ·) := by
  unfold loadAnalyses
  split
  · exact uses_ret _
  · exact .bind (wait_light rfl) fun _ => uses_ret _

theorem getById_light (photoId : UUID) :
    (PhotoRepository.getById photoId).Uses (Op.isLight ·) := by
  refine .bind (wait_light rfl) fun found => ?_
  split
  · exact .bind (loadAnalyses_light _) fun _ => uses_ret _
  · exact uses_ret _

theorem getPhoto_light (photoId : UUID) :
    (PhotoService.getPhoto photoId).Uses (Op.isLight ·) := by
  refine .bind (getById_light photoId) fun found => ?_
  split
  · exact uses_ret _
  · exact uses_raise _

theorem listPhotos_light (limit offset : Nat) :
    (PhotoService.listPhotos limit offset).Uses (Op.isLight ·) :=
  .bind (.bind (wait_light rfl) fun _ => loadAnalyses_light _) fun _ => uses_ret _

theorem getPhotoContent_light (photoId : UUID) :
    (PhotoService.getPhotoContent photoId).Uses (Op.isLight ·) := by
  refine .bind (getById_light photoId) fun found => ?_
  split
  · exact uses_raise _
  refine .bind (.tryExcept (.tryExcept (wait_light rfl) fun exc => ?_) fun exc => ?_)
    fun _ => uses_ret _
  · cases exc with
    | s3 code text =>
        dsimp only
        split
        · exact uses_raise _
        · exact uses_raise _
    | _ => exact uses_raise _
  · split
    · exact uses_raise _
    · exact uses_raise _

theorem traceIdVar_light : traceIdVar.Uses (Op.isLight ·) := by
  refine .bind (wait_light rfl) fun value => ?_
  cases value with
  | str traceId => exact uses_ret _
  | _ => exact uses_raise _

theorem reraise_light {caught : Bool} {value : α} {exc : PyExc} :
    (if caught then pure value else .raise exc : Py α).Uses (Op.isLight ·) := by
  split
  · exact uses_ret _
  · exact uses_raise _

theorem getBatch_grips (batchId : UUID) (hgrip : grip.Free) :
    (BatchService.getBatch batchId).Follows grips (fun _ _ => True) grip := by
  have hload : (BatchRepository.getById batchId).Uses (Op.isLight ·) := by
    refine .bind (wait_light rfl) fun found => ?_
    split
    · exact .bind (wait_light rfl) fun _ => .bind (loadAnalyses_light _) fun _ =>
        uses_ret _
    · exact uses_ret _
  refine light_bind hload (fun found => ?_) fun _ => trivial
  split
  · trivial
  dsimp only
  split
  · refine Follows.bind (fun _ => Grip.Unlocked) ?_ fun _ grip' hgrip' => ?_
    · refine grip_bind hgrip ?_ fun _ _ _ => trivial
      rintro value _ ⟨⟩ app hhold
      cases hhold
    · exact grip_bind hgrip' (fun _ _ _ => trivial) fun _ _ _ => trivial
  · trivial

/-! ## Uploads -/

/-- The operations of an upload: it makes rows under its own identifiers. -/
theorem makes_execute {photo : NewPhoto} {ext : Str} (hid : photo.photoId ∈ ids)
    (hkey : photo.objectKey = PhotoService.objectKey photo.photoId ext) :
    Stays grips (Grip.Makes ids) (wait (.execute (.insertPhoto photo))) := by
  refine fun grip hgrip => .call ⟨hgrip.1, hgrip.2 _ hid, ext, hkey⟩ fun answer grip' h => ?_
  cases answer with
  | ok rowcount =>
      cases h
      exact ⟨.inr rfl, hgrip.2⟩
  | error exc =>
      cases h
      exact hgrip

theorem makes_light {program : Py α} (h : program.Uses (Op.isLight ·)) :
    Stays grips (Grip.Makes ids) program :=
  light_stays h

theorem Grip.Makes.unlocked (h : grip.Makes ids) : grip.Unlocked := by
  intro app heq
  rcases h.1 with hhold | hhold <;> cases hhold.symm.trans heq

theorem makes_commit : Stays grips (Grip.Makes ids) (wait .commit) := by
  refine fun grip hgrip => .call hgrip.unlocked fun answer grip' h => ?_
  cases answer with
  | ok value =>
      cases h
      exact ⟨.inl rfl, hgrip.2⟩
  | error exc =>
      cases h
      exact hgrip

theorem makes_rollback : Stays grips (Grip.Makes ids) (wait .rollback) := by
  refine fun grip hgrip => .call hgrip.unlocked fun answer grip' h => ?_
  cases answer with
  | ok value | error exc =>
      cases h
      exact ⟨.inl rfl, hgrip.2⟩

/-- The rows that it goes on to make may go by an identifier it has just come up with. -/
theorem makes_named {program : Py α} {id : UUID} {post : Except PyExc α → Grip → Prop}
    (h : Stays grips (Grip.Makes [id]) program)
    (hhold : grip.hold = .nothing ∨ grip.hold = .rows)
    (hpost : ∀ outcome grip', grip'.Makes [] → post outcome grip') :
    program.Follows grips post (grip.name id) := by
  refine (h (grip.name id) ⟨hhold, ?_⟩).mono fun outcome grip' hgrip' =>
    hpost outcome grip' ⟨hgrip'.1, fun id hid => absurd hid List.not_mem_nil⟩
  exact fun id hid => List.mem_cons.mpr (.inl (List.mem_singleton.mp hid))

theorem create_makes {photo : NewPhoto} {ext : Str} (hid : photo.photoId ∈ ids)
    (hkey : photo.objectKey = PhotoService.objectKey photo.photoId ext) :
    Stays grips (Grip.Makes ids) (PhotoRepository.create photo) := by
  refine .bind ((makes_execute hid hkey).tryExcept fun exc => ?_) fun _ => .ret _
  cases exc with
  | _ => exact .raise _

theorem saveFile_light (bucket name : Str) (data : Bytes) (length : Nat)
    (contentType : Str) :
    (ObjectStorage.saveFile bucket name data length contentType).Uses (Op.isLight ·) := by
  refine .bind ?_ fun _ => .bind (.tryExcept (wait_light rfl) fun exc => ?_) fun _ =>
    uses_ret _
  · unfold ObjectStorage.validateObjectName
    split
    · exact uses_raise _
    · exact uses_ret _
  · cases exc with
    | _ => exact uses_raise _

theorem deleteAll_light (keys : List Str) :
    (PhotoService.deleteAll keys).Uses (Op.isLight ·) := by
  induction keys with
  | nil => exact uses_ret _
  | cons key keys ih =>
      refine .bind (.tryExcept (wait_light rfl) fun exc => ?_) fun _ => ih
      cases exc with
      | s3 code text => exact uses_ret _
      | _ => exact uses_raise _

theorem createPhoto_grips (file : UploadFile) (hgrip : grip.Free) :
    (PhotoService.createPhoto settings file).Follows grips (fun _ _ => True) grip := by
  unfold PhotoService.createPhoto
  refine light_bind (uses_ofExcept _) ?_ fun _ => trivial
  rintro ⟨ext, contentType⟩
  refine uuid_bind (fun photoId => ?_) fun _ => trivial
  dsimp only
  refine makes_named ?_ (.inl hgrip) fun _ _ _ => trivial
  refine .bind (makes_light traceIdVar_light) fun traceId =>
    .bind (create_makes List.mem_cons_self rfl) fun _ => ?_
  generalize PhotoService.objectKey photoId ext = key
  generalize PhotoService.unreachable (some photoId.text) = unreachable
  refine .bind ((makes_light (saveFile_light _ _ _ _ _)).tryExcept fun exc => ?_)
    fun _ => ?_
  · split
    · exact makes_rollback.bind fun _ => (makes_light (wait_light rfl)).bind fun _ =>
        .raise _
    · exact .raise _
  · generalize photoId.text = text
    exact makes_commit.bind fun _ => (makes_light (wait_light rfl)).bind fun _ => .ret _

theorem storeFile_makes (batchId : UUID) (traceId : Str)
    (file : PhotoService.ValidatedFile) :
    Stays grips (Grip.Makes []) (PhotoService.storeFile settings batchId traceId file) := by
  intro grip hgrip
  refine uuid_bind (fun photoId => ?_) fun _ => hgrip
  dsimp only
  refine makes_named ?_ hgrip.1 fun _ _ h => h
  refine .bind (create_makes List.mem_cons_self rfl) fun _ => ?_
  generalize PhotoService.objectKey photoId file.ext = key
  exact (makes_light (saveFile_light _ _ _ _ _)).bind fun _ => .ret _

theorem storeFiles_makes (batchId : UUID) (traceId : Str)
    (files : List PhotoService.ValidatedFile) (photos : List UUID) (saved : List Str) :
    Stays grips (Grip.Makes [])
      (PhotoService.storeFiles settings batchId traceId files photos saved) := by
  induction files generalizing photos saved with
  | nil => exact .ret _
  | cons file files ih =>
      unfold PhotoService.storeFiles
      refine .bind (storeFile_makes batchId traceId file).attempt ?_
      rintro (exc | ⟨photoId, key⟩)
      · dsimp only
        split
        · exact makes_rollback.bind fun _ => (makes_light (wait_light rfl)).bind fun _ =>
            (makes_light (deleteAll_light saved)).bind fun _ => .raise _
        · exact .raise _
      · exact ih _ _

theorem createBatch_grips (files : List UploadFile) (hgrip : grip.Free) :
    (PhotoService.createBatch settings files).Follows grips (fun _ _ => True) grip := by
  refine light_bind (uses_ofExcept _) (fun validated => ?_) fun _ => trivial
  refine uuid_bind (fun batchId => ?_) fun _ => trivial
  refine Follows.bind (fun _ => Grip.Makes [batchId]) ?_ fun _ grip' hgrip' => ?_
  · refine grip_bind ⟨hgrip, List.mem_cons_self⟩ ?_ fun _ _ _ => trivial
    rintro rowcount _ ⟨⟩
    exact ⟨.inr rfl, fun id hid => List.mem_cons.mpr (.inl (List.mem_singleton.mp hid))⟩
  · have hstays : Stays grips (Grip.Makes []) (do
        let traceId ← traceIdVar
        let photos ← PhotoService.storeFiles settings batchId traceId validated [] []
        wait .commit
        wait (.count .photosUploadedTotal photos.length)
        pure (.batchAccepted batchId.text
          (photos.map fun photoId => ⟨photoId.text, py "pending"⟩)) : Py Reply) :=
      (makes_light traceIdVar_light).bind fun traceId =>
        (storeFiles_makes batchId traceId validated [] []).bind fun photos =>
          makes_commit.bind fun _ => (makes_light (wait_light rfl)).bind fun _ => .ret _
    exact (hstays grip' ⟨hgrip'.1, fun id hid => absurd hid List.not_mem_nil⟩).mono
      fun _ _ _ => trivial

/-! ## Sessions and the producer -/

theorem withSession_free {body : Py α}
    (h : body.Follows grips (fun _ grip' => grip'.Unlocked) grip) :
    (withSession body).Follows grips (fun _ grip' => grip'.Free) grip := by
  refine Follows.tryFinally _ h fun outcome grip' hgrip' => .call hgrip' ?_
  intro answer grip'' hnext
  cases answer with
  | ok value | error exc =>
      cases hnext
      rfl

theorem stop_light (app : Nat) : (KafkaEventProducer.stop app).Uses (Op.isLight ·) :=
  .bind (wait_light rfl) fun _ => wait_light rfl

theorem ensureStarted_free (app : Nat) :
    Stays grips Grip.Free (KafkaEventProducer.ensureStarted app) := by
  refine .bind (light_stays (wait_light rfl)) fun self => ?_
  split
  · exact .ret _
  intro grip hgrip
  refine grip_bind hgrip ?_ ?_
  · rintro value _ ⟨⟩
    have hbody : ∀ body : Py Unit, body.Uses (Op.isLight ·) →
        (body.tryFinally (wait (.releaseStartLock app))).Follows grips
          (fun _ grip' => grip'.Free) (grip.make (.startLock app)) := by
      intro body hlight
      refine Follows.tryFinally (fun _ grip' => grip'.hold = .startLock app)
        (light_stays hlight _ rfl) fun outcome grip' hgrip' => .call hgrip' ?_
      intro answer grip'' hnext
      cases answer with
      | ok value =>
          cases hnext
          rfl
      | error exc => cases hnext
    refine hbody _ (.bind (wait_light rfl) fun self => ?_)
    split
    · exact uses_ret _
    · refine .bind (.bind (wait_light rfl) fun self => ?_) fun client =>
        .bind (wait_light rfl) fun _ => .bind (.tryExcept (wait_light rfl) fun exc => ?_)
          fun _ => wait_light rfl
      · split
        · exact uses_ret _
        · exact wait_light rfl
      · split
        · exact .bind (wait_light rfl) fun _ => uses_raise _
        · exact uses_raise _
  · rintro exc _ ⟨⟩
    exact hgrip

theorem startProducer_grips (app : Nat) (hgrip : grip.Free) :
    (startProducer app).Follows grips (fun _ _ => True) grip :=
  ((Stays.bind (.tryExcept (ensureStarted_free app) fun _ => light_stays reraise_light)
    fun _ => .ret _) grip hgrip).mono fun _ _ _ => trivial

theorem stopProducer_grips (app : Nat) :
    (stopProducer app).Follows grips (fun _ _ => True) grip :=
  (light_stays (.bind (.tryExcept (stop_light app) fun _ => reraise_light) fun _ =>
    uses_ret _) : Stays grips (fun _ => True) (stopProducer app)) grip trivial

/-! ## The worker -/

theorem Grip.Quits.unlocked {outcome : Except PyExc α} (h : Grip.Quits outcome grip) :
    grip.Unlocked := by
  cases outcome with
  | ok value => exact Grip.Free.unlocked h
  | error exc => exact h

theorem quits_bind {program : Py α} {next : α → Py β}
    (h : program.Follows grips Grip.Quits grip)
    (hnext : ∀ value grip', grip'.Free → (next value).Follows grips Grip.Quits grip') :
    (program.bind next).Follows grips Grip.Quits grip := by
  refine Follows.bind (fun _ => Grip.Free) (h.mono ?_) hnext
  rintro (exc | value) grip' hgrip' <;> exact hgrip'

theorem quits_light {program : Py α} (h : program.Uses (Op.isLight ·))
    (hgrip : grip.Free) : program.Follows grips Grip.Quits grip := by
  refine (light_stays h grip hgrip).mono ?_
  rintro (exc | value) grip' hgrip'
  · exact hgrip'.unlocked
  · exact hgrip'

theorem commit_quits (hgrip : grip.Unlocked) :
    (wait .commit).Follows grips Grip.Quits grip := by
  refine .call hgrip fun answer grip' hnext => ?_
  cases answer with
  | ok value =>
      cases hnext
      rfl
  | error exc =>
      cases hnext
      exact hgrip

theorem update_lasts {id : UUID} {status : Option PhotoStatus} {values : PhotoValues}
    (hgrip : grip.hold = .nothing ∨ grip.hold = .result) :
    (wait (.execute (.updatePhoto id status values))).Follows grips Grip.Lasts grip := by
  refine .call (hgrip.imp_right .inl) fun answer grip' hnext => ?_
  cases answer with
  | ok rowcount =>
      cases hnext
      rcases hgrip with hhold | hhold
      · simp [Grip.Lasts, Grip.make, Hold.after, hhold]
      · simp [Grip.Lasts, Grip.make, Hold.after, hhold]
  | error exc =>
      cases hnext
      intro app heq
      rcases hgrip with hhold | hhold <;> cases hhold.symm.trans heq

theorem updatePhoto_lasts {id : UUID} {values : PhotoValues}
    (hgrip : grip.hold = .nothing ∨ grip.hold = .result) :
    (do let _ ← wait (.execute (.updatePhoto id none values)) : Py Unit).Follows grips
      Grip.Lasts grip := by
  refine Follows.bind (fun _ grip' => grip'.hold = .last)
    ((update_lasts hgrip).mono ?_) fun _ grip' (hgrip' : grip'.hold = .last) => hgrip'
  rintro (exc | value) grip' hgrip' <;> exact hgrip'

/-- The transaction of an update is over. -/
theorem lasts_commit {program : Py α} {next : α → Py β}
    (h : program.Follows grips Grip.Lasts grip)
    (hnext : ∀ value grip', grip'.Free → (next value).Follows grips Grip.Quits grip') :
    (program.bind fun value => (wait .commit).bind fun _ => next value).Follows grips
      Grip.Quits grip := by
  refine Follows.bind (fun _ grip' => grip'.hold = .last) (h.mono ?_)
    fun value grip' hgrip' => ?_
  · rintro (exc | value) grip' hgrip' <;> exact hgrip'
  · refine quits_bind (commit_quits fun app heq => ?_) fun _ => hnext value
    cases hgrip'.symm.trans heq

/-- The result is written first, then the photo. -/
theorem terminalWrite_quits (photoUuid : UUID) (progress : AnalysisProcessor.Progress)
    (hgrip : grip.Free) :
    (AnalysisProcessor.terminalWrite photoUuid progress).Follows grips Grip.Quits grip := by
  have hcounts : ∀ (first last : Metric) grip', grip'.Free →
      (do wait (.count first 1); wait (.count last 1) : Py Unit).Follows grips Grip.Quits
        grip' := fun _ _ grip' =>
    quits_light (.bind (wait_light rfl) fun _ => wait_light rfl)
  unfold AnalysisProcessor.terminalWrite
  split
  · refine Follows.bind (fun _ grip' => grip'.hold = .result) ?_ fun _ grip' hgrip' =>
      lasts_commit (updatePhoto_lasts (.inr hgrip')) fun _ => hcounts _ _
    refine grip_bind hgrip ?_ ?_
    · rintro rowcount _ ⟨⟩
      rfl
    · rintro exc _ ⟨⟩
      exact hgrip.unlocked
  · exact lasts_commit (updatePhoto_lasts (.inl hgrip)) fun _ => hcounts _ _

theorem retryLoop_quits (photoId objectKey : Str) (photoUuid : UUID)
    (remaining attempt : Nat) (progress : AnalysisProcessor.Progress)
    (hgrip : grip.Free) :
    (AnalysisProcessor.retryLoop settings photoId objectKey photoUuid remaining attempt
      progress).Follows grips Grip.Quits grip := by
  induction remaining generalizing attempt progress grip with
  | zero => exact hgrip
  | succ remaining ih =>
      have hask : (AnalyzerGrpcClient.analyze photoId objectKey).Uses (Op.isLight ·) :=
        wait_light rfl
      refine light_bind hask.attempt (fun outcome => ?_) fun _ => hgrip.unlocked
      cases outcome with
      | ok response => exact hgrip
      | error exc =>
          dsimp only
          split
          · exact hgrip.unlocked
          · refine light_bind (wait_light rfl) (fun _ => ?_) fun _ => hgrip.unlocked
            refine lasts_commit (updatePhoto_lasts (.inl hgrip)) fun _ grip' hgrip' => ?_
            split
            · exact hgrip'
            · refine light_bind (uses_ofExcept _) (fun delay => ?_) fun _ => hgrip'.unlocked
              exact light_bind (wait_light rfl) (fun _ => ih _ _ hgrip') fun _ =>
                hgrip'.unlocked

theorem process_quits (photoId objectKey : Str) (hgrip : grip.Free) :
    (AnalysisProcessor.process settings photoId objectKey).Follows grips Grip.Quits
      grip := by
  unfold AnalysisProcessor.process
  split
  · exact hgrip.unlocked
  · refine lasts_commit (update_lasts (.inl hgrip)) fun rowcount grip' hgrip' => ?_
    split
    · exact quits_light (wait_light rfl) hgrip'
    · refine quits_bind (quits_light (wait_light rfl) hgrip') fun _ _ h₁ =>
        quits_bind (quits_light (wait_light rfl) h₁) fun t₀ _ h₂ =>
          quits_bind (retryLoop_quits _ _ _ _ _ _ h₂) fun progress _ h₃ => ?_
      refine quits_bind (quits_light (wait_light rfl) h₃) fun _ _ h₄ =>
        quits_bind (quits_light (wait_light rfl) h₄) fun _ _ h₅ =>
          terminalWrite_quits _ _ h₅

theorem handleMessage_free (interpreter : Interpreter) (message : ConsumerRecord) :
    Stays grips Grip.Free
      (Consumer.handleMessage interpreter (AnalysisProcessor.process settings)
        message) := by
  unfold Consumer.handleMessage
  split
  · exact light_stays (log_uses _ _ _)
  · exact light_stays (log_uses _ _ _)
  · exact .raise _
  · split
    · exact light_stays (log_uses _ _ _)
    · refine .bind (light_stays (wait_light rfl)) fun token => .tryFinally
        (.tryExcept ?_ fun exc => light_stays (log_or_raise_uses _ _ _ _))
        (light_stays (.bind (wait_light rfl) fun _ => uses_ret _))
      exact fun grip hgrip => withSession_free
        ((process_quits _ _ hgrip).mono fun _ _ => Grip.Quits.unlocked)
  · exact light_stays (log_or_raise_uses _ _ _ _)

theorem consumerTurn_free (interpreter : Interpreter) :
    Stays grips Grip.Free
      (Consumer.turn interpreter (AnalysisProcessor.process settings)) := by
  refine .bind (light_stays (wait_light rfl)) fun stop => ?_
  split
  · exact .ret _
  refine .bind (light_stays (wait_light rfl) : Stays grips _ (wait .getone)).attempt
    fun outcome => ?_
  cases outcome with
  | error exc => exact light_stays reraise_light
  | ok message =>
      exact .bind (handleMessage_free interpreter message) fun _ =>
        .bind (light_stays (wait_light rfl)) fun _ => .ret _

/-! ## The publisher -/

theorem Grip.Marks.unlocked {photos : List Photo} {n : Nat} (h : grip.Marks photos n) :
    grip.Unlocked := by
  obtain ⟨m, -, hhold⟩ := h
  intro app heq
  cases hhold.symm.trans heq

theorem marks_light {photos : List Photo} {n : Nat} {program : Py α}
    (h : program.Uses (Op.isLight ·)) : Stays grips (Grip.Marks photos n) program :=
  light_stays h

theorem rowTraceId_marks {photos : List Photo} {n : Nat} (row : Photo) :
    Stays grips (Grip.Marks photos n) (Outbox.rowTraceId row) := by
  unfold Outbox.rowTraceId
  split
  · exact .ret _
  · refine .bind ?_ fun _ => .ret _
    refine fun grip hgrip => .call trivial fun answer grip' hnext => ?_
    cases answer with
    | ok id | error exc =>
        cases hnext
        exact hgrip

theorem publish_light (app : Nat) (photoId objectKey : Str) (createdAt : Time)
    (traceId : Str) :
    (KafkaEventProducer.publishAnalysisRequested app photoId objectKey createdAt
      traceId).Uses (Op.isLight ·) := by
  have hencode : ∀ text, (KafkaEventProducer.encodeUtf8 text).Uses (Op.isLight ·) := by
    intro text
    unfold KafkaEventProducer.encodeUtf8
    split
    · exact uses_ret _
    · exact uses_raise _
  refine .bind (wait_light rfl) fun self => ?_
  generalize Json.dumps _ = message
  split
  · exact .bind (hencode message) fun _ => .bind (hencode photoId) fun _ => wait_light rfl
  · exact uses_raise _

/-- The next photo lies behind all those marked, and is the last one to be marked then. -/
theorem markedUpTo_le {before : List Photo} (row : Photo) (after : List Photo) {n : Nat}
    (h : n ≤ before.length) :
    row ∈ (before ++ row :: after).drop n ∧
      markedUpTo (before ++ row :: after) n row.photoId ≤ before.length + 1 := by
  rw [markedUpTo, List.drop_append_of_le_length h]
  refine ⟨List.mem_append_right _ List.mem_cons_self, ?_⟩
  have hfind : (before.drop n ++ row :: after).findIdx
      (fun photo => photo.photoId = row.photoId) ≤ (before.drop n).length := by
    rw [List.findIdx_append]
    split
    · exact (‹_› : _ < _).le
    · simp [List.findIdx_cons]
  rw [List.length_drop] at hfind
  omega

theorem publishRow_marks (app : Nat) (before after : List Photo) (row : Photo)
    (hgrip : grip.Marks (before ++ row :: after) before.length) :
    (Outbox.publishRow app row).Follows grips
      (fun _ grip' => grip'.Marks (before ++ row :: after) (before.length + 1)) grip := by
  have hmore : ∀ {grip' : Grip}, grip'.Marks (before ++ row :: after) before.length →
      grip'.Marks (before ++ row :: after) (before.length + 1) := by
    rintro grip' ⟨m, hm, hhold⟩
    exact ⟨m, hm.trans (Nat.le_succ _), hhold⟩
  refine light_bind traceIdVar_light (fun traceId => ?_) fun _ => hmore hgrip
  refine light_bind (publish_light app _ _ _ traceId) (fun _ => ?_) fun _ => hmore hgrip
  refine light_bind (wait_light rfl) (fun publishedAt => ?_) fun _ => hmore hgrip
  obtain ⟨m, hm, hhold⟩ := hgrip
  obtain ⟨hmem, hle⟩ := markedUpTo_le row after hm
  refine grip_bind (.inr (.inr ⟨_, m, hhold, rfl, ⟨_, rfl⟩, row, hmem, rfl⟩)) ?_ ?_
  · rintro rowcount _ ⟨⟩
    exact ⟨_, hle, by simp [Grip.make, Hold.after, hhold]⟩
  · rintro exc _ ⟨⟩
    exact hmore ⟨m, hm, hhold⟩

theorem publishRows_marks (app : Nat) (before after : List Photo)
    (hgrip : grip.Marks (before ++ after) before.length) :
    (Outbox.publishRows app after).Follows grips (fun _ grip' => grip'.Unlocked) grip := by
  induction after generalizing before grip with
  | nil => exact hgrip.unlocked
  | cons row after ih =>
      refine Follows.bind (fun _ => Grip.Marks (before ++ row :: after) before.length)
        ((rowTraceId_marks row grip hgrip).mono ?_) fun text grip₁ hgrip₁ => ?_
      · rintro (exc | text) grip' hgrip'
        · exact hgrip'.unlocked
        · exact hgrip'
      refine light_bind (wait_light rfl) (fun token => ?_) fun _ => hgrip₁.unlocked
      refine Follows.bind
        (fun _ => Grip.Marks (before ++ row :: after) (before.length + 1))
        ?_ fun _ grip₂ hgrip₂ => ?_
      · refine Follows.tryFinally
          (fun _ => Grip.Marks (before ++ row :: after) (before.length + 1))
          (.tryExcept (fun _ => Grip.Marks (before ++ row :: after) (before.length + 1))
            ((publishRow_marks app before after row hgrip₁).mono ?_)
            fun exc grip' hgrip' => ?_) fun outcome grip' hgrip' => ?_
        · rintro (exc | value) grip' hgrip' <;> exact hgrip'
        · refine marks_light ?_ grip' hgrip'
          split
          · exact wait_light rfl
          · exact uses_raise _
        · refine (marks_light (.bind (wait_light rfl) fun _ => uses_ret _) grip'
            hgrip').mono ?_
          rintro (exc | value) grip'' hgrip''
          · exact hgrip''.unlocked
          · cases outcome with
            | ok value => exact hgrip''
            | error exc => exact hgrip''.unlocked
      · refine ih (before ++ [row]) ?_
        rw [List.append_assoc, List.length_append]
        exact hgrip₂

theorem outboxTurn_free (app : Nat) : Stays grips Grip.Free (Outbox.turn settings app) := by
  have hpublish : Stays grips Grip.Free (Outbox.publishBatch settings app) := by
    intro grip hgrip
    refine withSession_free ?_
    refine grip_bind hgrip ?_ ?_
    · rintro rows _ ⟨⟩
      refine Follows.bind (fun _ => Grip.Unlocked)
        ((publishRows_marks app [] rows ⟨0, le_rfl, rfl⟩).mono ?_) fun _ grip' hgrip' =>
          (commit_quits hgrip').mono fun _ _ => Grip.Quits.unlocked
      rintro (exc | value) grip' hgrip' <;> exact hgrip'
    · rintro exc _ ⟨⟩
      exact Grip.Free.unlocked hgrip
  have hpoll : Stays grips Grip.Free (Outbox.poll settings app) := by
    refine .bind (ensureStarted_free app).attempt fun outcome => ?_
    cases outcome with
    | error exc => exact light_stays reraise_light
    | ok value => exact .tryExcept hpublish fun exc => light_stays reraise_light
  refine .bind (light_stays (wait_light rfl)) fun stop => ?_
  split
  · exact .ret _
  exact .bind hpoll fun _ => .bind (.tryExcept (light_stays (wait_light rfl)) fun exc =>
    light_stays reraise_light) fun _ => .ret _

end

/-! ## All routines -/

/-- Before its next turn a task has locked nothing. -/
def Grip.Turns : Except PyExc (Option Reply) → Grip → Prop
  | .ok none, grip => grip.Free
  | _, _ => True

theorem once_grips {body : Py Reply} {grip : Grip}
    (h : body.Follows grips (fun _ _ => True) grip) :
    (once body).first.Follows grips Grip.Turns grip ∧
      (once body).loop.Follows grips Grip.Turns grip := by
  have hturn : (do pure (some (← body)) : Py (Option Reply)).Follows grips Grip.Turns grip := by
    refine Follows.bind (fun _ _ => True) (h.mono ?_) fun _ _ _ => trivial
    rintro (exc | value) grip' - <;> trivial
  exact ⟨hturn, hturn⟩

theorem stays_turns {program : Py (Option Reply)} {grip : Grip}
    (h : Stays grips Grip.Free program) (hgrip : grip.Free) :
    program.Follows grips Grip.Turns grip := by
  refine (h grip hgrip).mono ?_
  rintro (exc | (_ | reply)) grip' hgrip'
  · trivial
  · exact hgrip'
  · trivial

theorem routine_grips (settings : Settings) (entry : Entry) {grip : Grip}
    (hgrip : grip.Free) :
    (routine settings entry).first.Follows grips Grip.Turns grip ∧
      (routine settings entry).loop.Follows grips Grip.Turns grip := by
  have hlight : ∀ {body : Py Reply}, body.Uses (Op.isLight ·) →
      (once body).first.Follows grips Grip.Turns grip ∧
        (once body).loop.Follows grips Grip.Turns grip :=
    fun h => once_grips ((light_stays h : Stays grips (fun _ => True) _) grip trivial)
  cases entry with
  | createPhoto _ file => exact once_grips (createPhoto_grips file hgrip)
  | createBatch _ files => exact once_grips (createBatch_grips files hgrip)
  | getPhoto _ photoId => exact hlight (getPhoto_light photoId)
  | listPhotos _ limit offset => exact hlight (listPhotos_light limit offset)
  | getPhotoContent _ photoId => exact hlight (getPhotoContent_light photoId)
  | getBatch _ batchId => exact once_grips (getBatch_grips batchId hgrip)
  | startProducer app => exact once_grips (startProducer_grips app hgrip)
  | stopProducer app => exact once_grips (stopProducer_grips app)
  | outboxPublisher app =>
      exact ⟨stays_turns (outboxTurn_free app) hgrip, stays_turns (outboxTurn_free app) hgrip⟩
  | worker =>
      exact ⟨stays_turns (light_stays (.bind (wait_light rfl) fun _ => uses_ret _)) hgrip,
        stays_turns (consumerTurn_free settings.interpreter) hgrip⟩

end PhotoAnalysis

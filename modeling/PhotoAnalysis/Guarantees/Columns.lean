import Mathlib.Algebra.Order.BigOperators.Group.List
import PhotoAnalysis.Api.Middleware
import PhotoAnalysis.Guarantees.Photos

/-!
# What the columns of a photo can hold

The id of a request and the names of its files go into the row of a photo as the
client sends them.  Where everything else works, an upload is accepted exactly when
they fit their columns, where what is too long may be spaces; the object key always
does.
-/

namespace PhotoAnalysis

open Foundation Program

namespace PhotoService

/-! ## Object keys -/

theorem spread_objectKey (photoId : UUID) {ext : Str} (h : 46 ∉ ext ∧ 47 ∉ ext) :
    Text.Spread 46 (objectKey photoId ext) ∧ Text.Spread 47 (objectKey photoId ext) := by
  have hmem : ∀ c ∈ photoId.text, c ≠ 46 ∧ c ≠ 47 := by
    intro c hc
    have := UUID.mem_text hc
    omega
  have hlast : ∀ c, c = 46 ∨ c = 47 → (py "photos/" ++ photoId.text).getLast? ≠ some c := by
    intro c hc heq
    have hne : photoId.text ≠ [] := by
      rw [← List.length_pos_iff, UUID.length_text]
      decide
    rw [List.getLast?_append_of_ne_nil _ hne] at heq
    have := hmem c (List.mem_of_getLast? heq)
    omega
  have hspread : ∀ c, c = 46 ∨ c = 47 → Text.Spread c (objectKey photoId ext) := by
    intro c hc
    have hid : c ∉ photoId.text := fun hin => by
      have := hmem c hin
      omega
    have hext : c ∉ ext := by rcases hc with rfl | rfl <;> simp [h]
    have hphotos : Text.Spread c (py "photos/") := by
      rcases hc with rfl | rfl <;> (unfold Text.Spread; decide)
    have horiginal : Text.Spread c (py "/original.") := by
      rcases hc with rfl | rfl <;> (unfold Text.Spread; decide)
    refine .append (.append (.append hphotos (Text.spread_of_not_mem hid) (.inr ?_))
      horiginal (.inl (hlast c hc))) (Text.spread_of_not_mem hext) (.inr ?_)
    · exact fun heq => hid (List.mem_of_head? heq)
    · exact fun heq => hext (List.mem_of_head? heq)
  exact ⟨hspread 46 (.inl rfl), hspread 47 (.inr rfl)⟩

/-- No object key is turned away by the storage. -/
theorem validateObjectName_objectKey (photoId : UUID) {ext : Str}
    (h : 46 ∉ ext ∧ 47 ∉ ext) :
    ObjectStorage.validateObjectName (objectKey photoId ext) = .ret () := by
  obtain ⟨hdots, hslashes⟩ := spread_objectKey photoId h
  have hdots := Text.not_contains_pair hdots
  have hslashes := Text.not_contains_pair hslashes
  rw [ObjectStorage.validateObjectName, show py ".." = [46, 46] from rfl,
    show py "//" = [47, 47] from rfl, hdots, hslashes]
  rfl


/-! ## Everything works -/

/-- The tables as the session sees them, and how many identifiers have been drawn. -/
structure Session where
  tables : Tables
  drawn : Nat

/-- A statement does what it does to the tables, and nothing else can fail. -/
def healthy (requestId : Str) (now : Time) (fresh : Nat → UUID) :
    Handler Op Op.Ans PyExc Session
  | .uuid4, s => (.ok (fresh s.drawn), { s with drawn := s.drawn + 1 })
  | .getTraceId, s => (.ok (.str requestId), s)
  | .execute stmt, s =>
      match stmt.resolve now s.tables with
      | .ok (some write) => (.ok 1, { s with tables := write.apply s.tables })
      | .ok none => (.ok 0, s)
      | .error exc => (.error exc, s)
  | .putObject _ _ _, s => (.ok (), s)
  | .removeObject _, s => (.ok (), s)
  | .commit, s => (.ok (), s)
  | .rollback, s => (.ok (), s)
  | .count _ _, s => (.ok (), s)
  | _, s => (.error (.other (py "no part of an upload")), s)

/-- The identifiers of the largest batch and of its photos differ. -/
def Distinct (fresh : Nat → UUID) : Prop :=
  ∀ m n, m ≤ maxBatchSize → n ≤ maxBatchSize → fresh m = fresh n → m = n

/-- Those from the `n`-th on are nowhere in the tables. -/
structure Unused (fresh : Nat → UUID) (n : Nat) (T : Tables) : Prop where
  photo : ∀ m, n ≤ m → m ≤ maxBatchSize → T.photo (fresh m) = none
  batch : ∀ m, n ≤ m → m ≤ maxBatchSize → T.batch (fresh m) = none
  key : ∀ m, n ≤ m → m ≤ maxBatchSize → ∀ row ∈ T.photos.rows, ∀ ext,
    row.objectKey ≠ objectKey (fresh m) ext

/-- A name that is given fits its column. -/
def FilenameFits (filename : Option Str) : Prop :=
  ∀ name, filename = some name → Column.fits 512 name = true

section

variable {requestId traceId : Str} {now : Time} {fresh : Nat → UUID} {n : Nat}
variable {T : Tables} {batchId : Option UUID} {settings : Settings}

/-- The extensions `_validate` chooses. -/
def Extension (ext : Str) : Prop := ext = py "jpg" ∨ ext = py "png"

theorem Extension.safe {ext : Str} (h : Extension ext) : 46 ∉ ext ∧ 47 ∉ ext := by
  rcases h with rfl | rfl <;> decide

theorem holds_of_forall {limit : Nat} {s : Str} (h : ∀ c ∈ s, c < 128 ∧ c ≠ 0)
    (hlength : s.length ≤ limit) : Column.holds limit s = true := by
  simp only [Column.holds, Column.storable, Bool.and_eq_true, List.all_eq_true,
    decide_eq_true_eq, bne_iff_ne]
  refine ⟨fun c hc => ⟨?_, (h c hc).2⟩, hlength⟩
  have hc := (h c hc).1
  simp only [Text.isScalar, Bool.and_eq_true, Bool.not_eq_true', decide_eq_true_eq,
    Bool.and_eq_false_iff, decide_eq_false_iff_not]
  omega

theorem text_plain (id : UUID) : ∀ c ∈ id.text, c < 128 ∧ c ≠ 0 := by
  intro c hc
  have := UUID.mem_text hc
  omega

theorem Extension.plain {ext : Str} (h : Extension ext) :
    (∀ c ∈ ext, c < 128 ∧ c ≠ 0) ∧ ext.length = 3 := by
  rcases h with rfl | rfl <;> decide

theorem objectKey_holds (id : UUID) {ext : Str} (h : Extension ext) :
    Column.holds 1024 (objectKey id ext) = true := by
  have hphotos : ∀ c ∈ py "photos/", c < 128 ∧ c ≠ 0 := by decide
  have horiginal : ∀ c ∈ py "/original.", c < 128 ∧ c ≠ 0 := by decide
  refine holds_of_forall (fun c hc => ?_) ?_
  · simp only [objectKey, List.mem_append] at hc
    rcases hc with ((hc | hc) | hc) | hc
    · exact hphotos c hc
    · exact text_plain id c hc
    · exact horiginal c hc
    · exact h.plain.1 c hc
  · have hlengths : (py "photos/").length = 7 ∧ (py "/original.").length = 10 := by decide
    simp only [objectKey, List.length_append, UUID.length_text, h.plain.2, hlengths]
    decide

theorem filenameOr_fits (filename : Option Str) (id : UUID) {ext : Str}
    (h : Extension ext) :
    Column.fits 512 (filenameOr filename id ext) = true ↔ FilenameFits filename := by
  have hdefault : Column.fits 512 (id.text ++ 46 :: ext) = true := by
    refine Column.fits_of_holds (holds_of_forall (fun c hc => ?_) ?_)
    · simp only [List.mem_append, List.mem_cons] at hc
      rcases hc with hc | rfl | hc
      · exact text_plain id c hc
      · decide
      · exact h.plain.1 c hc
    · simp [h.plain.2]
  rcases filename with _ | (_ | ⟨c, rest⟩)
  · exact iff_of_true hdefault fun name hname => nomatch hname
  · refine iff_of_true hdefault ?_
    rintro name ⟨⟩
    rfl
  · refine ⟨?_, fun hfits => hfits _ rfl⟩
    rintro hfits name ⟨⟩
    exact hfits

theorem newPhoto_fits (id : UUID) (filename : Option Str) {ext : Str}
    (h : Extension ext) : (newPhoto id filename ext traceId batchId).fits = true ↔
      FilenameFits filename ∧ Column.fits 64 traceId = true := by
  rw [NewPhoto.fits, Bool.and_eq_true, Bool.and_eq_true]
  simp only [newPhoto, filenameOr_fits filename id h,
    Column.fits_of_holds (objectKey_holds id h), and_true]

/-! ## One photo -/

theorem Unused.addBatch (h : Unused fresh n T) (hfresh : Distinct fresh)
    (hn : n ≤ maxBatchSize) {batch : Batch} (hid : batch.batchId = fresh n) :
    Unused fresh (n + 1) (Write.apply T (.addBatch batch)) where
  photo := fun m hm hmax => h.photo m (by omega) hmax
  batch := by
    intro m hm hmax
    have hne : batch.batchId ≠ fresh m := by
      rw [hid]
      intro heq
      have := hfresh n m hn hmax heq
      omega
    exact (T.batches.find_add_of_ne hne).trans (h.batch m (by omega) hmax)
  key := fun m hm hmax => h.key m (by omega) hmax

theorem Unused.addPhoto (h : Unused fresh n T) (hfresh : Distinct fresh)
    (hn : n ≤ maxBatchSize) {row : Photo} {ext : Str} (hid : row.photoId = fresh n)
    (hkey : row.objectKey = objectKey (fresh n) ext) :
    Unused fresh (n + 1) (Write.apply T (.addPhoto row)) := by
  have hne : ∀ m, n + 1 ≤ m → m ≤ maxBatchSize → fresh n ≠ fresh m := by
    intro m hm hmax heq
    have := hfresh n m hn hmax heq
    omega
  refine ⟨fun m hm hmax => ?_, fun m hm => h.batch m (by omega), fun m hm hmax => ?_⟩
  · have hrow : row.photoId ≠ fresh m := hid ▸ hne m hm hmax
    exact (T.photos.find_add_of_ne hrow).trans (h.photo m (by omega) hmax)
  · have hnone : T.photos.find row.photoId = none := hid ▸ h.photo n le_rfl hn
    rw [show (Write.apply T (.addPhoto row)).photos.rows = T.photos.rows ++ [row] from
      Table.rows_add hnone]
    intro row' hmem ext'
    rcases List.mem_append.mp hmem with hmem | hmem
    · exact h.key m (by omega) hmax row' hmem ext'
    · rw [List.mem_singleton.mp hmem, hkey]
      exact fun heq => hne m hm hmax (photoId_of_objectKey heq)

/-- The session before the next photo, whose batch is there. -/
structure Ready (fresh : Nat → UUID) (batchId : Option UUID) (drawn n : Nat)
    (s : Session) : Prop where
  drawn : s.drawn = drawn
  unused : Unused fresh n s.tables
  batch : ∀ id, batchId = some id → (s.tables.batch id).isSome = true

theorem insertPhoto_resolves (h : Unused fresh n T) (hn : n ≤ maxBatchSize)
    (hbatch : ∀ id, batchId = some id → (T.batch id).isSome = true)
    (filename : Option Str) (ext : Str) :
    (Stmt.insertPhoto (newPhoto (fresh n) filename ext traceId batchId)).resolve now T =
      if (newPhoto (fresh n) filename ext traceId batchId).fits then
        .ok (some (.addPhoto
          ((newPhoto (fresh n) filename ext traceId batchId).row now)))
      else .error Stmt.tooLong := by
  have hnone : T.photo (fresh n) = none := h.photo n le_rfl hn
  have hkey : T.photos.rows.any
      (fun row => row.objectKey = Column.cut 1024 (objectKey (fresh n) ext)) = false := by
    obtain ⟨ext', hcut⟩ := exists_cut_objectKey (fresh n) ext
    rw [List.any_eq_false, hcut]
    exact fun row hrow => by simpa using h.key n le_rfl hn row hrow ext'
  have hforeign : (batchId.any fun id => (T.batch id).isNone) = false := by
    cases batchId with
    | none => rfl
    | some id =>
        have := hbatch id rfl
        simpa using this
  have htaken : ((T.photo (fresh n)).isSome || T.photos.rows.any fun row =>
      row.objectKey = Column.cut 1024 (objectKey (fresh n) ext)) = false := by
    rw [hnone, hkey]
    rfl
  simp only [Stmt.resolve]
  cases hfits : (newPhoto (fresh n) filename ext traceId batchId).fits with
  | true =>
      simp only [Bool.not_true, Bool.false_eq_true, if_false, if_true]
      exact (if_neg (Bool.eq_false_iff.mp htaken)).trans
        (if_neg (Bool.eq_false_iff.mp hforeign))
  | false => rfl

/--
A step returns exactly when what it is given fits, and then leaves `post`.  What it
raises otherwise is no storage failure.
-/
structure Decides {α : Type} (fits : Prop) (post : α → Session → Prop)
    (outcome : Except PyExc α) (s : Session) : Prop where
  accepted : (∃ value, outcome = .ok value) ↔ fits
  after : ∀ value, outcome = .ok value → post value s
  refused : ∀ exc, outcome = .error exc → exc.isStorageFailure = false

section

variable {α β : Type} {fits fits' : Prop} {P : Session → Prop} {s : Session}
variable {mid : α → Session → Prop} {post : β → Session → Prop}

theorem Decides.ok {value : α} (hfits : fits) (h : mid value s) :
    Decides fits mid (.ok value) s := by
  refine ⟨iff_of_true ⟨value, rfl⟩ hfits, ?_, fun exc heq => nomatch heq⟩
  rintro _ ⟨⟩
  exact h

theorem Decides.error {exc : PyExc} (hfits : ¬fits)
    (hexc : exc.isStorageFailure = false) : Decides fits mid (.error exc) s := by
  refine ⟨iff_of_false ?_ hfits, ?_, ?_⟩
  · rintro ⟨value, ⟨⟩⟩
  · rintro value ⟨⟩
  · rintro _ ⟨⟩
    exact hexc

/-- Steps one after the other decide one condition after the other. -/
theorem Decides.bind {program : Py α} {next : α → Py β}
    (h : Ends (healthy requestId now fresh) P program (Decides fits mid))
    (hnext : fits → ∀ value, Ends (healthy requestId now fresh) (mid value) (next value)
      (Decides fits' post)) :
    Ends (healthy requestId now fresh) P (program.bind next)
      (Decides (fits ∧ fits') post) := by
  intro s hs
  have hfirst := h s hs
  rw [run_bind]
  cases hrun : program.run (healthy requestId now fresh) s with
  | mk outcome s' =>
      rw [hrun] at hfirst
      cases outcome with
      | ok value =>
          have hfits := hfirst.accepted.mp ⟨value, rfl⟩
          have hrest := hnext hfits value s' (hfirst.after value rfl)
          exact ⟨hrest.accepted.trans (and_iff_right hfits).symm, hrest.after, hrest.refused⟩
      | error exc =>
          refine .error (fun hboth => ?_) (hfirst.refused exc rfl)
          obtain ⟨value, heq⟩ := hfirst.accepted.mpr hboth.1
          cases heq

theorem Decides.step {program : Py α} {next : α → Py β}
    (h : Ends (healthy requestId now fresh) P program (Decides True mid))
    (hnext : ∀ value, Ends (healthy requestId now fresh) (mid value) (next value)
      (Decides fits post)) :
    Ends (healthy requestId now fresh) P (program.bind next) (Decides fits post) := by
  have hboth := Decides.bind h fun _ => hnext
  rwa [true_and] at hboth

theorem Decides.last {program : Py α} {next : α → Py β}
    (h : Ends (healthy requestId now fresh) P program (Decides fits mid))
    (hnext : ∀ value, Ends (healthy requestId now fresh) (mid value) (next value)
      (Decides True post)) :
    Ends (healthy requestId now fresh) P (program.bind next) (Decides fits post) := by
  have hboth := Decides.bind h fun _ => hnext
  rwa [and_true] at hboth

theorem Decides.tryExcept {body : Py α} {catcher : PyExc → Py α}
    (h : Ends (healthy requestId now fresh) P body (Decides True mid)) :
    Ends (healthy requestId now fresh) P (body.tryExcept catcher) (Decides True mid) := by
  intro s hs
  obtain ⟨value, hok⟩ := (h s hs).accepted.mpr trivial
  have hafter := (h s hs).after value hok
  rw [run_tryExcept]
  cases hrun : body.run (healthy requestId now fresh) s with
  | mk outcome s' =>
      rw [hrun] at hok hafter
      obtain rfl : outcome = .ok value := hok
      exact .ok trivial hafter

end

/-- What the client has sent with a file fits. -/
def Fits (requestId : Str) (file : Option Str) : Prop :=
  FilenameFits file ∧ Column.fits 64 requestId = true

theorem create_decides (hfresh : Distinct fresh) (hn : n ≤ maxBatchSize)
    (filename : Option Str) {ext : Str} (hext : Extension ext) (drawn : Nat) :
    Ends (healthy requestId now fresh) (Ready fresh batchId drawn n)
      (PhotoRepository.create (newPhoto (fresh n) filename ext traceId batchId))
      (Decides (Fits traceId filename) fun _ => Ready fresh batchId drawn (n + 1)) := by
  rintro s ⟨hdrawn, hunused, hbatch⟩
  have hfits : (newPhoto (fresh n) filename ext traceId batchId).fits = true ↔ _ :=
    newPhoto_fits (fresh n) filename hext
  simp only [PhotoRepository.create, bind_eq, run_bind, run_tryExcept, run_call, healthy,
    insertPhoto_resolves hunused hn hbatch filename ext]
  obtain ⟨ext', hcut⟩ := exists_cut_objectKey (fresh n) ext
  cases h : (newPhoto (fresh n) filename ext traceId batchId).fits with
  | true =>
      refine .ok (hfits.mp h) ⟨hdrawn, hunused.addPhoto hfresh hn rfl hcut, fun id hid => ?_⟩
      exact hbatch id hid
  | false =>
      refine .error (fun hboth => ?_) rfl
      rw [hfits.mpr hboth] at h
      cases h

/-! ## Both uploads -/

theorem saveFile_decides {P : Session → Prop} (bucket : Str) (id : UUID) {ext : Str}
    (hext : Extension ext) (data : Bytes) (length : Nat) (contentType : Str) :
    Ends (healthy requestId now fresh) P
      (ObjectStorage.saveFile bucket (objectKey id ext) data length contentType)
      (Decides True fun _ => P) := by
  intro s hs
  rw [ObjectStorage.saveFile, validateObjectName_objectKey id hext.safe]
  exact .ok trivial hs

theorem extension_of_validate {data : Bytes} {ext contentType : Str}
    (h : validate data = .ok (ext, contentType)) : Extension ext := by
  unfold validate at h
  split at h
  · cases h
  split at h
  · cases h
  split at h
  · cases h
    exact .inl rfl
  split at h
  · cases h
    exact .inr rfl
  · cases h

theorem traceIdVar_decides {P : Session → Prop} :
    Ends (healthy requestId now fresh) P traceIdVar
      (Decides True fun traceId s => traceId = requestId ∧ P s) :=
  fun _ hs => .ok trivial ⟨rfl, hs⟩

theorem uuid4_decides {batchId : Option UUID} :
    Ends (healthy requestId now fresh) (Ready fresh batchId n n) (wait .uuid4)
      (Decides True fun id s => id = fresh n ∧ Ready fresh batchId (n + 1) n s) := by
  rintro s ⟨hdrawn, hunused, hbatch⟩
  exact .ok trivial ⟨congrArg fresh hdrawn, congrArg (· + 1) hdrawn, hunused, hbatch⟩

theorem finish_decides {P : Session → Prop} {metric : Metric} {amount : Int}
    {reply : Reply} : Ends (healthy requestId now fresh) P
      (do wait .commit
          wait (.count metric amount)
          pure reply) (Decides True fun _ _ => True) :=
  fun _ _ => .ok trivial trivial

theorem createPhoto_decides (hfresh : Distinct fresh) {file : UploadFile}
    {ext contentType : Str} (hvalid : validate file.data = .ok (ext, contentType)) :
    Ends (healthy requestId now fresh) (Ready fresh none 0 0)
      (createPhoto settings file)
      (Decides (Fits requestId file.filename) fun _ _ => True) := by
  have hext := extension_of_validate hvalid
  unfold createPhoto
  simp only [hvalid, Program.ofExcept, bind_eq, ret_bind]
  refine Decides.step uuid4_decides fun photoId => .given fun hid => ?_
  refine Decides.step traceIdVar_decides fun traceId => .given fun htrace => ?_
  subst hid htrace
  refine Decides.last (create_decides hfresh (Nat.zero_le _) file.filename hext 1) fun _ => ?_
  exact Decides.step (Decides.tryExcept (saveFile_decides _ _ hext _ _ _))
    fun _ => finish_decides

theorem storeFile_decides (hfresh : Distinct fresh) (hn : n ≤ maxBatchSize) {id : UUID}
    {file : ValidatedFile} (hext : Extension file.ext) :
    Ends (healthy requestId now fresh) (Ready fresh (some id) n n)
      (storeFile settings id traceId file)
      (Decides (Fits traceId file.filename)
        fun _ => Ready fresh (some id) (n + 1) (n + 1)) := by
  unfold storeFile
  simp only [bind_eq]
  refine Decides.step uuid4_decides fun photoId => .given fun hid => ?_
  subst hid
  refine Decides.last (create_decides hfresh hn file.filename hext (n + 1)) fun _ => ?_
  exact Decides.step (saveFile_decides _ _ hext _ _ _) fun _ s hs => .ok trivial hs

theorem storeFiles_decides (hfresh : Distinct fresh) {id : UUID}
    (files : List ValidatedFile) (hn : n + files.length ≤ maxBatchSize + 1)
    (hext : ∀ file ∈ files, Extension file.ext) (photos : List UUID)
    (saved : List Str) :
    Ends (healthy requestId now fresh) (Ready fresh (some id) n n)
      (storeFiles settings id traceId files photos saved)
      (Decides (∀ file ∈ files, Fits traceId file.filename) fun _ _ => True) := by
  induction files generalizing n photos saved with
  | nil => exact .ret fun s hs => .ok (fun _ h => nomatch h) trivial
  | cons file files ih =>
      intro s hs
      rw [List.length_cons] at hn
      have hstore : Ends (healthy requestId now fresh) (Ready fresh (some id) n n)
          (storeFile settings id traceId file) _ :=
        storeFile_decides hfresh (by omega) (hext file List.mem_cons_self)
      have hstore := hstore s hs
      unfold storeFiles
      rw [List.forall_mem_cons, bind_eq, run_bind, run_attempt]
      cases hrun : (storeFile settings id traceId file).run
          (healthy requestId now fresh) s with
      | mk outcome s' =>
          rw [hrun] at hstore
          cases outcome with
          | ok stored =>
              have hfits := hstore.accepted.mp ⟨stored, rfl⟩
              have hrest := ih (by omega) (fun file hmem => hext file (List.mem_cons_of_mem _ hmem))
                (photos ++ [stored.1]) (saved ++ [stored.2]) s' (hstore.after stored rfl)
              rwa [and_iff_right hfits]
          | error exc =>
              have hrefused := hstore.refused exc rfl
              simp only [hrefused, Bool.false_eq_true, if_false]
              refine .error (fun hboth => ?_) hrefused
              obtain ⟨stored, heq⟩ := hstore.accepted.mpr hboth.1
              cases heq

theorem createBatchRow_decides (hfresh : Distinct fresh) (status : BatchStatus) :
    Ends (healthy requestId now fresh) (Ready fresh none 1 0)
      (BatchRepository.create (fresh 0) status)
      (Decides True fun _ => Ready fresh (some (fresh 0)) 1 1) := by
  rintro s ⟨hdrawn, hunused, -⟩
  have hnone : s.tables.batch (fresh 0) = none := hunused.batch 0 le_rfl (Nat.zero_le _)
  simp only [BatchRepository.create, bind_eq, run_bind, run_call, healthy, Stmt.resolve,
    hnone, Option.isSome_none, Bool.false_eq_true, if_false]
  refine .ok trivial ⟨hdrawn, hunused.addBatch hfresh (Nat.zero_le _) rfl, ?_⟩
  rintro id ⟨⟩
  have hfind : s.tables.batches.find (fresh 0) = none := hnone
  simp [Write.apply, Tables.batch, Table.find_add, hfind]

theorem validate_length {data : Bytes} {ext contentType : Str}
    (h : validate data = .ok (ext, contentType)) : data.length ≤ maxFileSizeBytes := by
  unfold validate at h
  split at h
  · cases h
  split at h
  · cases h
  next hle => exact Nat.le_of_not_lt hle

/-- No sum of valid sizes is over the limit, so the check of the sum never fails. -/
theorem checkBatch_of_valid {files : List UploadFile}
    (hlength : 2 ≤ files.length ∧ files.length ≤ 10)
    (hvalid : ∀ file ∈ files, ∃ ext contentType,
      validate file.data = .ok (ext, contentType)) :
    ∃ validated, checkBatch files = .ok validated ∧
      files.Forall₂ (fun file v => v.Of file) validated := by
  have hall : ∃ validated, validateAll files = .ok validated := by
    clear hlength
    induction files with
    | nil => exact ⟨[], rfl⟩
    | cons file files ih =>
        obtain ⟨rest, hrest⟩ := ih fun file hmem => hvalid file (List.mem_cons_of_mem _ hmem)
        obtain ⟨ext, contentType, hfile⟩ := hvalid file List.mem_cons_self
        exact ⟨_, by rw [validateAll, hfile, hrest]; rfl⟩
  obtain ⟨validated, hall⟩ := hall
  have hof := validateAll_ok hall
  have hsize : ∀ size ∈ validated.map fun file => file.data.length,
      size ≤ maxFileSizeBytes := by
    simp only [List.mem_map, forall_exists_index, and_imp, forall_apply_eq_imp_iff₂]
    intro v hv
    obtain ⟨file, -, hof⟩ := forall₂_right hof hv
    rw [hof.data]
    exact validate_length hof.valid
  have htotal : (validated.map fun file => file.data.length).sum ≤ batchMaxTotalBytes := by
    refine (List.sum_le_card_nsmul _ _ hsize).trans ?_
    rw [List.length_map, ← hof.length_eq, nsmul_eq_mul]
    exact Nat.mul_le_mul_right _ hlength.2
  have hcount : minBatchSize ≤ files.length ∧ files.length ≤ maxBatchSize := hlength
  refine ⟨validated, ?_, hof⟩
  unfold checkBatch
  rw [if_neg (not_not.mpr hcount), hall]
  exact if_neg (Nat.not_lt.mpr htotal)

theorem createBatch_decides (hfresh : Distinct fresh) {files : List UploadFile}
    (hlength : 2 ≤ files.length ∧ files.length ≤ 10)
    (hvalid : ∀ file ∈ files, ∃ ext contentType,
      validate file.data = .ok (ext, contentType)) :
    Ends (healthy requestId now fresh) (Ready fresh none 0 0)
      (createBatch settings files)
      (Decides (∀ file ∈ files, Fits requestId file.filename) fun _ _ => True) := by
  obtain ⟨validated, hcheck, hof⟩ := checkBatch_of_valid hlength hvalid
  have hext : ∀ v ∈ validated, Extension v.ext := by
    intro v hv
    obtain ⟨file, -, hof⟩ := forall₂_right hof hv
    exact extension_of_validate hof.valid
  have hnames : (∀ file ∈ files, Fits requestId file.filename) ↔
      ∀ v ∈ validated, Fits requestId v.filename := by
    clear hcheck hext hlength hvalid
    induction hof with
    | nil => exact iff_of_true (fun _ h => nomatch h) fun _ h => nomatch h
    | cons hof _ ih => rw [List.forall_mem_cons, List.forall_mem_cons, ih, hof.filename]
  have hcount : 1 + validated.length ≤ maxBatchSize + 1 := by
    rw [← hof.length_eq, Nat.add_comm]
    exact Nat.succ_le_succ hlength.2
  unfold createBatch
  simp only [hcheck, Program.ofExcept, bind_eq, ret_bind, hnames]
  refine Decides.step uuid4_decides fun batchId => .given fun hid => ?_
  subst hid
  refine Decides.step (createBatchRow_decides hfresh _) fun _ => ?_
  refine Decides.step traceIdVar_decides fun traceId => .given fun htrace => ?_
  subst htrace
  exact Decides.last (storeFiles_decides hfresh validated hcount hext [] [])
    fun _ => finish_decides

end

/-! ## What is accepted -/

/--
The header of the request, if there is one, fits the column of the trace id: after 64
characters come spaces only.
-/
def HeaderFits (headers : List Api.Header) : Prop :=
  ∀ raw, Api.getHeader headers Api.xRequestId = some raw →
    0 ∉ raw ∧ ∀ byte ∈ raw.drop 64, byte = 32

theorem latin1_storable (raw : Bytes) :
    Column.storable (Text.latin1Decode raw) = true ↔ 0 ∉ raw := by
  simp only [Column.storable, List.all_eq_true, Bool.and_eq_true, bne_iff_ne]
  constructor
  · intro h hmem
    exact (h 0 (List.mem_map_of_mem hmem)).2 rfl
  · intro h c hc
    have hlt := Text.latin1Decode_lt hc
    refine ⟨?_, ?_⟩
    · simp only [Text.isScalar, Bool.and_eq_true, Bool.not_eq_true', decide_eq_true_eq,
        Bool.and_eq_false_iff, decide_eq_false_iff_not]
      omega
    · rintro rfl
      obtain ⟨byte, hbyte, hzero⟩ := List.mem_map.mp hc
      exact h ((UInt8.toNat_inj.mp hzero : byte = 0) ▸ hbyte)

theorem latin1_fits (n : Nat) (raw : Bytes) :
    Column.fits n (Text.latin1Decode raw) = true ↔
      0 ∉ raw ∧ ∀ byte ∈ raw.drop n, byte = 32 := by
  rw [Column.fits, Bool.and_eq_true, latin1_storable, List.all_eq_true, Text.latin1Decode,
    ← List.map_drop, List.forall_mem_map]
  refine and_congr_right fun _ => forall₂_congr fun byte hbyte => ?_
  rw [decide_eq_true_eq]
  exact ⟨fun h => UInt8.toNat_inj.mp h, fun h => h ▸ rfl⟩

theorem requestId_fits (headers : List Api.Header) (id : UUID) :
    Column.fits 64 (Api.RequestIdMiddleware.requestId headers id) = true ↔
      HeaderFits headers := by
  have hid : Column.fits 64 id.text = true :=
    Column.fits_of_holds (holds_of_forall (text_plain id)
      (by rw [UUID.length_text]; decide))
  unfold Api.RequestIdMiddleware.requestId HeaderFits
  rcases Api.getHeader headers Api.xRequestId with _ | (_ | ⟨byte, rest⟩)
  · exact iff_of_true hid fun raw h => nomatch h
  · refine iff_of_true hid ?_
    rintro raw ⟨⟩
    exact ⟨List.not_mem_nil, fun byte hbyte => nomatch hbyte⟩
  · refine (latin1_fits 64 (byte :: rest)).trans ⟨fun h => ?_, fun h => h _ rfl⟩
    rintro raw ⟨⟩
    exact h

/-- The calls that insert photos. -/
inductive Upload where
  | photo (file : UploadFile)
  | batch (files : List UploadFile)

namespace Upload

def files : Upload → List UploadFile
  | photo file => [file]
  | batch files => files

def program (settings : Settings) : Upload → Py Reply
  | photo file => createPhoto settings file
  | batch files => createBatch settings files

def Valid (upload : Upload) : Prop :=
  (∀ file ∈ upload.files, ∃ ext contentType,
    validate file.data = .ok (ext, contentType)) ∧
  match upload with
  | photo _ => True
  | batch files => 2 ≤ files.length ∧ files.length ≤ 10

end Upload

/-- Where everything works the call returns. -/
def Accepted (requestId : Str) (now : Time) (fresh : Nat → UUID) (T : Tables)
    (call : Py Reply) : Prop :=
  ∃ reply, (call.run (healthy requestId now fresh) ⟨T, 0⟩).1 = .ok reply

theorem upload_accepted_iff (settings : Settings) (upload : Upload)
    (hvalid : upload.Valid) (headers : List Api.Header) (id : UUID) (now : Time)
    (fresh : Nat → UUID) (hfresh : Distinct fresh) (T : Tables)
    (hunused : Unused fresh 0 T) :
    Accepted (Api.RequestIdMiddleware.requestId headers id) now fresh T
        (upload.program settings) ↔
      HeaderFits headers ∧ ∀ file ∈ upload.files, FilenameFits file.filename := by
  have hready : Ready fresh none 0 0 ⟨T, 0⟩ := ⟨rfl, hunused, fun _ h => nomatch h⟩
  rw [← requestId_fits headers id]
  generalize Api.RequestIdMiddleware.requestId headers id = requestId
  cases upload with
  | photo file =>
      obtain ⟨ext, contentType, hfile⟩ := hvalid.1 file (List.mem_singleton_self file)
      refine ((createPhoto_decides hfresh hfile) _ hready).accepted.trans ?_
      rw [Fits, and_comm]
      simp [Upload.files]
  | batch files =>
      obtain ⟨hfiles, hlength⟩ := hvalid
      refine ((createBatch_decides hfresh hlength hfiles) _ hready).accepted.trans ?_
      have hne : files ≠ [] := List.ne_nil_of_length_pos (by omega)
      obtain ⟨first, hfirst⟩ := List.exists_mem_of_ne_nil files hne
      constructor
      · exact fun h => ⟨(h first hfirst).2, fun file hmem => (h file hmem).1⟩
      · exact fun h file hmem => ⟨h.2 file hmem, h.1⟩

/-- The identifiers 0, 1, 2, .. -/
def numbered (n : Nat) : UUID := BitVec.ofNat 128 n

theorem numbered_distinct : Distinct numbered := by
  intro m n hm hn heq
  have hmod := congrArg BitVec.toNat heq
  simp only [numbered, BitVec.toNat_ofNat] at hmod
  simp only [maxBatchSize] at hm hn
  omega

theorem empty_unused (fresh : Nat → UUID) : Unused fresh 0 .empty :=
  ⟨fun _ _ _ => rfl, fun _ _ _ => rfl, fun _ _ _ _ hrow => nomatch hrow⟩

theorem jpegFile_valid : (Upload.photo jpegFile).Valid := by
  refine ⟨fun file hfile => ?_, trivial⟩
  rw [List.mem_singleton.mp hfile]
  exact ⟨py "jpg", py "image/jpeg", by decide⟩

theorem upload_accepted_jpeg :
    Accepted (py "r") 0 numbered .empty (createPhoto defaultSettings jpegFile) := by
  have hheader : Api.RequestIdMiddleware.requestId
      [(Api.xRequestId, (py "r").map UInt8.ofNat)] 0#128 = py "r" := by decide
  rw [← hheader]
  refine (upload_accepted_iff defaultSettings (.photo jpegFile) jpegFile_valid _ _ 0
    numbered numbered_distinct .empty (empty_unused _)).mpr ⟨?_, ?_⟩
  · rintro raw ⟨⟩
    exact ⟨by decide, fun byte hbyte => (List.not_mem_nil hbyte).elim⟩
  · intro file hfile
    rw [List.mem_singleton.mp hfile]
    rintro name ⟨⟩
    decide

/-- A request id of 65 characters. -/
def longHeader : List Api.Header := [(Api.xRequestId, List.replicate 65 97)]

theorem upload_not_accepted :
    ¬∀ (settings : Settings) (upload : Upload) (headers : List Api.Header) (id : UUID)
      (now : Time) (fresh : Nat → UUID) (T : Tables), upload.Valid → Distinct fresh →
      Unused fresh 0 T → Accepted (Api.RequestIdMiddleware.requestId headers id) now
        fresh T (upload.program settings) := by
  intro h
  obtain ⟨reply, hreply⟩ := h defaultSettings (.photo jpegFile) longHeader 0#128 0
    numbered .empty jpegFile_valid numbered_distinct (empty_unused _)
  have hrefused : ((createPhoto defaultSettings jpegFile).run (healthy
      (Api.RequestIdMiddleware.requestId longHeader 0#128) 0 numbered)
      ⟨.empty, 0⟩).1 = .error Stmt.tooLong := by rfl
  rw [Upload.program, hrefused] at hreply
  cases hreply

end PhotoService

end PhotoAnalysis

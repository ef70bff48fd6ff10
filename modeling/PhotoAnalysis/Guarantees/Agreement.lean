import PhotoAnalysis.Guarantees.Columns

/-!
# One batch or several uploads

Both uploads against a database and a storage where nothing fails but what the
schema refuses.  A batch that is accepted leaves the rows and objects that its files
leave one by one; how it is rejected differs where the database refuses a file that
`_validate` would let through.
-/

namespace PhotoAnalysis.PhotoService

open Foundation Program

/-! ## A connection and the storage -/

/-- `session` is what the open transaction sees, `touched` whether anything was called. -/
structure Site where
  tables : Tables
  session : Tables
  transactions : Nat
  objects : Str → Option StoredObject
  drawn : Nat
  touched : Bool

namespace Site

def opened (T : Tables) (objects : Str → Option StoredObject) (drawn : Nat) : Site :=
  ⟨T, T, 0, objects, drawn, false⟩

/-- A row is flushed and its object stored. -/
def keep (s : Site) (row : Photo) (object : StoredObject) : Site :=
  { s with
    session := Write.apply s.session (.addPhoto row)
    objects := Function.update s.objects row.objectKey (some object)
    drawn := s.drawn + 1
    touched := true }

def committed (s : Site) : Site :=
  { s with tables := s.session, transactions := s.transactions + 1, touched := true }

end Site

/-- A statement does what it does to the tables; a transaction has one `now()`. -/
def serving (requestId : Str) (clock : Nat → Time) (fresh : Nat → UUID) :
    Handler Op Op.Ans PyExc Site
  | .uuid4, s => (.ok (fresh s.drawn), { s with drawn := s.drawn + 1 })
  | .getTraceId, s => (.ok (.str requestId), s)
  | .execute stmt, s =>
      match stmt.resolve (clock s.transactions) s.session with
      | .ok (some write) =>
          (.ok 1, { s with session := write.apply s.session, touched := true })
      | .ok none => (.ok 0, { s with touched := true })
      | .error exc => (.error exc, { s with touched := true })
  | .putObject name data contentType, s =>
      (.ok (), { s with
        objects := Function.update s.objects name (some ⟨data, contentType⟩)
        touched := true })
  | .removeObject name, s =>
      (.ok (), { s with
        objects := Function.update s.objects name none, touched := true })
  | .commit, s => (.ok (), s.committed)
  | .rollback, s =>
      (.ok (), { s with
        session := s.tables, transactions := s.transactions + 1, touched := true })
  | .count _ _, s => (.ok (), s)
  | _, s => (.error (.other (py "no part of an upload")), s)

/-- One `create_photo` after the other. -/
def createPhotos (settings : Settings) : List UploadFile → Py (List Reply)
  | [] => pure []
  | file :: files => do
      let reply ← createPhoto settings file
      let replies ← createPhotos settings files
      pure (reply :: replies)

section

variable {requestId : Str} {clock : Nat → Time} {fresh : Nat → UUID} {n : Nat}
variable {s : Site} {batchId : Option UUID} {settings : Settings}

/-- The row of a file. -/
def rowOf (requestId : Str) (batchId : Option UUID) (now : Time) (id : UUID)
    (filename : Option Str) (ext : Str) : Photo :=
  (newPhoto id filename ext requestId batchId).row now

/-- The column holds all of the key under which the object is stored. -/
theorem objectKey_rowOf (now : Time) (id : UUID) (filename : Option Str) {ext : Str}
    (h : Extension ext) :
    (rowOf requestId batchId now id filename ext).objectKey = objectKey id ext := by
  have hholds := objectKey_holds id h
  rw [Column.holds, Bool.and_eq_true, decide_eq_true_eq] at hholds
  exact Column.cut_eq_self.mpr hholds.2

/-! ## One file -/

/-- Before the `n`-th photo: the batch is there and the next ids are not. -/
structure Awaits (fresh : Nat → UUID) (batchId : Option UUID) (n : Nat) (s : Site) :
    Prop where
  drawn : s.drawn = n
  unused : Unused fresh n s.session
  batch : ∀ id, batchId = some id → (s.session.batch id).isSome = true

theorem Awaits.keep (h : Awaits fresh batchId n s) (hfresh : Distinct fresh)
    (hn : n ≤ maxBatchSize) (now : Time) (filename : Option Str) (ext : Str)
    (object : StoredObject) :
    Awaits fresh batchId (n + 1)
      (s.keep (rowOf requestId batchId now (fresh n) filename ext) object) where
  drawn := congrArg (· + 1) h.drawn
  unused := by
    obtain ⟨ext', hcut⟩ := exists_cut_objectKey (fresh n) ext
    exact h.unused.addPhoto hfresh hn rfl hcut
  batch := h.batch

theorem create_stored (h : Unused fresh n s.session) (hn : n ≤ maxBatchSize)
    (hbatch : ∀ id, batchId = some id → (s.session.batch id).isSome = true)
    {filename : Option Str} {ext : Str} (hext : Extension ext)
    (hfits : Fits requestId filename) :
    (PhotoRepository.create (newPhoto (fresh n) filename ext requestId batchId)).run
        (serving requestId clock fresh) s =
      (.ok (), { s with
        session := Write.apply s.session (.addPhoto
          (rowOf requestId batchId (clock s.transactions) (fresh n) filename ext))
        touched := true }) := by
  have fits : (newPhoto (fresh n) filename ext requestId batchId).fits = true :=
    (newPhoto_fits (fresh n) filename hext).mpr hfits
  simp only [PhotoRepository.create, bind_eq, run_bind, run_tryExcept, run_call, serving,
    insertPhoto_resolves h hn hbatch filename ext, fits, if_true]
  rfl

theorem create_refused (h : Unused fresh n s.session) (hn : n ≤ maxBatchSize)
    (hbatch : ∀ id, batchId = some id → (s.session.batch id).isSome = true)
    {filename : Option Str} {ext : Str} (hext : Extension ext)
    (hfits : ¬Fits requestId filename) :
    (PhotoRepository.create (newPhoto (fresh n) filename ext requestId batchId)).run
        (serving requestId clock fresh) s =
      (.error Stmt.tooLong, { s with touched := true }) := by
  have fits : ¬(newPhoto (fresh n) filename ext requestId batchId).fits = true :=
    mt (newPhoto_fits (fresh n) filename hext).mp hfits
  simp only [PhotoRepository.create, bind_eq, run_bind, run_tryExcept, run_call, serving,
    insertPhoto_resolves h hn hbatch filename ext, if_neg fits]
  rfl

theorem saveFile_serving (bucket : Str) (id : UUID) {ext : Str} (hext : Extension ext)
    (data : Bytes) (contentType : Str) :
    (ObjectStorage.saveFile bucket (objectKey id ext) data data.length contentType).run
        (serving requestId clock fresh) s =
      (.ok (bucket ++ 47 :: objectKey id ext), { s with
        objects := Function.update s.objects (objectKey id ext) (some ⟨data, contentType⟩)
        touched := true }) := by
  rw [ObjectStorage.saveFile, validateObjectName_objectKey id hext.safe]
  simp only [bind_eq, ret_bind, run_bind, run_tryExcept, run_call, serving, pure_eq_ret,
    run_ret, List.take_length]

theorem storeFile_stored (h : Awaits fresh batchId n s) (hn : n ≤ maxBatchSize) {id : UUID}
    (hid : batchId = some id) {file : ValidatedFile} (hext : Extension file.ext)
    (hfits : Fits requestId file.filename) :
    (storeFile settings id requestId file).run (serving requestId clock fresh) s =
      (.ok (fresh n, objectKey (fresh n) file.ext),
        s.keep (rowOf requestId batchId (clock s.transactions) (fresh n) file.filename file.ext)
          ⟨file.data, file.contentType⟩) := by
  obtain ⟨rfl, hunused, hbatch⟩ := h
  subst hid
  have create := @create_stored requestId clock fresh _ { s with drawn := s.drawn + 1 } _
    hunused hn hbatch _ _ hext hfits
  simp only [storeFile, bind_eq, run_bind, run_call, serving, pure_eq_ret, run_ret]
  rw [create]
  simp only [saveFile_serving _ _ hext, Site.keep, objectKey_rowOf _ _ _ hext]

theorem storeFile_refused (h : Awaits fresh batchId n s) (hn : n ≤ maxBatchSize) {id : UUID}
    (hid : batchId = some id) {file : ValidatedFile} (hext : Extension file.ext)
    (hfits : ¬Fits requestId file.filename) :
    ∃ s' : Site, s'.touched = true ∧
      (storeFile settings id requestId file).run (serving requestId clock fresh) s =
        (.error Stmt.tooLong, s') := by
  obtain ⟨rfl, hunused, hbatch⟩ := h
  subst hid
  have create := @create_refused requestId clock fresh _ { s with drawn := s.drawn + 1 } _
    hunused hn hbatch _ _ hext hfits
  refine ⟨{ s with drawn := s.drawn + 1, touched := true }, rfl, ?_⟩
  simp only [storeFile, bind_eq, run_bind, run_call, serving, pure_eq_ret, run_ret]
  rw [create]

theorem createPhoto_stored (h : Awaits fresh none n s) (hn : n ≤ maxBatchSize)
    {file : UploadFile} {ext contentType : Str}
    (hvalid : validate file.data = .ok (ext, contentType))
    (hfits : Fits requestId file.filename) :
    (createPhoto settings file).run (serving requestId clock fresh) s =
      (.ok (.uploadPhoto (fresh n).text (py "pending")),
        (s.keep (rowOf requestId none (clock s.transactions) (fresh n) file.filename ext)
          ⟨file.data, contentType⟩).committed) := by
  have hext := extension_of_validate hvalid
  obtain ⟨rfl, hunused, hbatch⟩ := h
  have create := @create_stored requestId clock fresh _ { s with drawn := s.drawn + 1 } _
    hunused hn hbatch _ _ hext hfits
  simp only [createPhoto, hvalid, Program.ofExcept, bind_eq, ret_bind, run_bind, run_call,
    serving, traceIdVar, pure_eq_ret, run_ret]
  rw [create]
  simp only [run_tryExcept, saveFile_serving _ _ hext, Site.keep,
    objectKey_rowOf _ _ _ hext]

theorem createPhoto_refused (h : Awaits fresh none n s) (hn : n ≤ maxBatchSize)
    {file : UploadFile} {ext contentType : Str}
    (hvalid : validate file.data = .ok (ext, contentType))
    (hfits : ¬Fits requestId file.filename) :
    ((createPhoto settings file).run (serving requestId clock fresh) s).1 =
      .error Stmt.tooLong := by
  have hext := extension_of_validate hvalid
  obtain ⟨rfl, hunused, hbatch⟩ := h
  have create := @create_refused requestId clock fresh _ { s with drawn := s.drawn + 1 } _
    hunused hn hbatch _ _ hext hfits
  simp only [createPhoto, hvalid, Program.ofExcept, bind_eq, ret_bind, run_bind, run_call,
    serving, traceIdVar, pure_eq_ret, run_ret]
  rw [create]

theorem createPhoto_invalid {file : UploadFile} {exc : PyExc}
    (hinvalid : validate file.data = .error exc) :
    ((createPhoto settings file).run (serving requestId clock fresh) s).1 = .error exc := by
  simp only [createPhoto, hinvalid, Program.ofExcept, bind_eq, raise_bind, run_raise]

/-! ## The loop and the single uploads, side by side -/

/-- Equal up to the time and the batch. -/
def Photo.Alike (single batched : Photo) : Prop :=
  batched = { single with createdAt := batched.createdAt, batchId := batched.batchId }

/--
The batch has flushed what the single uploads have committed since both had the rows
`base`.
-/
structure Abreast (fresh : Nat → UUID) (base : List Photo) (id : UUID) (n : Nat)
    (batch single : Site) : Prop where
  batched : Awaits fresh (some id) n batch
  alone : Awaits fresh none n single
  objects : batch.objects = single.objects
  settled : single.session = single.tables
  rows : ∃ flushed stored, batch.session.photos.rows = base ++ flushed ∧
    single.session.photos.rows = base ++ stored ∧ stored.Forall₂ Photo.Alike flushed

theorem Abreast.keep {base : List Photo} {id : UUID} {batch single : Site}
    (h : Abreast fresh base id n batch single) (hfresh : Distinct fresh)
    (hn : n ≤ maxBatchSize) (now now' : Time) (filename : Option Str) (ext : Str)
    (object : StoredObject) :
    Abreast fresh base id (n + 1)
      (batch.keep (rowOf requestId (some id) now (fresh n) filename ext) object)
      (single.keep (rowOf requestId none now' (fresh n) filename ext) object).committed where
  batched := h.batched.keep hfresh hn now filename ext object
  alone := by
    obtain ⟨drawn, unused, batch⟩ := h.alone.keep hfresh hn now' filename ext object
    exact ⟨drawn, unused, batch⟩
  objects := congrArg (Function.update · _ _) h.objects
  settled := rfl
  rows := by
    obtain ⟨flushed, stored, hflushed, hstored, alike⟩ := h.rows
    refine ⟨flushed ++ [rowOf requestId (some id) now (fresh n) filename ext],
      stored ++ [rowOf requestId none now' (fresh n) filename ext], ?_, ?_, ?_⟩
    · rw [← List.append_assoc, ← hflushed]
      exact Table.rows_add (h.batched.unused.photo n le_rfl hn)
    · rw [← List.append_assoc, ← hstored]
      exact Table.rows_add (h.alone.unused.photo n le_rfl hn)
    · exact List.rel_append alike (.cons rfl .nil)

theorem storeFiles_stored {base : List Photo} {id : UUID} (hfresh : Distinct fresh)
    {files : List UploadFile} {validated : List ValidatedFile}
    (hof : files.Forall₂ (fun file v => v.Of file) validated)
    (hn : n + files.length ≤ maxBatchSize + 1)
    (hfits : ∀ file ∈ files, Fits requestId file.filename) {batch single : Site}
    (h : Abreast fresh base id n batch single) (photos : List UUID) (saved : List Str) :
    ∃ ids batch' single',
      (storeFiles settings id requestId validated photos saved).run
        (serving requestId clock fresh) batch = (.ok (photos ++ ids), batch') ∧
      (createPhotos settings files).run (serving requestId clock fresh) single =
        (.ok (ids.map fun id => .uploadPhoto id.text (py "pending")), single') ∧
      Abreast fresh base id (n + files.length) batch' single' := by
  induction hof generalizing n batch single photos saved with
  | nil => exact ⟨[], batch, single, by simp [storeFiles], rfl, h⟩
  | @cons file v files validated hof _ ih =>
      obtain ⟨filename, data, ext, contentType⟩ := v
      obtain ⟨hvalid, rfl, rfl⟩ := hof
      rw [List.length_cons] at hn
      have hle : n ≤ maxBatchSize := by omega
      have hfile := hfits file List.mem_cons_self
      have hext := extension_of_validate hvalid
      have hbatch := @storeFile_stored requestId clock fresh n batch _ settings h.batched hle
        id rfl ⟨file.filename, file.data, ext, contentType⟩ hext hfile
      have hsingle := @createPhoto_stored requestId clock fresh n single settings h.alone hle
        file ext contentType hvalid hfile
      have hkept := @Abreast.keep requestId fresh n base id batch single h hfresh hle
        (clock batch.transactions) (clock single.transactions) file.filename ext
        ⟨file.data, contentType⟩
      obtain ⟨ids, batch', single', hb, hs, habreast⟩ := ih (by omega)
        (fun file hmem => hfits file (List.mem_cons_of_mem _ hmem)) hkept
        (photos ++ [fresh n]) (saved ++ [objectKey (fresh n) ext])
      refine ⟨fresh n :: ids, batch', single', ?_, ?_, ?_⟩
      · rw [storeFiles, bind_eq, run_bind, run_attempt, hbatch]
        simpa using hb
      · simp only [createPhotos, bind_eq, run_bind, hsingle, hs, pure_eq_ret, run_ret,
          List.map_cons]
      · rwa [List.length_cons, Nat.add_comm files.length, ← Nat.add_assoc]

/-- What the database refuses ends the loop after it has been called. -/
theorem storeFiles_refused {id : UUID} (hfresh : Distinct fresh)
    {validated : List ValidatedFile} (hext : ∀ v ∈ validated, Extension v.ext)
    (hn : n + validated.length ≤ maxBatchSize + 1)
    (hfits : ¬∀ v ∈ validated, Fits requestId v.filename)
    (h : Awaits fresh (some id) n s) (photos : List UUID) (saved : List Str) :
    ∃ s' : Site, s'.touched = true ∧
      (storeFiles settings id requestId validated photos saved).run
        (serving requestId clock fresh) s = (.error Stmt.tooLong, s') := by
  induction validated generalizing n s photos saved with
  | nil => exact absurd (fun v hv => nomatch hv) hfits
  | cons v validated ih =>
      rw [List.length_cons] at hn
      have hle : n ≤ maxBatchSize := by omega
      have hvext := hext v List.mem_cons_self
      by_cases hv : Fits requestId v.filename
      · have hstored := @storeFile_stored requestId clock fresh n s _ settings h hle id rfl v
          hvext hv
        have hkept := @Awaits.keep requestId fresh n s _ h hfresh hle (clock s.transactions)
          v.filename v.ext ⟨v.data, v.contentType⟩
        have hrest : ¬∀ v ∈ validated, Fits requestId v.filename :=
          fun hall => hfits (List.forall_mem_cons.mpr ⟨hv, hall⟩)
        obtain ⟨s', htouched, hrun⟩ := ih (fun v hmem => hext v (List.mem_cons_of_mem _ hmem))
          (by omega) hrest hkept (photos ++ [fresh n]) (saved ++ [objectKey (fresh n) v.ext])
        refine ⟨s', htouched, ?_⟩
        rw [storeFiles, bind_eq, run_bind, run_attempt, hstored]
        exact hrun
      · obtain ⟨s', htouched, hrun⟩ := @storeFile_refused requestId clock fresh n s _
          settings h hle id rfl v hvext hv
        refine ⟨s', htouched, ?_⟩
        rw [storeFiles, bind_eq, run_bind, run_attempt, hrun]
        rfl

/-! ## The whole batch -/

variable {T : Tables} {objects : Str → Option StoredObject} {files : List UploadFile}
variable {validated : List ValidatedFile}

/-- The site when the row of the batch is flushed. -/
def begun (fresh : Nat → UUID) (now : Time) (T : Tables)
    (objects : Str → Option StoredObject) : Site :=
  { Site.opened T objects 1 with
    session := Write.apply T (.addBatch ⟨fresh 0, .processing, none, now⟩)
    touched := true }

theorem Unused.one (h : Unused fresh 0 T) : Unused fresh 1 T where
  photo := fun m _ hmax => h.photo m (Nat.zero_le _) hmax
  batch := fun m _ hmax => h.batch m (Nat.zero_le _) hmax
  key := fun m _ hmax => h.key m (Nat.zero_le _) hmax

theorem abreast_begun (hfresh : Distinct fresh) (h : Unused fresh 0 T) (now : Time) :
    Abreast fresh T.photos.rows (fresh 0) 1 (begun fresh now T objects)
      (Site.opened T objects 1) where
  batched := by
    refine ⟨rfl, h.addBatch hfresh (Nat.zero_le _) rfl, ?_⟩
    rintro id ⟨⟩
    have hnone : T.batches.find (fresh 0) = none := h.batch 0 le_rfl (Nat.zero_le _)
    simp [begun, Write.apply, Tables.batch, Table.find_add, hnone]
  alone := ⟨rfl, h.one, fun _ hid => nomatch hid⟩
  objects := rfl
  settled := rfl
  rows := ⟨[], [], (List.append_nil _).symm, (List.append_nil _).symm, .nil⟩

theorem run_createBatch (hunused : Unused fresh 0 T)
    (hcheck : checkBatch files = .ok validated) :
    (createBatch settings files).run (serving requestId clock fresh)
        (Site.opened T objects 0) =
      ((storeFiles settings (fresh 0) requestId validated [] []).bind fun photos => do
        wait .commit
        wait (.count .photosUploadedTotal photos.length)
        pure (Reply.batchAccepted (fresh 0).text
          (photos.map fun photoId => ⟨photoId.text, py "pending"⟩))).run
        (serving requestId clock fresh) (begun fresh (clock 0) T objects) := by
  have hnone : T.batch (fresh 0) = none := hunused.batch 0 le_rfl (Nat.zero_le _)
  have hinsert : (BatchRepository.create (fresh 0) .processing).run
      (serving requestId clock fresh) { Site.opened T objects 0 with drawn := 1 } =
        (.ok (), begun fresh (clock 0) T objects) := by
    simp only [BatchRepository.create, bind_eq, run_bind, run_call, serving, Stmt.resolve,
      Site.opened, hnone, Option.isSome_none, Bool.false_eq_true, if_false, pure_eq_ret,
      run_ret, begun]
  have hdraw : (wait .uuid4).run (serving requestId clock fresh) (Site.opened T objects 0) =
      (.ok (fresh 0), { Site.opened T objects 0 with drawn := 1 }) := run_call _ _ _
  simp only [createBatch, hcheck, Program.ofExcept, bind_eq, ret_bind]
  rw [run_bind, hdraw]
  dsimp only
  rw [run_bind, hinsert]
  rfl

theorem createBatch_stored (hfresh : Distinct fresh) (hunused : Unused fresh 0 T)
    (hlength : 2 ≤ files.length ∧ files.length ≤ 10)
    (hcheck : checkBatch files = .ok validated)
    (hof : files.Forall₂ (fun file v => v.Of file) validated)
    (hfits : ∀ file ∈ files, Fits requestId file.filename) :
    ∃ (ids : List UUID) (batch single : Site),
      (createBatch settings files).run (serving requestId clock fresh)
          (Site.opened T objects 0) =
        (.ok (.batchAccepted (fresh 0).text (ids.map fun id => ⟨id.text, py "pending"⟩)),
          batch.committed) ∧
      (createPhotos settings files).run (serving requestId clock fresh)
          (Site.opened T objects 1) =
        (.ok (ids.map fun id => .uploadPhoto id.text (py "pending")), single) ∧
      Abreast fresh T.photos.rows (fresh 0) (1 + files.length) batch single := by
  have hcount : 1 + files.length ≤ maxBatchSize + 1 := by
    rw [Nat.add_comm]
    exact Nat.succ_le_succ hlength.2
  obtain ⟨ids, batch, single, hbatch, hsingle, habreast⟩ :=
    @storeFiles_stored requestId clock fresh 1 settings _ _ hfresh _ _ hof hcount hfits _ _
      (@abreast_begun fresh T objects hfresh hunused (clock 0)) [] []
  refine ⟨ids, batch, single, ?_, hsingle, habreast⟩
  rw [run_createBatch hunused hcheck, run_bind, hbatch]
  simp only [List.nil_append, bind_eq, run_bind, run_call, serving, pure_eq_ret, run_ret]

theorem createBatch_refused (hfresh : Distinct fresh) (hunused : Unused fresh 0 T)
    (hcheck : checkBatch files = .ok validated) (hext : ∀ v ∈ validated, Extension v.ext)
    (hcount : validated.length ≤ maxBatchSize)
    (hfits : ¬∀ v ∈ validated, Fits requestId v.filename) :
    ∃ s' : Site, s'.touched = true ∧
      (createBatch settings files).run (serving requestId clock fresh)
        (Site.opened T objects 0) = (.error Stmt.tooLong, s') := by
  have hawaits := (@abreast_begun fresh T objects hfresh hunused (clock 0)).batched
  obtain ⟨s', htouched, hrun⟩ := @storeFiles_refused requestId clock fresh 1 _ settings _
    hfresh _ hext (by omega) hfits hawaits [] []
  refine ⟨s', htouched, ?_⟩
  rw [run_createBatch hunused hcheck, run_bind, hrun]

theorem createBatch_invalid {exc : PyExc} (hcheck : checkBatch files = .error exc) (s : Site) :
    (createBatch settings files).run (serving requestId clock fresh) s = (.error exc, s) := by
  simp only [createBatch, hcheck, Program.ofExcept, bind_eq, raise_bind, run_raise]

end

/-! ## Agreement -/

section

variable (settings : Settings) (requestId : Str) (clock : Nat → Time) (fresh : Nat → UUID)
variable (T : Tables) (objects : Str → Option StoredObject)

/-- What `create_photo` raises for a file on its own, if it does. -/
def refusal (file : UploadFile) : Option PyExc :=
  match ((createPhoto settings file).run (serving requestId clock fresh)
    (Site.opened T objects 0)).1 with
  | .ok _ => none
  | .error exc => some exc

abbrev runBatch (files : List UploadFile) : Except PyExc Reply × Site :=
  (createBatch settings files).run (serving requestId clock fresh) (Site.opened T objects 0)

/-- The single uploads draw the ids that the photos of the batch get. -/
abbrev runPhotos (files : List UploadFile) : Except PyExc (List Reply) × Site :=
  (createPhotos settings files).run (serving requestId clock fresh) (Site.opened T objects 1)

/-- A batch and the single uploads of its files under one request id. -/
structure Agrees (files : List UploadFile) : Prop where
  accepted : (∃ reply, (runBatch settings requestId clock fresh T objects files).1 = .ok reply) ↔
    (minBatchSize ≤ files.length ∧ files.length ≤ maxBatchSize) ∧
      ∀ file ∈ files, refusal settings requestId clock fresh T objects file = none
  rejected : minBatchSize ≤ files.length → files.length ≤ maxBatchSize → ∀ exc,
    (runBatch settings requestId clock fresh T objects files).1 = .error exc →
      files.findSome? (refusal settings requestId clock fresh T objects) = some exc ∧
        (runBatch settings requestId clock fresh T objects files).2.touched = false
  same : ∀ reply, (runBatch settings requestId clock fresh T objects files).1 = .ok reply →
    ∃ items : List BatchPhotoItem, reply = .batchAccepted (fresh 0).text items ∧
      (runPhotos settings requestId clock fresh T objects files).1 =
        .ok (items.map fun item => .uploadPhoto item.photoId item.status) ∧
      (runBatch settings requestId clock fresh T objects files).2.objects =
        (runPhotos settings requestId clock fresh T objects files).2.objects ∧
      ∃ flushed stored,
        (runBatch settings requestId clock fresh T objects files).2.tables.photos.rows =
          T.photos.rows ++ flushed ∧
        (runPhotos settings requestId clock fresh T objects files).2.tables.photos.rows =
          T.photos.rows ++ stored ∧
        stored.Forall₂ Photo.Alike flushed

end

/--
The database can hold what comes with every file before the first that `_validate`
refuses.
-/
def Storable (requestId : Str) : List UploadFile → Prop
  | [] => True
  | file :: files =>
      match validate file.data with
      | .error _ => True
      | .ok _ => Fits requestId file.filename ∧ Storable requestId files

section

variable {settings : Settings} {requestId : Str} {clock : Nat → Time} {fresh : Nat → UUID}
variable {T : Tables} {objects : Str → Option StoredObject} {files : List UploadFile}

theorem refusal_invalid {file : UploadFile} {exc : PyExc}
    (hinvalid : validate file.data = .error exc) :
    refusal settings requestId clock fresh T objects file = some exc := by
  rw [refusal, createPhoto_invalid hinvalid]

theorem refusal_eq_none {file : UploadFile} (hunused : Unused fresh 0 T) :
    refusal settings requestId clock fresh T objects file = none ↔
      (∃ ext contentType, validate file.data = .ok (ext, contentType)) ∧
        Fits requestId file.filename := by
  have hawaits : Awaits fresh none 0 (Site.opened T objects 0) :=
    ⟨rfl, hunused, fun _ hid => nomatch hid⟩
  cases hvalid : validate file.data with
  | error exc => simp [refusal_invalid hvalid]
  | ok value =>
      obtain ⟨ext, contentType⟩ := value
      by_cases hfits : Fits requestId file.filename
      · have hrun := @createPhoto_stored requestId clock fresh 0 _ settings hawaits
          (Nat.zero_le _) file ext contentType hvalid hfits
        simp [refusal, hrun, hfits]
      · have hrun := @createPhoto_refused requestId clock fresh 0 _ settings hawaits
          (Nat.zero_le _) file ext contentType hvalid hfits
        simp [refusal, hrun, hfits]

theorem refusal_unfit {file : UploadFile} (hunused : Unused fresh 0 T)
    {value : Str × Str} (hvalid : validate file.data = .ok value)
    (hfits : ¬Fits requestId file.filename) :
    refusal settings requestId clock fresh T objects file = some Stmt.tooLong := by
  have hawaits : Awaits fresh none 0 (Site.opened T objects 0) :=
    ⟨rfl, hunused, fun _ hid => nomatch hid⟩
  have hrun := @createPhoto_refused requestId clock fresh 0 _ settings hawaits
    (Nat.zero_le _) file value.1 value.2 hvalid hfits
  rw [refusal, hrun]

/-- The database's exception is none of those of `_validate`. -/
theorem validate_ne_tooLong {data : Bytes} {exc : PyExc} (h : validate data = .error exc) :
    exc ≠ Stmt.tooLong := by
  unfold validate at h
  split_ifs at h <;> cases h <;> simp [Stmt.tooLong, AppError.exc]

theorem findSome_of_storable (hunused : Unused fresh 0 T) (hstorable : Storable requestId files)
    {exc : PyExc} (hinvalid : validateAll files = .error exc) :
    files.findSome? (refusal settings requestId clock fresh T objects) = some exc := by
  induction files with
  | nil => cases hinvalid
  | cons file files ih =>
      cases hvalid : validate file.data with
      | error exc' =>
          simp only [validateAll, hvalid] at hinvalid
          cases hinvalid
          rw [List.findSome?_cons, refusal_invalid hvalid]
      | ok value =>
          simp only [Storable, hvalid] at hstorable
          have hnone := (@refusal_eq_none settings requestId clock fresh T objects file
            hunused).mpr ⟨⟨_, _, hvalid⟩, hstorable.1⟩
          rw [List.findSome?_cons, hnone]
          refine ih hstorable.2 ?_
          cases hrest : validateAll files with
          | error exc' =>
              simp only [validateAll, hvalid, hrest] at hinvalid
              cases hinvalid
              rfl
          | ok rest =>
              simp only [validateAll, hvalid, hrest] at hinvalid
              cases hinvalid

theorem findSome_of_not_storable (hunused : Unused fresh 0 T)
    (hstorable : ¬Storable requestId files) :
    files.findSome? (refusal settings requestId clock fresh T objects) =
      some Stmt.tooLong := by
  induction files with
  | nil => exact absurd trivial hstorable
  | cons file files ih =>
      cases hvalid : validate file.data with
      | error exc =>
          simp only [Storable, hvalid] at hstorable
          exact absurd trivial hstorable
      | ok value =>
          simp only [Storable, hvalid, not_and] at hstorable
          rw [List.findSome?_cons]
          by_cases hfits : Fits requestId file.filename
          · rw [(refusal_eq_none hunused).mpr ⟨⟨_, _, hvalid⟩, hfits⟩]
            exact ih (hstorable hfits)
          · rw [refusal_unfit hunused hvalid hfits]

theorem storable_of_fits (h : ∀ file ∈ files, Fits requestId file.filename) :
    Storable requestId files := by
  induction files with
  | nil => trivial
  | cons file files ih =>
      rw [List.forall_mem_cons] at h
      unfold Storable
      split
      · trivial
      · exact ⟨h.1, ih h.2⟩

theorem fits_of_storable {validated : List ValidatedFile}
    (hof : files.Forall₂ (fun file v => v.Of file) validated)
    (h : Storable requestId files) : ∀ file ∈ files, Fits requestId file.filename := by
  induction hof with
  | nil => simp
  | cons hof _ ih =>
      simp only [Storable, hof.valid] at h
      exact List.forall_mem_cons.mpr ⟨h.1, ih h.2⟩

theorem checkBatch_invalid {exc : PyExc}
    (hlength : minBatchSize ≤ files.length ∧ files.length ≤ maxBatchSize)
    (hinvalid : validateAll files = .error exc) : checkBatch files = .error exc := by
  rw [checkBatch, if_neg (not_not.mpr hlength), hinvalid]
  rfl

theorem validateAll_ne_tooLong {exc : PyExc} (h : validateAll files = .error exc) :
    exc ≠ Stmt.tooLong := by
  induction files with
  | nil => cases h
  | cons file files ih =>
      cases hvalid : validate file.data with
      | error exc' =>
          simp only [validateAll, hvalid] at h
          cases h
          exact validate_ne_tooLong hvalid
      | ok value =>
          cases hrest : validateAll files with
          | error exc' =>
              simp only [validateAll, hvalid, hrest] at h
              cases h
              exact ih hrest
          | ok rest =>
              simp only [validateAll, hvalid, hrest] at h
              cases h

theorem valid_of_validateAll {validated : List ValidatedFile}
    (h : validateAll files = .ok validated) :
    ∀ file ∈ files, ∃ ext contentType, validate file.data = .ok (ext, contentType) := by
  intro file hmem
  have hof : validated.Forall₂ (fun v file => v.Of file) files := (validateAll_ok h).flip
  obtain ⟨v, -, hv⟩ := forall₂_right hof hmem
  exact ⟨_, _, hv.valid⟩

theorem agrees_of_rejected {exc : PyExc} (hcheck : checkBatch files = .error exc)
    (hfirst : minBatchSize ≤ files.length ∧ files.length ≤ maxBatchSize →
      files.findSome? (refusal settings requestId clock fresh T objects) = some exc) :
    Agrees settings requestId clock fresh T objects files := by
  have hrun : runBatch settings requestId clock fresh T objects files =
      (.error exc, Site.opened T objects 0) := createBatch_invalid hcheck _
  refine ⟨?_, ?_, ?_⟩
  · rw [hrun]
    refine iff_of_false (fun ⟨_, h⟩ => nomatch h) ?_
    rintro ⟨hlength, hnone⟩
    have hall := List.findSome?_eq_none_iff.mpr hnone
    rw [hfirst hlength] at hall
    cases hall
  · intro hmin hmax exc' hexc
    rw [hrun] at hexc ⊢
    cases hexc
    exact ⟨hfirst ⟨hmin, hmax⟩, rfl⟩
  · intro reply hreply
    rw [hrun] at hreply
    cases hreply

theorem agrees_of_accepted (hfresh : Distinct fresh) (hunused : Unused fresh 0 T)
    (hlength : minBatchSize ≤ files.length ∧ files.length ≤ maxBatchSize)
    {validated : List ValidatedFile} (hall : validateAll files = .ok validated)
    (hfits : ∀ file ∈ files, Fits requestId file.filename) :
    Agrees settings requestId clock fresh T objects files := by
  have hvalid := valid_of_validateAll hall
  obtain ⟨validated', hcheck, hof⟩ := checkBatch_of_valid hlength hvalid
  obtain ⟨ids, batch, single, hbatch, hsingle, habreast⟩ :=
    @createBatch_stored requestId clock fresh settings T objects files validated' hfresh
      hunused hlength hcheck hof hfits
  obtain ⟨flushed, stored, hflushed, hstored, alike⟩ := habreast.rows
  refine ⟨?_, ?_, ?_⟩
  · rw [runBatch, hbatch]
    exact iff_of_true ⟨_, rfl⟩ ⟨hlength, fun file hmem =>
      (refusal_eq_none hunused).mpr ⟨hvalid file hmem, hfits file hmem⟩⟩
  · intro _ _ exc hexc
    rw [runBatch, hbatch] at hexc
    cases hexc
  · intro reply hreply
    rw [runBatch, hbatch] at hreply
    obtain rfl := Except.ok.inj hreply
    have hsame : single.tables.photos.rows = T.photos.rows ++ stored := by
      rw [← hstored, habreast.settled]
    have hreplies : (Except.ok (ids.map fun id => .uploadPhoto id.text (py "pending")) :
        Except PyExc (List Reply)) = .ok ((ids.map fun id =>
          (⟨id.text, py "pending"⟩ : BatchPhotoItem)).map fun item =>
            .uploadPhoto item.photoId item.status) := by
      simp only [List.map_map, Function.comp_def]
    simp only [runBatch, runPhotos, hbatch, hsingle]
    exact ⟨_, rfl, hreplies, habreast.objects, flushed, stored, hflushed, hsame, alike⟩

theorem batch_agrees_iff (settings : Settings) (requestId : Str) (clock : Nat → Time)
    (fresh : Nat → UUID) (hfresh : Distinct fresh) (T : Tables) (hunused : Unused fresh 0 T)
    (objects : Str → Option StoredObject) (files : List UploadFile) :
    Agrees settings requestId clock fresh T objects files ↔
      ¬(minBatchSize ≤ files.length ∧ files.length ≤ maxBatchSize) ∨
        Storable requestId files := by
  by_cases hlength : minBatchSize ≤ files.length ∧ files.length ≤ maxBatchSize
  · rw [or_iff_right (not_not.mpr hlength)]
    cases hall : validateAll files with
    | error exc =>
        have hcheck := checkBatch_invalid hlength hall
        constructor
        · intro hagrees
          by_contra hstorable
          have hrun : runBatch settings requestId clock fresh T objects files =
              (.error exc, Site.opened T objects 0) := createBatch_invalid hcheck _
          obtain ⟨hfirst, -⟩ := hagrees.rejected hlength.1 hlength.2 exc (by rw [hrun])
          rw [findSome_of_not_storable hunused hstorable] at hfirst
          exact validateAll_ne_tooLong hall (Option.some.inj hfirst).symm
        · exact fun hstorable =>
            agrees_of_rejected hcheck fun _ => findSome_of_storable hunused hstorable hall
    | ok validated =>
        have hof := validateAll_ok hall
        constructor
        · intro hagrees
          by_contra hstorable
          obtain ⟨validated', hcheck, hof'⟩ :=
            checkBatch_of_valid hlength (valid_of_validateAll hall)
          have hext : ∀ v ∈ validated', Extension v.ext := by
            intro v hv
            obtain ⟨file, -, hv⟩ := forall₂_right hof' hv
            exact extension_of_validate hv.valid
          have hfits : ¬∀ v ∈ validated', Fits requestId v.filename := by
            intro hfits
            refine hstorable (storable_of_fits fun file hmem => ?_)
            have hflip : validated'.Forall₂ (fun v file => v.Of file) files := hof'.flip
            obtain ⟨v, hv, hfile⟩ := forall₂_right hflip hmem
            exact hfile.filename ▸ hfits v hv
          have hcount : validated'.length ≤ maxBatchSize := hof'.length_eq ▸ hlength.2
          obtain ⟨s', htouched, hrun⟩ := @createBatch_refused requestId clock fresh settings T
            objects files validated' hfresh hunused hcheck hext hcount hfits
          obtain ⟨-, huntouched⟩ := hagrees.rejected hlength.1 hlength.2 Stmt.tooLong
            (by rw [runBatch, hrun])
          rw [runBatch, hrun, htouched] at huntouched
          cases huntouched
        · exact fun hstorable =>
            agrees_of_accepted hfresh hunused hlength hall (fits_of_storable hof hstorable)
  · rw [or_iff_left_of_imp fun _ => hlength]
    refine iff_of_true ?_ hlength
    have hcheck : checkBatch files =
        .error (AppError.batchSize.exc (batchSizeMessage files.length)) := if_pos hlength
    exact agrees_of_rejected hcheck fun h => absurd h hlength

theorem batch_agrees_pair :
    Agrees defaultSettings (py "r") id numbered .empty (fun _ => none)
      [jpegFile, jpegFile] := by
  have hfits : Fits (py "r") jpegFile.filename := by
    refine ⟨?_, by decide⟩
    rintro name ⟨⟩
    decide
  refine (batch_agrees_iff defaultSettings (py "r") id numbered numbered_distinct .empty
    (empty_unused _) (fun _ => none) [jpegFile, jpegFile]).mpr (.inr ?_)
  exact storable_of_fits (by simp [hfits])

/-- A valid image whose name is longer than its column. -/
def longNamed : UploadFile := { jpegFile with filename := some (List.replicate 513 97) }

set_option maxRecDepth 8192 in
/-- The object of the first file stays behind. -/
theorem batch_disagrees :
    (runBatch defaultSettings (py "r") id numbered .empty (fun _ => none)
      [jpegFile, longNamed]).1 = .error Stmt.tooLong ∧
    (runBatch defaultSettings (py "r") id numbered .empty (fun _ => none)
      [jpegFile, longNamed]).2.objects (objectKey (numbered 1) (py "jpg")) =
        some ⟨jpegFile.data, py "image/jpeg"⟩ ∧
    ¬Agrees defaultSettings (py "r") id numbered .empty (fun _ => none)
      [jpegFile, longNamed] := by
  have herror : (runBatch defaultSettings (py "r") id numbered .empty (fun _ => none)
      [jpegFile, longNamed]).1 = .error Stmt.tooLong := by rfl
  have htouched : (runBatch defaultSettings (py "r") id numbered .empty (fun _ => none)
      [jpegFile, longNamed]).2.touched = true := by rfl
  refine ⟨herror, by rfl, fun h => ?_⟩
  obtain ⟨-, huntouched⟩ := h.rejected (by decide) (by decide) _ herror
  rw [htouched] at huntouched
  cases huntouched

end

end PhotoAnalysis.PhotoService

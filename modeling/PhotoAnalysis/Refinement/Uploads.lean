import PhotoAnalysis.Refinement.Facts

/-!
# Uploads keep their guarantee

`create_photo` and `create_batch` commit nothing but complete uploads: rows that
were named by the call, whose objects are stored.
-/

namespace PhotoAnalysis

open Foundation Program

variable {M : Nat} {t : Tid} {arrival : Arrival} {own : Own}
variable {K : Ledger → Prop}

/-! ## The steps both have in common -/

theorem spec_create {photo : NewPhoto} {W : Photo → Ledger → Prop}
    {E : Ledger → Prop} (hW : ∀ row, Lasting M t (fun _ => False) (W row))
    (hE : Lasting M t (fun _ => False) E)
    (h₁ : ∀ L now, Inv M L → K L → photo.fits → W (photo.row now) L)
    (he : ∀ L, Inv M L → K L → E L) :
    Spec M t (At t arrival own K) (PhotoRepository.create photo) fun answer w =>
      match answer with
      | .ok _ => ∃ now, At t arrival (own.add (.addPhoto (photo.row now)))
          (W (photo.row now)) w
      | .error _ => Dropped t arrival own E w := by
  refine .bind (fun _ w => ∃ now, At t arrival
    (own.add (.addPhoto (photo.row now))) (W (photo.row now)) w) ?_
    fun _ => .ret fun w hI h => h
  refine .tryExcept (fun _ => Dropped t arrival own E) ?_ fun exc => ?_
  · refine (spec_execute (N := fun _ => False)
      (W := fun write L => ∃ now, write = .addPhoto (photo.row now) ∧
        W (photo.row now) L) (E := fun _ => E) (.const False) ?_
      (fun _ => hE) ?_ ?_ ?_).post ?_
    · exact fun write => .exists_ fun now => (Lasting.const _).and (hW _).anyLocks
    · intro L now hI hk hres
      simp only [Stmt.resolve] at hres
      split at hres
      · cases hres
      · split at hres
        · cases hres
        · split at hres <;> cases hres
    · intro L now write hI hk hres
      simp only [Stmt.resolve] at hres
      split at hres
      next => cases hres
      next hfits =>
        split at hres
        · cases hres
        · split at hres
          · cases hres
          · cases hres
            exact ⟨now, rfl, h₁ L now hI hk (by simpa using hfits)⟩
    · exact fun L exc hI hk => hE.quiet _ _ hI (.note _ rfl) (he L hI hk)
    · rintro (exc | rowcount) w hI h
      · exact h
      · rcases h with ⟨-, hat⟩ | ⟨-, write, hat⟩
        · exact hat.fact.elim
        · obtain ⟨now, rfl, hk⟩ := hat.fact
          exact ⟨now, hat.mono fun _ => hk⟩
  · split <;> exact .raise fun w hI h => h

theorem spec_saveFile {bucket name : Str} {id : UUID} {ext contentType : Str}
    {data : Bytes} {length : Nat} {J E : Ledger → Prop}
    (hname : PhotoService.objectKey id ext = name)
    (hJ : Lasting M t own.locks J) (hE : Lasting M t own.locks E)
    (hfresh : ∀ L, Inv M L → K L → L.Fresh t id)
    (h : ∀ L, Inv M L → K L →
      J (L.setObject name (some ⟨data.take length, contentType⟩)))
    (he : ∀ L, Inv M L → K L → E L)
    (he' : ∀ L object, Inv M L → K L → E (L.setObject name object)) :
    Spec M t (At t arrival own K)
      (ObjectStorage.saveFile bucket name data length contentType)
      fun answer w => match answer with
      | .ok _ => At t arrival own J w
      | .error _ => At t arrival own E w := by
  unfold ObjectStorage.saveFile
  refine .bind (fun _ => At t arrival own K) ?_ fun _ =>
    .bind (fun _ => At t arrival own J) ?_ fun _ => .ret fun w hI h => h
  · rw [ObjectStorage.validateObjectName]
    split
    · exact .raise fun w hI hat => hat.mono (he _ hI)
    · exact .ret fun w hI hat => hat
  · refine .tryExcept (fun _ => At t arrival own E) ?_ fun exc => ?_
    · subst hname
      refine (spec_putObject hJ hE hfresh h he fun L => he' L _).post ?_
      rintro (exc | value) w hI hat <;> exact hat
    · split <;> exact .raise fun w hI h => h

/-! ## One photo -/

theorem Uploads.of_newPhoto {id : UUID} {file : UploadFile}
    {ext contentType traceId : Str} {batchId : Option UUID} {now : Time}
    (hvalid : PhotoService.validate file.data = .ok (ext, contentType))
    (hfits : (PhotoService.newPhoto id file.filename ext traceId batchId).fits) :
    Uploads file traceId batchId
      ((PhotoService.newPhoto id file.filename ext traceId batchId).row now) :=
  ⟨ext, contentType, now, hvalid, hfits, rfl⟩

/-- After its object is stored, a flushed row is a complete upload. -/
theorem Ledger.uploaded_of_stored {L : Ledger} {traceId : Str}
    {batchId : Option UUID} {file : UploadFile} {row : Photo}
    {ext contentType : Str}
    (hvalid : PhotoService.validate file.data = .ok (ext, contentType))
    (hup : Uploads file traceId batchId row) (hfresh : L.Fresh t row.photoId)
    (hkey : row.objectKey = PhotoService.objectKey row.photoId ext) :
    (L.setObject (PhotoService.objectKey row.photoId ext)
      (some ⟨file.data.take file.data.length, contentType⟩)).Uploaded t traceId
        batchId file row := by
  refine ⟨hup, hfresh, ext, contentType, hvalid, ?_⟩
  rw [hkey, List.take_length]
  simp [Ledger.setObject]

theorem Ledger.Uploaded.setObject {L : Ledger} {traceId : Str}
    {batchId : Option UUID} {file : UploadFile} {row : Photo} {id : UUID}
    {ext : Str} {object : Option StoredObject} (hne : row.photoId ≠ id)
    (h : L.Uploaded t traceId batchId file row) :
    (L.setObject (PhotoService.objectKey id ext) object).Uploaded t traceId
      batchId file row := by
  refine ⟨h.uploads, h.fresh, ?_⟩
  obtain ⟨ext', contentType, hvalid, hobject⟩ := h.stored
  obtain ⟨ext'', hkey⟩ := h.uploads.objectKey
  refine ⟨ext', contentType, hvalid, ?_⟩
  have hother : row.objectKey ≠ PhotoService.objectKey id ext := by
    rw [hkey]
    exact fun heq => hne (PhotoService.photoId_of_objectKey heq)
  simpa [Ledger.setObject, hother] using hobject

theorem createPhoto_spec (settings : Settings) {requestId : Str}
    {file : UploadFile} {before : List Tid} {position : Nat} :
    Spec M t (At t ⟨.createPhoto requestId file, before⟩
        ⟨[], position, .str requestId⟩ fun _ => True)
      (PhotoService.createPhoto settings file)
      fun _ => Over t ⟨.createPhoto requestId file, before⟩ position := by
  have htrue : ∀ locks, Lasting M t locks fun _ => True := fun _ => .const True
  generalize hown : (⟨[], position, .str requestId⟩ : Own) = own
  generalize harrival : (⟨.createPhoto requestId file, before⟩ : Arrival) = arrival
  have htrace : own.traceId = .str requestId := by rw [← hown]
  have hposition : own.position = position := by rw [← hown]
  have hwrites : own.writes = [] := by rw [← hown]
  clear hown
  subst hposition
  unfold PhotoService.createPhoto
  refine .bind (fun value w => PhotoService.validate file.data = .ok value ∧
    At t arrival own (fun _ => True) w) ?_ ?_
  · refine .ofExcept fun w hI hat => ?_
    split
    next heq => exact ⟨heq, hat⟩
    next => exact hat.over
  rintro ⟨ext, contentType⟩
  refine .assume fun hvalid => ?_
  refine .bind (fun id => At t arrival own (Ledger.Fresh · t id)) ?_ fun id => ?_
  · refine (spec_uuid4 (htrue _) .fresh
      fun L id hI _ _ _ hfresh _ => hfresh).post ?_
    rintro (exc | id) w hI h
    · exact h.elim
    · exact h
  refine .bind (fun traceId w => traceId = requestId ∧
    At t arrival own (Ledger.Fresh · t id) w) ?_ fun traceId => ?_
  · refine (spec_traceIdVar htrace (.fresh id)).post ?_
    rintro answer w hI ⟨rfl, hat⟩
    exact ⟨rfl, hat⟩
  refine .assume ?_
  rintro rfl
  generalize hkey : PhotoService.objectKey id ext = key
  refine .bind (fun _ w => ∃ row : Photo,
    (row.photoId = id ∧ row.objectKey = key ∧ Uploads file traceId none row) ∧
      At t arrival (own.add (.addPhoto row)) (Ledger.Fresh · t id) w) ?_ fun _ => ?_
  · refine (spec_create (W := fun row L =>
      (row.photoId = id ∧ row.objectKey = key ∧ Uploads file traceId none row) ∧
        L.Fresh t id) (E := fun _ => True)
      (fun row => (Lasting.const _).and (.fresh id)) (htrue _) ?_
      fun _ _ _ => trivial).post ?_
    · exact fun L now hI hfresh hfits =>
        ⟨⟨rfl, (PhotoService.cut_objectKey id hvalid).trans hkey,
          .of_newPhoto hvalid hfits⟩, hfresh⟩
    · rintro (exc | value) w hI h
      · exact h.over
      · obtain ⟨now, hat⟩ := h
        exact ⟨_, hat.fact.1, hat.mono fun h => h.2⟩
  refine .exists_ fun row => .assume ?_
  rintro ⟨rfl, hrow, hup⟩
  have hover : own.position = (own.add (.addPhoto row)).position := rfl
  rw [hover]
  refine .bind (fun _ => At t arrival (own.add (.addPhoto row))
    (Ledger.Uploaded · t traceId none file row)) ?_ fun _ => ?_
  · refine .tryExcept (fun _ => Over t arrival (own.add (.addPhoto row)).position)
      ?_ fun exc => ?_
    · refine (spec_saveFile hkey (.uploaded traceId none file row) (htrue _)
        (fun _ _ h => h) ?_ (fun _ _ _ => trivial) fun _ _ _ _ => trivial).post ?_
      · intro L hI hfresh
        subst hkey
        exact Ledger.uploaded_of_stored hvalid hup hfresh hrow
      · rintro (exc | value) w hI h
        · exact h.over
        · exact h
    · split
      · exact .seq _ (spec_harmless rfl (htrue _)) (fun _ => .seq _
          (spec_harmless rfl (htrue _)) (fun _ => .raise fun _ _ h => h)
          fun _ _ _ h => h) fun _ _ _ h => h
      · exact .raise fun w hI h => h
  refine .bind (fun _ => Over t arrival (own.add (.addPhoto row)).position) ?_
    fun _ => .seq _ (spec_harmless rfl (htrue _)) (fun _ => .ret fun _ _ h => h)
      fun _ _ _ h => h
  refine (spec_commit (J := fun _ => True) (E := fun _ _ => True) (htrue _)
    (fun _ => htrue _) ?_ (fun _ _ _ _ => trivial) (fun _ _ _ _ => trivial)
    fun _ _ _ _ _ => trivial).post ?_
  · intro L hI ha h
    rw [Own.add, hwrites]
    exact .upload (harrival ▸ ha) h.uploads h.fresh h.stored
  · rintro (exc | value) w hI h
    · exact h.over
    · exact h.over

/-! ## A batch -/

section

open PhotoService

/-- What the check of a file keeps of it. -/
structure PhotoService.ValidatedFile.Of (validated : ValidatedFile) (file : UploadFile) :
    Prop where
  valid : validate file.data = .ok (validated.ext, validated.contentType)
  filename : validated.filename = file.filename
  data : validated.data = file.data

theorem validateAll_ok {files : List UploadFile} {validated : List ValidatedFile}
    (h : validateAll files = .ok validated) :
    files.Forall₂ (fun file v => v.Of file) validated := by
  induction files generalizing validated with
  | nil =>
      cases h
      exact .nil
  | cons file files ih =>
      simp only [validateAll] at h
      cases hvalid : validate file.data with
      | error exc =>
          rw [hvalid] at h
          cases h
      | ok value =>
          cases hrest : validateAll files with
          | error exc =>
              rw [hvalid, hrest] at h
              cases h
          | ok rest =>
              rw [hvalid, hrest] at h
              cases h
              exact .cons ⟨hvalid, rfl, rfl⟩ (ih hrest)

theorem checkBatch_ok {files : List UploadFile} {validated : List ValidatedFile}
    (h : checkBatch files = .ok validated) :
    (2 ≤ files.length ∧ files.length ≤ 10) ∧
      files.Forall₂ (fun file v => v.Of file) validated := by
  simp only [checkBatch] at h
  split at h
  next => cases h
  next hcount =>
    refine ⟨not_not.mp hcount, ?_⟩
    cases hall : validateAll files with
    | error exc =>
        rw [hall] at h
        cases h
    | ok value =>
        rw [hall] at h
        change (if _ then _ else _) = _ at h
        split at h
        · cases h
        · cases h
          exact validateAll_ok hall

end

/-- A batch whose rows and objects are there but for the commit. -/
structure Ledger.Filling (L : Ledger) (t : Tid) (requestId : Str)
    (batchId : UUID) (files : List UploadFile) (rows : List Photo) : Prop where
  commits : L.commitsOf t = []
  batch : L.minted batchId = some t ∧ L.tables.batch batchId = none
  rows : files.Forall₂ (L.Uploaded t requestId (some batchId)) rows

theorem Lasting.filling (requestId : Str) (batchId : UUID)
    (files : List UploadFile) (rows : List Photo) :
    Lasting M t (fun _ => False)
      (Ledger.Filling · t requestId batchId files rows) := by
  have hcommits : Lasting M t (fun _ => False) fun L => L.commitsOf t = [] :=
    .commitsOf []
  have h := (hcommits.and (.noBatch batchId)).and (.forall₂ (fun file row =>
      .uploaded requestId (some batchId) file row) files rows)
  exact
    { others := fun L L' other hne hI hmove hk =>
        have hk' := h.others L L' other hne hI hmove ⟨⟨hk.commits, hk.batch⟩, hk.rows⟩
        ⟨hk'.1.1, hk'.1.2, hk'.2⟩
      quiet := fun L L' hI hquiet hk =>
        have hk' := h.quiet L L' hI hquiet ⟨⟨hk.commits, hk.batch⟩, hk.rows⟩
        ⟨hk'.1.1, hk'.1.2, hk'.2⟩ }

/-- A batch that is given up: its names are still nobody else's. -/
structure Ledger.Failing (L : Ledger) (t : Tid) (rows : List Photo) : Prop where
  commits : L.commitsOf t = []
  fresh : ∀ row ∈ rows, L.Fresh t row.photoId

theorem Lasting.failing (rows : List Photo) :
    Lasting M t (fun _ => False) (Ledger.Failing · t rows) := by
  have hcommits : Lasting M t (fun _ => False) fun L => L.commitsOf t = [] :=
    .commitsOf []
  have hfresh : ∀ row : Photo,
      Lasting M t (fun _ => False) (Ledger.Fresh · t row.photoId) :=
    fun row => .fresh row.photoId
  exact
    { others := fun L L' other hne hI hmove hk =>
        ⟨hcommits.others L L' other hne hI hmove hk.commits, fun row hrow =>
          (hfresh row).others L L' other hne hI hmove (hk.fresh row hrow)⟩
      quiet := fun L L' hI hquiet hk =>
        ⟨hcommits.quiet L L' hI hquiet hk.commits, fun row hrow =>
          (hfresh row).quiet L L' hI hquiet (hk.fresh row hrow)⟩ }

theorem Ledger.Filling.failing {L : Ledger} {requestId : Str} {batchId : UUID}
    {files : List UploadFile} {rows : List Photo}
    (h : L.Filling t requestId batchId files rows) : L.Failing t rows := by
  refine ⟨h.commits, fun row hrow => ?_⟩
  obtain ⟨file, -, hup⟩ := forall₂_right h.rows hrow
  exact hup.fresh

/-- The session of a batch whose rows have been flushed. -/
def batchOwn (position : Nat) (requestId : Str) (batchId : UUID) (now : Time)
    (rows : List Photo) : Own :=
  ⟨batchWrites batchId now rows, position, .str requestId⟩

theorem batchOwn_add {position : Nat} {requestId : Str} {batchId : UUID}
    {now : Time} {rows : List Photo} {row : Photo} :
    (batchOwn position requestId batchId now rows).add (.addPhoto row) =
      batchOwn position requestId batchId now (rows ++ [row]) := by
  simp [batchOwn, Own.add, batchWrites]

section

variable {settings : Settings} {requestId : Str} {batchId : UUID} {now : Time}
variable {position : Nat} {files : List UploadFile} {rows : List Photo}

/-- Rows with names and keys of their own. -/
structure Named (rows : List Photo) : Prop where
  nodup : (rows.map Photo.photoId).Nodup
  keys : ∀ row ∈ rows, ∃ ext, row.objectKey = PhotoService.objectKey row.photoId ext

theorem Named.append {row : Photo} (h : Named rows)
    (hne : ∀ row' ∈ rows, row'.photoId ≠ row.photoId)
    (hkey : ∃ ext, row.objectKey = PhotoService.objectKey row.photoId ext) :
    Named (rows ++ [row]) where
  nodup := by
    rw [List.map_append, List.nodup_append]
    refine ⟨h.nodup, by simp, ?_⟩
    intro a ha b hb
    obtain ⟨row', hrow', rfl⟩ := List.mem_map.mp ha
    rw [List.map_singleton, List.mem_singleton] at hb
    rw [hb]
    exact hne row' hrow'
  keys := by
    intro row' hrow'
    rcases List.mem_append.mp hrow' with hrow' | hrow'
    · exact h.keys row' hrow'
    · rw [List.mem_singleton.mp hrow']
      exact hkey

theorem storeFile_spec {file : UploadFile} {validated : PhotoService.ValidatedFile}
    (hof : validated.Of file) (hnamed : Named rows) :
    Spec M t (At t arrival (batchOwn position requestId batchId now rows)
        (Ledger.Filling · t requestId batchId files rows))
      (PhotoService.storeFile settings batchId requestId validated)
      fun answer w => match answer with
      | .ok stored => ∃ row, (stored = (row.photoId, row.objectKey) ∧
          Named (rows ++ [row])) ∧
          At t arrival (batchOwn position requestId batchId now (rows ++ [row]))
            (Ledger.Filling · t requestId batchId (files ++ [file]) (rows ++ [row])) w
      | .error _ => Adrift t arrival position (Ledger.Failing · t rows) w := by
  have hfill := Lasting.filling (M := M) (t := t) requestId batchId files rows
  have hfail := Lasting.failing (M := M) (t := t) rows
  unfold PhotoService.storeFile
  refine .bind (fun id w => (∀ row ∈ rows, row.photoId ≠ id) ∧
    At t arrival (batchOwn position requestId batchId now rows) (fun L =>
      L.Filling t requestId batchId files rows ∧ L.Fresh t id) w) ?_ fun id => ?_
  · refine (spec_uuid4 (J := fun id L => (∀ row ∈ rows, row.photoId ≠ id) ∧
      L.Filling t requestId batchId files rows ∧ L.Fresh t id) hfill.anyLocks
      (fun id => (Lasting.const _).and (hfill.anyLocks.and (.fresh id))) ?_).post ?_
    · rintro L id hI hk hk' hnone hfresh -
      refine ⟨fun row hrow heq => ?_, hk', hfresh⟩
      have := (hk.failing.fresh row hrow).1
      rw [heq, hnone] at this
      cases this
    · rintro (exc | id) w hI h
      · exact h.elim
      · exact ⟨h.fact.1, h.mono fun h => h.2⟩
  refine .assume fun hne => ?_
  generalize hkey : PhotoService.objectKey id validated.ext = key
  refine .bind (fun _ w => ∃ row : Photo, (row.photoId = id ∧
      row.objectKey = key ∧ Uploads file requestId (some batchId) row) ∧
    At t arrival (batchOwn position requestId batchId now (rows ++ [row])) (fun L =>
      L.Filling t requestId batchId files rows ∧ L.Fresh t id) w) ?_ fun _ => ?_
  · refine (spec_create (W := fun row L => (row.photoId = id ∧
        row.objectKey = key ∧ Uploads file requestId (some batchId) row) ∧
        L.Filling t requestId batchId files rows ∧ L.Fresh t id)
      (E := (Ledger.Failing · t rows))
      (fun row => (Lasting.const _).and (hfill.and (.fresh id))) hfail ?_
      fun L hI hk => hk.1.failing).post ?_
    · intro L now hI hk hfits
      rw [hof.filename] at hfits ⊢
      exact ⟨⟨rfl, (PhotoService.cut_objectKey id hof.valid).trans hkey,
        .of_newPhoto hof.valid hfits⟩, hk⟩
    · rintro (exc | value) w hI h
      · exact h.adrift
      · obtain ⟨now, hat⟩ := h
        rw [batchOwn_add] at hat
        exact ⟨_, hat.fact.1, hat.mono fun h => h.2⟩
  refine .exists_ fun row => .assume ?_
  rintro ⟨rfl, hrow, hup⟩
  have hnamed' : Named (rows ++ [row]) := hnamed.append hne hup.objectKey
  refine .bind (fun _ => At t arrival
    (batchOwn position requestId batchId now (rows ++ [row]))
    (Ledger.Filling · t requestId batchId (files ++ [file]) (rows ++ [row]))) ?_
    fun _ => .ret fun w hI hat => ⟨row, ⟨by rw [hrow], hnamed'⟩, hat⟩
  have hset : ∀ L object, Ledger.Failing L t rows →
      (L.setObject key object).Failing t rows :=
    fun L object h => ⟨h.commits, h.fresh⟩
  refine (spec_saveFile (J := (Ledger.Filling · t requestId batchId
    (files ++ [file]) (rows ++ [row]))) hkey (Lasting.filling ..).anyLocks
    hfail.anyLocks (fun L hI h => h.2) ?_ (fun L hI h => h.1.failing)
    fun L object hI h => hset L object h.1.failing).post ?_
  · rintro L hI ⟨hk, hfresh⟩
    refine ⟨hk.commits, hk.batch, List.rel_append ?_ (.cons ?_ .nil)⟩
    · subst hkey
      exact forall₂_imp_mem hk.rows fun file' row' hmem hup' =>
        hup'.setObject (hne row' hmem)
    · subst hkey
      rw [hof.data]
      exact Ledger.uploaded_of_stored hof.valid hup hfresh hrow
  · rintro (exc | value) w hI h
    · exact h.adrift
    · exact h

theorem deleteAll_spec {keys : List Str} (hkeys : ∀ key ∈ keys, ∃ row ∈ rows,
    ∃ ext, key = PhotoService.objectKey row.photoId ext) :
    Spec M t (At t arrival own (Ledger.Failing · t rows))
      (PhotoService.deleteAll keys)
      fun _ => At t arrival own (Ledger.Failing · t rows) := by
  have hfail := Lasting.failing (M := M) (t := t) rows
  induction keys with
  | nil => exact .ret fun w hI h => h
  | cons key keys ih =>
      have hrest := ih fun key' hkey' => hkeys key' (List.mem_cons_of_mem key hkey')
      refine .seq _ ?_ (fun _ => hrest) fun _ _ _ h => h
      obtain ⟨row, hrow, ext, rfl⟩ := hkeys _ List.mem_cons_self
      refine .tryExcept (fun _ => At t arrival own (Ledger.Failing · t rows)) ?_
        fun exc => ?_
      · refine (spec_removeObject hfail.anyLocks (fun L hI h => h.fresh row hrow)
          fun L hI h => ⟨h.commits, h.fresh⟩).post ?_
        rintro (exc | value) w hI h <;> exact h
      · split
        · exact .ret fun w hI h => h
        · exact .raise fun w hI h => h

theorem abandonBatch_spec {keys : List Str} (hkeys : ∀ key ∈ keys, ∃ row ∈ rows,
    ∃ ext, key = PhotoService.objectKey row.photoId ext) :
    Spec M t (Adrift t arrival position (Ledger.Failing · t rows))
      (PhotoService.abandonBatch keys) fun answer w => match answer with
      | .ok _ => False
      | .error _ => Adrift t arrival position (Ledger.Failing · t rows) w := by
  have hfail := Lasting.failing (M := M) (t := t) rows
  unfold PhotoService.abandonBatch
  refine .seq _ (spec_harmless rfl hfail) (fun _ => .seq _
    (spec_harmless rfl hfail) (fun _ => ?_) fun _ _ _ h => h) fun _ _ _ h => h
  refine .exists_ fun own => .assume ?_
  rintro rfl
  exact .seq _ (deleteAll_spec hkeys) (fun _ => .raise fun w hI h => h.adrift)
    fun exc w hI h => h.adrift

theorem storeFiles_spec (files : List UploadFile) {rest : List UploadFile}
    {validated : List PhotoService.ValidatedFile}
    (hof : rest.Forall₂ (fun file v => v.Of file) validated)
    (hnamed : Named rows) :
    Spec M t (At t arrival (batchOwn position requestId batchId now rows)
        (Ledger.Filling · t requestId batchId files rows))
      (PhotoService.storeFiles settings batchId requestId validated
        (rows.map Photo.photoId) (rows.map Photo.objectKey))
      fun answer w => match answer with
      | .ok photos => ∃ rows', (photos = rows'.map Photo.photoId ∧
          Named rows') ∧
          At t arrival (batchOwn position requestId batchId now rows')
            (Ledger.Filling · t requestId batchId (files ++ rest) rows') w
      | .error _ => Adrift t arrival position (fun L => L.commitsOf t = []) w := by
  induction hof generalizing files rows with
  | nil =>
      refine .ret fun w hI h => ⟨rows, ⟨rfl, hnamed⟩, ?_⟩
      rw [List.append_nil]
      exact h
  | @cons file v rest validated hv _ ih =>
      unfold PhotoService.storeFiles
      refine .bind (fun outcome w => match outcome with
        | .ok stored => ∃ row, (stored = (row.photoId, row.objectKey) ∧
            Named (rows ++ [row])) ∧
            At t arrival (batchOwn position requestId batchId now (rows ++ [row]))
              (Ledger.Filling · t requestId batchId (files ++ [file]) (rows ++ [row])) w
        | .error _ => Adrift t arrival position (Ledger.Failing · t rows) w) ?_ ?_
      · refine .attempt ((storeFile_spec hv hnamed).post ?_)
        rintro (exc | stored) w hI h <;> exact h
      rintro (exc | stored)
      · dsimp only
        split
        · refine (abandonBatch_spec fun key hkey => ?_).post ?_
          · obtain ⟨row, hrow, rfl⟩ := List.mem_map.mp hkey
            exact ⟨row, hrow, hnamed.keys row hrow⟩
          · rintro (exc' | photos) w hI h
            · exact h.mono fun h => h.commits
            · exact h.elim
        · exact .raise fun w hI h => h.mono fun h => h.commits
      · refine .exists_ fun row => .assume ?_
        rintro ⟨rfl, hnamed'⟩
        have hrest := ih (files ++ [file]) hnamed'
        simp only [List.map_append, List.map_singleton, List.append_assoc,
          List.singleton_append] at hrest
        exact hrest

end

theorem Ledger.commitsOf_commit (L : Ledger) (ws : List Write) :
    (L.commit t ws).commitsOf t = ws :: L.commitsOf t := by
  simp [commitsOf, commit]

theorem Lasting.batchReply (requestId : Str) (files : List UploadFile)
    (reply : Reply) :
    Lasting M t (fun _ => False) fun L =>
      L.BatchEnds t requestId files (.ok reply) :=
  .exists_ fun _ => .exists_ fun _ => .exists_ fun _ =>
    (Lasting.commitsOf _).and (.const _)

theorem Lasting.batchError (requestId : Str) (files : List UploadFile)
    (exc : PyExc) :
    Lasting M t (fun _ => False) fun L =>
      L.BatchEnds t requestId files (.error exc) := by
  refine (Lasting.commitsOf []).or (.of_growing ?_)
  rintro L L' - hg ⟨pending, hraised, hcommitted⟩
  exact ⟨pending, hg.events _ hraised, hg.events _ hcommitted⟩

/-- The insert of the batch row. -/
theorem createRow_spec {requestId : Str} {batchId : UUID} {position : Nat} :
    Spec M t (At t arrival ⟨[], position, .str requestId⟩
        (Ledger.Filling · t requestId batchId [] []))
      (BatchRepository.create batchId .processing) fun answer w => match answer with
      | .ok _ => ∃ now, At t arrival (batchOwn position requestId batchId now [])
          (Ledger.Filling · t requestId batchId [] []) w
      | .error _ => Adrift t arrival position (fun L => L.commitsOf t = []) w := by
  have hfill := Lasting.filling (M := M) (t := t) requestId batchId [] []
  refine .bind (fun _ w => ∃ now, At t arrival
    (batchOwn position requestId batchId now [])
    (Ledger.Filling · t requestId batchId [] []) w) ?_ fun _ => .ret fun w hI h => h
  refine (spec_execute (N := fun _ => False)
    (W := fun write L => ∃ now, write = .addBatch ⟨batchId, .processing, none, now⟩ ∧
      L.Filling t requestId batchId [] []) (E := fun _ L => L.commitsOf t = [])
    (.const False) (fun write => .exists_ fun now =>
      (Lasting.const _).and hfill.anyLocks) (fun _ => .commitsOf []) ?_ ?_ ?_).post ?_
  · intro L now hI hk hres
    simp only [Stmt.resolve] at hres
    split at hres <;> cases hres
  · intro L now write hI hk hres
    simp only [Stmt.resolve] at hres
    split at hres
    · cases hres
    · cases hres
      exact ⟨now, rfl, hk⟩
  · exact fun L exc hI hk => hk.commits
  · rintro (exc | rowcount) w hI h
    · exact h.adrift
    · rcases h with ⟨-, hat⟩ | ⟨-, write, hat⟩
      · exact hat.fact.elim
      · obtain ⟨now, rfl, hk⟩ := hat.fact
        exact ⟨now, hat.mono fun _ => hk⟩

theorem createBatch_spec (settings : Settings) {requestId : Str}
    {files : List UploadFile} {before : List Tid} {position : Nat} :
    Spec M t (At t ⟨.createBatch requestId files, before⟩
        ⟨[], position, .str requestId⟩ fun L => L.commitsOf t = [])
      (PhotoService.createBatch settings files) fun answer =>
        Adrift t ⟨.createBatch requestId files, before⟩ position fun L =>
          L.BatchEnds t requestId files answer := by
  generalize harrival : (⟨.createBatch requestId files, before⟩ : Arrival) = arrival
  unfold PhotoService.createBatch
  refine .bind (fun validated w => PhotoService.checkBatch files = .ok validated ∧
    At t arrival ⟨[], position, .str requestId⟩ (fun L => L.commitsOf t = []) w)
    ?_ fun validated => ?_
  · refine .ofExcept fun w hI hat => ?_
    split
    next heq => exact ⟨heq, hat⟩
    next => exact hat.adrift.mono .inl
  refine .assume fun hcheck => ?_
  obtain ⟨hcount, hof⟩ := checkBatch_ok hcheck
  refine .bind (fun batchId => At t arrival ⟨[], position, .str requestId⟩
    (Ledger.Filling · t requestId batchId [] [])) ?_ fun batchId => ?_
  · refine (spec_uuid4 (.commitsOf []) (fun id => (Lasting.filling requestId ..).anyLocks)
      fun L id hI hk hk' hnone hfresh hbatch =>
        ⟨hk', ⟨hfresh.1, hbatch⟩, .nil⟩).post ?_
    rintro (exc | id) w hI h
    · exact h.elim
    · exact h
  refine .bind (fun _ w => ∃ now, At t arrival
    (batchOwn position requestId batchId now [])
    (Ledger.Filling · t requestId batchId [] []) w) ?_ fun _ => ?_
  · refine createRow_spec.post ?_
    rintro (exc | value) w hI h
    · exact h.mono .inl
    · exact h
  refine .exists_ fun now => ?_
  refine .bind (fun traceId w => traceId = requestId ∧ At t arrival
    (batchOwn position requestId batchId now [])
    (Ledger.Filling · t requestId batchId [] []) w) ?_ fun traceId => ?_
  · refine (spec_traceIdVar rfl (Lasting.filling ..).anyLocks).post ?_
    rintro answer w hI ⟨rfl, hat⟩
    exact ⟨rfl, hat⟩
  refine .assume ?_
  rintro rfl
  refine .bind (fun photos w => ∃ rows, (photos = rows.map Photo.photoId ∧
    Named rows) ∧ At t arrival (batchOwn position traceId batchId now rows)
      (Ledger.Filling · t traceId batchId files rows) w) ?_ fun photos => ?_
  · have hnone : Named [] := ⟨.nil, by simp⟩
    refine (storeFiles_spec [] hof hnone).post ?_
    rintro (exc | photos) w hI h
    · exact h.mono .inl
    · exact h
  refine .exists_ fun rows => .assume ?_
  rintro ⟨rfl, hnamed⟩
  generalize hreply : Reply.batchAccepted batchId.text
    ((rows.map Photo.photoId).map fun id => ⟨id.text, py "pending"⟩) = reply
  have hends : Lasting M t (fun _ => False) fun L =>
    L.BatchEnds t traceId files (.ok reply) := .batchReply traceId files reply
  refine .bind (fun _ => Adrift t arrival position fun L =>
    L.BatchEnds t traceId files (.ok reply)) ?_ fun _ => ?_
  · refine (spec_commit (E := fun exc L => L.BatchEnds t traceId files (.error exc))
      hends (.batchError traceId files) ?_ ?_ ?_ ?_).post ?_
    · intro L hI ha h
      refine .batch (harrival ▸ ha) h.batch.1 h.batch.2 hcount ?_ hnamed.nodup
      exact h.rows.imp fun file row hup => ⟨hup.uploads, hup.fresh, hup.stored⟩
    · intro L hI ha h
      refine ⟨batchId, now, rows, ?_, h.rows.imp fun _ _ hup => hup.uploads,
        hnamed.nodup, by rw [← hreply, List.map_map]; rfl⟩
      rw [L.commitsOf_commit, h.commits]
      rfl
    · exact fun L exc hI h => .inl h.commits
    · exact fun L exc hI ha h => .inr ⟨_, List.mem_cons_self,
        List.mem_cons_of_mem _ List.mem_cons_self⟩
    · rintro (exc | value) w hI h
      · exact h.adrift
      · exact h.adrift
  · refine .bind (fun _ => Adrift t arrival position fun L =>
      L.BatchEnds t traceId files (.ok reply)) ?_ fun _ => .ret fun w hI h => h
    refine (spec_sure rfl (spec_harmless rfl hends)).post ?_
    rintro (exc | value) w hI h
    · exact h.elim
    · exact h

end PhotoAnalysis

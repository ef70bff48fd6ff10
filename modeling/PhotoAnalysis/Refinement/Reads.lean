import PhotoAnalysis.Refinement.Facts

/-!
# Reading a batch

`get_batch` reads the batch, its photos and their analyses one after the other,
while the workers go on.  What it reads of a photo is true of the photo at the
last of these moments if the photo was terminal at the first.
-/

namespace PhotoAnalysis

open Foundation Program

variable {M : Nat} {t : Tid} {arrival : Arrival} {own : Own}
variable {batchId : UUID} {seen : Prop}

theorem Ledger.SeenCompleted.mono {L L' : Ledger} (hg : Grows L L')
    {before : List Tid} (h : L.SeenCompleted batchId before) :
    L'.SeenCompleted batchId before := by
  obtain ⟨t', hmem, response, hanswered, hc⟩ := h
  exact ⟨t', hmem, response, hanswered.mono hg, hc⟩

theorem completed_batchResponse (photos : List LoadedPhoto) :
    Ledger.completed (BatchService.batchResponse batchId photos) ↔
      BatchService.allTerminal photos := by
  have hne : py "processing" ≠ py "completed" := by decide
  by_cases h : BatchService.allTerminal photos <;>
    simp [Ledger.completed, BatchService.batchResponse, h, hne]

/-- What a reader was told earlier is settled: `seen` cannot change any more. -/
structure Ledger.Reading (L : Ledger) (t : Tid) (arrival : Arrival)
    (batchId : UUID) (seen : Prop) : Prop where
  arrived : L.arrivals t = some arrival
  seen : L.SeenCompleted batchId arrival.before ↔ seen

theorem Growing.reading (t : Tid) (arrival : Arrival) (batchId : UUID)
    (seen : Prop) : Growing M (Ledger.Reading · t arrival batchId seen) :=
  fun _ _ hI hg h => ⟨hg.arrivals _ _ h.arrived,
    ⟨fun hs => h.seen.mp (hI.seenCompleted_mono hg h.arrived batchId hs),
      fun hs => (h.seen.mpr hs).mono hg⟩⟩

/-- Once a batch has been seen completed its photos are all terminal. -/
theorem Ledger.Reading.final {L : Ledger} (hI : Inv M L)
    (h : L.Reading t arrival batchId seen) (hs : seen) :
    BatchService.allTerminal (L.tables.members batchId) := by
  obtain ⟨t', -, response, ⟨requestId, before, ha, ho⟩, hc⟩ := h.seen.mpr hs
  obtain ⟨hfinal, -⟩ := hI.ends t' _ _ ha ho
  exact (hfinal response rfl hc).1

/-- The batch row is there, and it stays. -/
structure Ledger.Found (L : Ledger) (t : Tid) (arrival : Arrival)
    (batchId : UUID) (seen : Prop) : Prop where
  reading : L.Reading t arrival batchId seen
  batch : (L.tables.batch batchId).isSome

theorem Growing.found (t : Tid) (arrival : Arrival) (batchId : UUID)
    (seen : Prop) : Growing M (Ledger.Found · t arrival batchId seen) :=
  fun L L' hI hg h =>
    ⟨Growing.reading _ _ _ _ L L' hI hg h.reading, hg.batch batchId h.batch⟩

/-- The rows of the photos as they were read, against what they are now. -/
structure Ledger.PhotosRead (L : Ledger) (t : Tid) (arrival : Arrival)
    (batchId : UUID) (seen : Prop) (photos : List Photo) : Prop where
  found : L.Found t arrival batchId seen
  rows : photos.Forall₂ (fun photo b => ∃ a : LoadedPhoto, a.photo = photo ∧
    LoadedPhoto.Later a b) (L.tables.members batchId)
  final : seen → photos ≠ [] ∧ ∀ photo ∈ photos, photo.status.terminal

/-- The photos with their analyses as they were read. -/
structure Ledger.AllRead (L : Ledger) (t : Tid) (arrival : Arrival)
    (batchId : UUID) (seen : Prop) (photos : List LoadedPhoto) : Prop where
  found : L.Found t arrival batchId seen
  rows : photos.Forall₂ LoadedPhoto.ReadOf (L.tables.members batchId)
  final : seen → BatchService.allTerminal photos

theorem forall₂_members {α : Type} {R : α → LoadedPhoto → Prop}
    {l : List α} {l' l'' : List LoadedPhoto} (h : l.Forall₂ R l')
    (h' : l'.Forall₂ LoadedPhoto.Later l'')
    (htrans : ∀ a b c, R a b → LoadedPhoto.Later b c → R a c) :
    l.Forall₂ R l'' := by
  induction h generalizing l'' with
  | nil => cases h'; exact .nil
  | cons hab _ ih =>
      cases h' with
      | cons hbc hrest => exact .cons (htrans _ _ _ hab hbc) (ih hrest)

theorem Growing.photosRead (photos : List Photo) :
    Growing M (Ledger.PhotosRead · t arrival batchId seen photos) := by
  intro L L' hI hg h
  refine ⟨Growing.found _ _ _ _ L L' hI hg h.found, ?_, h.final⟩
  refine forall₂_members h.rows (hg.members batchId h.found.batch) ?_
  rintro photo b c ⟨a, ha, hab⟩ hbc
  exact ⟨a, ha, hab.trans hbc⟩

theorem Growing.allRead (photos : List LoadedPhoto) :
    Growing M (Ledger.AllRead · t arrival batchId seen photos) := by
  intro L L' hI hg h
  refine ⟨Growing.found _ _ _ _ L L' hI hg h.found, ?_, h.final⟩
  exact forall₂_members h.rows (hg.members batchId h.found.batch)
    fun _ _ _ hab hbc => hab.trans hbc

/-- Reading the photos. -/
theorem Ledger.Found.readPhotos {L : Ledger} (hI : Inv M L)
    (h : L.Found t arrival batchId seen) :
    L.PhotosRead t arrival batchId seen (L.tables.batchPhotos batchId) := by
  refine ⟨h, ?_, fun hs => ?_⟩
  · rw [Tables.members, List.forall₂_map_right_iff, List.forall₂_same]
    exact fun photo _ => ⟨_, rfl, .refl _⟩
  · obtain ⟨hne, hall⟩ := Ledger.allTerminal_iff.mp (h.reading.final hI hs)
    refine ⟨fun hnil => hne (by rw [Tables.members, hnil]; rfl), ?_⟩
    intro photo hmem
    exact hall _ (List.mem_map_of_mem hmem)

theorem find_analyses {T : Tables} {photo : Photo} {photos : List Photo}
    (h : photo ∈ photos) :
    (T.analyses.rows.filter fun row => row.photoId ∈ photos.map Photo.photoId).find?
      (fun row => row.photoId = photo.photoId) = T.analysis photo.photoId := by
  have hmem : photo.photoId ∈ photos.map Photo.photoId := List.mem_map_of_mem h
  rw [List.find?_filter]
  refine congrArg (fun p => T.analyses.rows.find? p) (funext fun row => ?_)
  by_cases heq : row.photoId = photo.photoId
  · simp [heq, hmem]
  · simp [heq]

/-- Reading their analyses. -/
theorem Ledger.PhotosRead.readAnalyses {L : Ledger} {photos : List Photo}
    (h : L.PhotosRead t arrival batchId seen photos) :
    L.AllRead t arrival batchId seen (photos.map fun photo =>
      ⟨photo, L.tables.analysis photo.photoId⟩) := by
  refine ⟨h.found, ?_, fun hs => ?_⟩
  · rw [List.forall₂_map_left_iff]
    refine forall₂_imp_mem h.rows ?_
    rintro photo b hmem ⟨a, rfl, hab⟩
    refine ⟨hab.identity, fun ha => ⟨(hab.final ha).1, ?_⟩⟩
    have hb := Tables.loaded_eq_some.mp (Tables.loaded_of_mem_members hmem).1
    rw [← hb.2, hab.photoId]
  · obtain ⟨hne, hall⟩ := h.final hs
    rw [Ledger.allTerminal_iff]
    refine ⟨by simpa using hne, ?_⟩
    simpa using hall

/-! ## The program -/

/-- Some operation of the task has raised the exception. -/
def Ledger.RaisedBy (L : Ledger) (t : Tid) (exc : PyExc) : Prop :=
  ∃ op pending, Event.raised t op pending exc ∈ L.events

theorem Growing.raisedBy (t : Tid) (exc : PyExc) :
    Growing M (Ledger.RaisedBy · t exc) :=
  fun _ _ _ hg ⟨op, pending, hmem⟩ => ⟨op, pending, hg.events _ hmem⟩

theorem Ledger.raisedBy_note (L : Ledger) (op : Op) (pending : List Write)
    (exc : PyExc) : (L.note (.raised t op pending exc)).RaisedBy t exc :=
  ⟨op, pending, List.mem_cons_self⟩

theorem Ledger.RaisedBy.readEnds {L : Ledger} {exc : PyExc} {before : List Tid}
    (h : L.RaisedBy t exc) : L.ReadEnds t batchId before (.error exc) := by
  obtain ⟨op, pending, hmem⟩ := h
  exact ⟨nofun, fun _ => .inr ⟨op, pending, exc, rfl, hmem⟩⟩

theorem Ledger.AllRead.readEnds {L : Ledger} {photos : List LoadedPhoto}
    (h : L.AllRead t arrival batchId seen photos) :
    L.ReadEnds t batchId arrival.before
      (.ok (.batch (BatchService.batchResponse batchId photos))) := by
  refine ⟨fun response heq hc => ?_, fun hs => .inl ⟨_, rfl, ?_⟩⟩
  · rw [Except.ok.injEq, Reply.batch.injEq] at heq
    rw [← heq] at hc ⊢
    have hall := (completed_batchResponse photos).mp hc
    have halike := Ledger.alike_of_terminal h.rows (Ledger.allTerminal_iff.mp hall).2
    exact ⟨(Ledger.allTerminal_congr halike).trans hall,
      (Ledger.batchResponse_congr halike batchId).symm⟩
  · exact (completed_batchResponse photos).mpr
      (h.final (h.found.reading.seen.mp hs))

section

variable {position : Nat} {traceId : Json}

theorem loadAnalyses_spec (photos : List Photo) :
    Spec M t (At t arrival ⟨[], position, traceId⟩
        (Ledger.PhotosRead · t arrival batchId seen photos))
      (loadAnalyses photos) fun answer w => match answer with
      | .ok loaded => At t arrival ⟨[], position, traceId⟩
          (Ledger.AllRead · t arrival batchId seen loaded) w
      | .error exc => Adrift t arrival position (Ledger.RaisedBy · t exc) w := by
  unfold loadAnalyses
  split
  next hempty =>
    refine .ret fun w hI h => h.mono fun h => ?_
    rw [List.isEmpty_iff] at hempty
    subst hempty
    exact h.readAnalyses
  next =>
    refine .bind (fun rows => At t arrival ⟨[], position, traceId⟩
      (Ledger.AllRead · t arrival batchId seen (photos.map fun photo =>
        ⟨photo, rows.find? fun row => row.photoId = photo.photoId⟩))) ?_
      fun rows => .ret fun w hI h => h
    refine (spec_select (.analyses (photos.map Photo.photoId))
      (J := fun rows => (Ledger.AllRead · t arrival batchId seen
      (photos.map fun photo =>
        ⟨photo, rows.find? fun row => row.photoId = photo.photoId⟩)))
      (E := fun exc => (Ledger.RaisedBy · t exc))
      (fun rows => .of_growing (.allRead _)) (fun exc => .of_growing (.raisedBy t exc))
      ?_ fun L exc _ _ => L.raisedBy_note ..).post ?_
    · intro L order rows hI h hrows
      simp only [Query.answer, Option.some.injEq] at hrows
      have hmap : (photos.map fun photo => (⟨photo, rows.find? fun row =>
          row.photoId = photo.photoId⟩ : LoadedPhoto)) =
          photos.map fun photo => ⟨photo, L.tables.analysis photo.photoId⟩ := by
        refine List.map_congr_left fun photo hmem => ?_
        rw [← hrows, show (⟨[], position, traceId⟩ : Own).view L = L.tables from rfl,
          find_analyses hmem]
      rw [hmap]
      exact h.readAnalyses
    · rintro (exc | rows) w hI h
      · exact h.adrift
      · exact h

/-- What the query for the batch has told. -/
def Sought (t : Tid) (arrival : Arrival) (batchId : UUID) (seen : Prop)
    (found : Option Batch) (L : Ledger) : Prop :=
  match found with
  | some batch => batch.batchId = batchId ∧ L.Found t arrival batchId seen
  | none => ¬seen ∧ L.Reading t arrival batchId seen

theorem getById_spec :
    Spec M t (At t arrival ⟨[], position, traceId⟩
        (Ledger.Reading · t arrival batchId seen))
      (BatchRepository.getById batchId) fun answer w => match answer with
      | .ok (some loaded) => At t arrival ⟨[], position, traceId⟩ (fun L =>
          loaded.batch.batchId = batchId ∧
            L.AllRead t arrival batchId seen loaded.photos) w
      | .ok none => At t arrival ⟨[], position, traceId⟩ (fun L =>
          ¬seen ∧ L.Reading t arrival batchId seen) w
      | .error exc => Adrift t arrival position (Ledger.RaisedBy · t exc) w := by
  unfold BatchRepository.getById
  refine .bind (fun found => At t arrival ⟨[], position, traceId⟩
    (Sought t arrival batchId seen found)) ?_ ?_
  · refine (spec_select (.batch batchId) (J := Sought t arrival batchId seen)
      (E := fun exc => (Ledger.RaisedBy · t exc)) ?_
      (fun exc => .of_growing (.raisedBy t exc))
      ?_ fun L exc _ _ => L.raisedBy_note ..).post ?_
    · rintro (_ | batch)
      · exact (Lasting.const _).and (.of_growing (.reading _ _ _ _))
      · exact (Lasting.const _).and (.of_growing (.found _ _ _ _))
    · intro L order found hI h hfound
      obtain rfl : L.tables.batch batchId = found := Option.some.inj hfound
      cases hb : L.tables.batch batchId with
      | none =>
          refine ⟨fun hs => ?_, h⟩
          have := hI.batch_of_members (h.final hI hs)
          simp [hb] at this
      | some batch => exact ⟨Table.key_of_find hb, h, by simp [hb]⟩
    · rintro (exc | _ | batch) w hI h
      · exact h.adrift
      · exact h
      · exact h
  rintro (_ | batch)
  · exact .ret fun w hI h => h
  refine .bind (fun photos => At t arrival ⟨[], position, traceId⟩ fun L =>
    batch.batchId = batchId ∧ L.PhotosRead t arrival batchId seen photos) ?_
    fun photos => ?_
  · refine (spec_select (.batchPhotos batchId) (J := fun photos L =>
      batch.batchId = batchId ∧ L.PhotosRead t arrival batchId seen photos)
      (E := fun exc => (Ledger.RaisedBy · t exc))
      (fun photos => (Lasting.const _).and (.of_growing (.photosRead photos)))
      (fun exc => .of_growing (.raisedBy t exc))
      ?_ fun L exc _ _ => L.raisedBy_note ..).post ?_
    · rintro L order photos hI ⟨hid, h⟩ hphotos
      obtain rfl : L.tables.batchPhotos batchId = photos := Option.some.inj hphotos
      exact ⟨hid, h.readPhotos hI⟩
    · rintro (exc | photos) w hI h
      · exact h.adrift
      · exact h
  intro w hI hat
  refine Discipline.Triple.bind (fun loaded => At t arrival ⟨[], position, traceId⟩
    (Ledger.AllRead · t arrival batchId seen loaded))
    ((loadAnalyses_spec photos).post ?_)
    (fun loaded => .ret fun w hI h => h.mono fun h => ⟨hat.fact.1, h⟩) w hI
    (hat.mono fun h => h.2)
  rintro (exc | loaded) w hI h
  · exact h
  · exact h

theorem Ledger.AllRead.complete {L : Ledger} {photos : List LoadedPhoto}
    (h : L.AllRead t arrival batchId seen photos)
    (hall : BatchService.allTerminal photos) :
    Tx M t L [.setBatch batchId .completed (BatchService.selectBestPhoto photos)] := by
  have halike := Ledger.alike_of_terminal h.rows (Ledger.allTerminal_iff.mp hall).2
  rw [← Ledger.selectBestPhoto_congr halike]
  exact .complete h.found.batch ((Ledger.allTerminal_congr halike).trans hall)

/-- The write-through of a completed batch. -/
theorem writeThrough_spec {photos : List LoadedPhoto}
    (hall : BatchService.allTerminal photos) :
    Spec M t (At t arrival ⟨[], position, traceId⟩
        (Ledger.AllRead · t arrival batchId seen photos))
      (do BatchRepository.markCompleted batchId (BatchService.selectBestPhoto photos)
          wait .commit) fun answer w => match answer with
      | .ok _ => Adrift t arrival position
          (Ledger.AllRead · t arrival batchId seen photos) w
      | .error exc => Adrift t arrival position (Ledger.RaisedBy · t exc) w := by
  have hread : ∀ locks, Lasting M t locks
      (Ledger.AllRead · t arrival batchId seen photos) :=
    fun _ => .of_growing (.allRead photos)
  have hraised : ∀ exc, Lasting M t (fun _ => False) (Ledger.RaisedBy · t exc) :=
    fun exc => .of_growing (.raisedBy t exc)
  have hstep : ∀ own : Own, own.position = position →
      (∀ L, L.AllRead t arrival batchId seen photos → Tx M t L own.writes) →
      Spec M t (At t arrival own (Ledger.AllRead · t arrival batchId seen photos))
        (wait .commit) fun answer w => match answer with
        | .ok _ => Adrift t arrival position
            (Ledger.AllRead · t arrival batchId seen photos) w
        | .error exc => Adrift t arrival position (Ledger.RaisedBy · t exc) w := by
    rintro own rfl htx
    refine (spec_commit (E := fun exc => (Ledger.RaisedBy · t exc)) (hread _) hraised
      (fun L _ _ h => htx L h) ?_ (fun L exc _ _ => L.raisedBy_note ..)
      fun L exc _ _ _ => (L.commit t own.writes).raisedBy_note ..).post ?_
    · intro L hI ha h
      exact Growing.allRead photos L _ hI (hI.grows_commit (htx L h)) h
    · rintro (exc | value) w hI h
      · exact h.adrift
      · exact h.adrift
  refine .bind (fun _ w => ∃ writes, (writes = [] ∨ writes =
    [.setBatch batchId .completed (BatchService.selectBestPhoto photos)]) ∧
      At t arrival ⟨writes, position, traceId⟩
        (Ledger.AllRead · t arrival batchId seen photos) w) ?_ fun _ => ?_
  · refine .bind (fun _ w => ∃ writes, (writes = [] ∨ writes =
      [.setBatch batchId .completed (BatchService.selectBestPhoto photos)]) ∧
        At t arrival ⟨writes, position, traceId⟩
          (Ledger.AllRead · t arrival batchId seen photos) w) ?_
      fun _ => .ret fun w hI h => h
    refine (spec_execute (N := (Ledger.AllRead · t arrival batchId seen photos))
      (W := fun write L => write = .setBatch batchId .completed
        (BatchService.selectBestPhoto photos) ∧
          L.AllRead t arrival batchId seen photos)
      (E := fun exc => (Ledger.RaisedBy · t exc)) (hread _)
      (fun write => (Lasting.const _).and (hread _)) hraised
      (fun L now hI h _ => h) ?_ fun L exc _ _ => L.raisedBy_note ..).post ?_
    · intro L now write hI h hres
      simp only [Stmt.resolve] at hres
      split at hres
      · cases hres
      · split at hres <;> cases hres
        exact ⟨rfl, h⟩
    · rintro (exc | rowcount) w hI h
      · exact h.adrift
      · rcases h with ⟨-, hat⟩ | ⟨-, write, hat⟩
        · exact ⟨[], .inl rfl, hat⟩
        · obtain ⟨rfl, h⟩ := hat.fact
          exact ⟨_, .inr rfl, hat.mono fun _ => h⟩
  · refine .exists_ fun writes => .assume ?_
    rintro (rfl | rfl)
    · exact hstep ⟨[], position, traceId⟩ rfl fun L h => .nothing
    · exact hstep ⟨[_], position, traceId⟩ rfl fun L h => h.complete hall

theorem getBatch_spec :
    Spec M t (At t arrival ⟨[], position, traceId⟩
        (Ledger.Reading · t arrival batchId seen))
      (BatchService.getBatch batchId) fun answer => Adrift t arrival position fun L =>
        L.ReadEnds t batchId arrival.before answer := by
  unfold BatchService.getBatch
  refine .bind (fun found w => match found with
    | some loaded => loaded.batch.batchId = batchId ∧
        At t arrival ⟨[], position, traceId⟩
          (Ledger.AllRead · t arrival batchId seen loaded.photos) w
    | none => ¬seen ∧ At t arrival ⟨[], position, traceId⟩
        (Ledger.Reading · t arrival batchId seen) w) ?_ ?_
  · refine getById_spec.post ?_
    rintro (exc | _ | loaded) w hI h
    · exact h.mono fun h => h.readEnds
    · exact ⟨h.fact.1, h.mono fun h => h.2⟩
    · exact ⟨h.fact.1, h.mono fun h => h.2⟩
  rintro (_ | ⟨batch, photos⟩)
  · refine .assume fun hseen => .raise fun w hI h => h.adrift.mono fun h => ⟨nofun, ?_⟩
    exact fun hs => absurd (h.seen.mp hs) hseen
  refine .assume ?_
  dsimp only
  rintro rfl
  split
  next hcond =>
    rw [bind_eq, bind_eq, ← bind_assoc]
    refine .bind (fun _ => Adrift t arrival position
      (Ledger.AllRead · t arrival batch.batchId seen photos)) ?_
      fun _ => .ret fun w hI h => h.mono fun h => h.readEnds
    refine (writeThrough_spec hcond.1).post ?_
    rintro (exc | value) w hI h
    · exact h.mono fun h => h.readEnds
    · exact h
  next => exact .ret fun w hI h => h.adrift.mono fun h => h.readEnds

end

/-! ## Calls that leave nothing behind -/

theorem loadAnalyses_uses (photos : List Photo) :
    (loadAnalyses photos).Uses (Op.isHarmless ·) := by
  unfold loadAnalyses
  split
  · exact uses_ret _
  · exact .bind (uses_call.mpr rfl) fun _ => uses_ret _

theorem photoById_uses (photoId : UUID) :
    (PhotoRepository.getById photoId).Uses (Op.isHarmless ·) := by
  refine .bind (uses_call.mpr rfl) ?_
  rintro (_ | photo)
  · exact uses_ret _
  · exact .bind (loadAnalyses_uses [photo]) fun _ => uses_ret _

theorem getPhoto_uses (photoId : UUID) :
    (PhotoService.getPhoto photoId).Uses (Op.isHarmless ·) := by
  refine .bind (photoById_uses photoId) ?_
  rintro (_ | loaded)
  · exact uses_raise _
  · exact uses_ret _

theorem listPhotos_uses (limit offset : Nat) :
    (PhotoService.listPhotos limit offset).Uses (Op.isHarmless ·) :=
  .bind (.bind (uses_call.mpr rfl) loadAnalyses_uses) fun _ => uses_ret _

theorem getFile_uses (objectName : Str) :
    (ObjectStorage.getFile objectName).Uses (Op.isHarmless ·) := by
  refine .tryExcept (uses_call.mpr rfl) fun exc => ?_
  split
  · split <;> exact uses_raise _
  · exact uses_raise _

theorem getPhotoContent_uses (photoId : UUID) :
    (PhotoService.getPhotoContent photoId).Uses (Op.isHarmless ·) := by
  refine .bind (photoById_uses photoId) ?_
  rintro (_ | loaded)
  · exact uses_raise _
  · refine .bind (.tryExcept (getFile_uses _) fun exc => ?_) fun _ => uses_ret _
    split <;> exact uses_raise _

end PhotoAnalysis

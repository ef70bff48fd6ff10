import PhotoAnalysis.Guarantees.Photos

/-!
# Batches

A batch comes into the tables whole or not at all and keeps its photos.  Once a
reader has seen it completed, all later readers get the same answer.
-/

namespace PhotoAnalysis

open Foundation Program

variable {M : Nat} {t : Tid} {L L' : Ledger} {settings : Settings}
variable {state : State} {batchId : UUID} {files : List UploadFile}
variable {requestId : Str} {rows : List Photo} {now : Time}

/-! ## All or nothing -/

/-- The photo of a batch that a file becomes. -/
structure FileRow (batchId : UUID) (file : UploadFile) (row : Photo) : Prop where
  upload : ∃ ext contentType,
    PhotoService.validate file.data = .ok (ext, contentType) ∧
    row.filename =
      Column.cut 512 (PhotoService.filenameOr file.filename row.photoId ext) ∧
    row.objectKey = PhotoService.objectKey row.photoId ext
  batchId : row.batchId = some batchId
  status : row.status = .pending
  publishStatus : row.publishStatus = .notSent

/-- What an accepted call adds to the tables its commit finds. -/
structure Gains (T T' : Tables) (files : List UploadFile) : Prop where
  gained : ∃ batchId now rows,
    T'.batches.rows = T.batches.rows ++ [⟨batchId, .processing, none, now⟩] ∧
    T'.photos.rows = T.photos.rows ++ rows ∧
    files.Forall₂ (FileRow batchId) rows ∧ (rows.map Photo.objectKey).Nodup
  analyses : T'.analyses = T.analyses

/--
What a `create_batch` call of task `t` has done to the tables when it ends: its
one commit adds the batch, or nothing is changed unless by others.
-/
def BatchCall (L : Ledger) (t : Tid) (files : List UploadFile) :
    Except PyExc Reply → Prop
  | .ok _ => ∃ later earlier ws,
      L.events = later ++ .committed t ws :: earlier ∧ L.commitsOf t = [ws] ∧
      Gains (Ledger.replay earlier) (Ledger.replay (.committed t ws :: earlier))
        files
  | .error _ => L.commitsOf t = [] ∧ ∀ later earlier,
      L.events = later ++ earlier →
      (∀ tid ws, .committed tid ws ∈ later → tid = t) →
      Ledger.replay L.events = Ledger.replay earlier

theorem Uploads.fileRow {file : UploadFile} {row : Photo}
    (h : Uploads file requestId (some batchId) row) : FileRow batchId file row := by
  obtain ⟨ext, contentType, now, hvalid, -, hrow⟩ := h
  refine ⟨⟨ext, contentType, hvalid, ?_, ?_⟩, ?_, ?_, ?_⟩
  · exact congrArg Photo.filename hrow
  · exact (congrArg Photo.objectKey hrow).trans (PhotoService.cut_objectKey row.photoId hvalid)
  · exact congrArg Photo.batchId hrow
  · exact congrArg Photo.status hrow
  · exact congrArg Photo.publishStatus hrow

theorem FileRow.objectKeys_nodup (h : files.Forall₂ (FileRow batchId) rows)
    (hnodup : (rows.map Photo.photoId).Nodup) :
    (rows.map Photo.objectKey).Nodup := by
  refine List.Nodup.map_on (fun p hp q hq heq => ?_) (.of_map _ hnodup)
  obtain ⟨-, -, ⟨ext, _, -, -, hkey⟩, -⟩ := forall₂_right h hp
  obtain ⟨-, -, ⟨ext', _, -, -, hkey'⟩, -⟩ := forall₂_right h hq
  rw [hkey, hkey'] at heq
  exact List.inj_on_of_nodup_map hnodup hp hq
    (PhotoService.photoId_of_objectKey heq)

theorem Tables.others_inserts (rows : List Photo) (T : Tables) :
    ((rows.map Write.addPhoto).foldl Write.apply T).batches = T.batches ∧
      ((rows.map Write.addPhoto).foldl Write.apply T).analyses = T.analyses := by
  induction rows generalizing T with
  | nil => exact ⟨rfl, rfl⟩
  | cons row rows ih => exact ih (Write.apply T (.addPhoto row))

theorem Tables.gains_batch {T : Tables}
    (hfresh : ∀ w ∈ batchWrites batchId now rows, T.Admits w)
    (hnodup : (rows.map Photo.photoId).Nodup)
    (hrows : files.Forall₂ (FileRow batchId) rows) :
    Gains T ((batchWrites batchId now rows).foldl Write.apply T) files := by
  rw [batchWrites, List.foldl_cons]
  obtain ⟨hbatches, hanalyses⟩ := Tables.others_inserts rows
    (Write.apply T (.addBatch ⟨batchId, .processing, none, now⟩))
  refine ⟨⟨batchId, now, rows, ?_, ?_, hrows, FileRow.objectKeys_nodup hrows hnodup⟩,
    hanalyses⟩
  · have hbatch : T.batch batchId = none := hfresh _ List.mem_cons_self
    rw [hbatches]
    exact Table.rows_add hbatch
  · refine Tables.rows_inserts rows _ (fun row hrow => ?_) hnodup
    have hwrite : .addPhoto row ∈ batchWrites batchId now rows :=
      List.mem_cons_of_mem _ (List.mem_map_of_mem hrow)
    exact hfresh _ hwrite

theorem Ledger.commitsOf_nil (h : L.commitsOf t = []) (ws : List Write) :
    .committed t ws ∉ L.events := by
  intro hmem
  have := List.filterMap_eq_nil_iff.mp h _ hmem
  simp at this

theorem Ledger.replay_append {later earlier : List Event}
    (h : ∀ tid ws, .committed tid ws ∉ later) :
    replay (later ++ earlier) = replay earlier := by
  induction later with
  | nil => rfl
  | cons event later ih =>
      have hrest := ih fun tid ws hmem => h tid ws (List.mem_cons_of_mem _ hmem)
      cases event with
      | committed tid ws => exact absurd List.mem_cons_self (h tid ws)
      | executed tid stmt rowcount => exact hrest
      | raised tid op pending exc => exact hrest

theorem Ledger.BatchEnds.call (hI : Inv M L) {result : Except PyExc Reply}
    (h : L.BatchEnds t requestId files result)
    (heffect : ∀ pending exc, Event.raised t .commit pending exc ∈ L.events →
      Event.committed t pending ∉ L.events) : BatchCall L t files result := by
  cases result with
  | ok reply =>
      obtain ⟨batchId, now, rows, hcommits, hrows, hnodup, -⟩ := h
      have hmem : .committed t (batchWrites batchId now rows) ∈ L.events :=
        Ledger.mem_commitsOf (by rw [hcommits]; exact List.mem_singleton_self _)
      obtain ⟨later, earlier, hevents⟩ := List.append_of_mem hmem
      refine ⟨later, earlier, _, hevents, hcommits, ?_⟩
      exact Tables.gains_batch (hI.admitted earlier t _ ⟨later, hevents.symm⟩)
        hnodup (hrows.imp fun _ _ hup => hup.fileRow)
  | error exc =>
      rcases h with hnone | ⟨pending, hraised, hcommitted⟩
      · refine ⟨hnone, fun later earlier hevents hown => ?_⟩
        rw [hevents]
        refine Ledger.replay_append fun tid ws hmem => ?_
        have hin : Event.committed tid ws ∈ L.events :=
          hevents ▸ List.mem_append_left _ hmem
        exact Ledger.commitsOf_nil hnone ws (hown tid ws hmem ▸ hin)
      · exact absurd hcommitted (heffect pending exc hraised)

/-- The photos of a batch, in the order of the `batch.photos` relationship. -/
def Tables.photoIds (T : Tables) (batchId : UUID) : List UUID :=
  (T.batchPhotos batchId).map Photo.photoId

theorem Tables.photoIds_eq (T : Tables) (batchId : UUID) :
    T.photoIds batchId =
      (T.members batchId).map fun loaded => loaded.photo.photoId := by
  simp [Tables.photoIds, Tables.members, Function.comp_def]

theorem Grows.photoIds (hg : Grows L L') (h : (L.tables.batch batchId).isSome) :
    L'.tables.photoIds batchId = L.tables.photoIds batchId := by
  rw [Tables.photoIds_eq, Tables.photoIds_eq]
  have hmembers := hg.members batchId h
  generalize L.tables.members batchId = l at hmembers
  generalize L'.tables.members batchId = l' at hmembers
  induction hmembers with
  | nil => rfl
  | cons hab _ ih => rw [List.map_cons, List.map_cons, ih, hab.photoId]

/--
The committed tables are what the history of commits makes of them, so a call
that has committed nothing has left them as they were.
-/
structure BatchesAtomic (settings : Settings) (state : State) : Prop where
  history : state.world.db.committed = Ledger.replay state.world.events
  calls : ∀ t requestId files before result,
    state.world.arrivals t = some ⟨.createBatch requestId files, before⟩ →
    state.world.outcomes t = some (some result) →
    (∀ pending exc, .raised t .commit pending exc ∈ state.world.events →
      .committed t pending ∉ state.world.events) →
    BatchCall state.world.ledger t files result
  size : ∀ batchId, (state.world.db.committed.batch batchId).isSome →
    2 ≤ (state.world.db.committed.photoIds batchId).length ∧
      (state.world.db.committed.photoIds batchId).length ≤ 10
  members : ∀ batchId state', (state.world.db.committed.batch batchId).isSome →
    (system settings).Leads state state' →
    state'.world.db.committed.photoIds batchId =
      state.world.db.committed.photoIds batchId

theorem batches_atomic (h : Reachable settings state) :
    BatchesAtomic settings state where
  history := (reachable_inv h).replay
  calls := by
    intro t requestId files before result ha ho heffect
    exact ((reachable_inv h).ends t _ _ ha ho).call (reachable_inv h) heffect
  size := by
    intro batchId hbatch
    obtain ⟨batch, hbatch⟩ := Option.isSome_iff_exists.mp hbatch
    rw [Tables.photoIds_eq, List.length_map]
    exact ((reachable_inv h).batches batchId batch hbatch).size
  members := fun batchId state' hbatch hlead =>
    (reachable_grows h hlead).photoIds hbatch

def pngFile : UploadFile := ⟨none, PhotoService.pngMagic⟩

def pngId : UUID := 8#128

def pairId : UUID := 9#128

/-- Task 0 uploads a batch of two photos. -/
def uploadsPair : Schedule :=
  [.start 0 (.createBatch (py "r") [jpegFile, pngFile]),
    .step 0 (.uuid pairId)] ++ goes 0 2 ++ [.step 0 (.uuid jpegId)] ++ goes 0 2 ++
    [.step 0 (.uuid pngId)] ++ goes 0 4 ++ [.finish 0]

theorem batches_atomic_pair : ∃ state, Reachable defaultSettings state ∧
    (state.world.db.committed.batch pairId).isSome ∧
    BatchesAtomic defaultSettings state := by
  obtain ⟨state, hreach, hbatch⟩ := reachable_of_any defaultSettings uploadsPair
    (P := fun state => (state.world.db.committed.batch pairId).isSome)
    (by decide +kernel)
  exact ⟨state, hreach, hbatch, batches_atomic hreach⟩

/-! ## A completed batch -/

/-- Some operation of task `t` has raised what the call raises. -/
def RaisedByOwn (state : State) (t : Tid) (exc : PyExc) : Prop :=
  ∃ op pending, .raised t op pending exc ∈ state.world.events

/-- What follows once a reader has got the response that the batch is completed. -/
structure CompletedAgreed (settings : Settings) (state : State) (reader : Tid)
    (batchId : UUID) (response : BatchResponse) : Prop where
  readers : ∀ t requestId before result, reader ∈ before →
    state.world.arrivals t = some ⟨.getBatch requestId batchId, before⟩ →
    state.world.outcomes t = some (some result) →
    result = .ok (.batch response) ∨
      ∃ exc, result = .error exc ∧ RaisedByOwn state t exc
  row : ∀ state' batch, (system settings).Leads state state' →
    state'.world.db.committed.batch batchId = some batch →
    batch.status = .completed →
    batch.bestPhotoId.map UUID.text = response.bestPhotoId
  stays : ∀ state' batch, (system settings).Leads state state' →
    state.world.db.committed.batch batchId = some batch →
    batch.status = .completed →
    state'.world.db.committed.batch batchId = some batch
  best : ∀ text, response.bestPhotoId = some text →
    ∃ p ∈ state.world.db.committed.photos.rows, p.photoId.text = text ∧
      p.batchId = some batchId ∧ p.status = .done

namespace BatchService

theorem minByKey_mem (best : Candidate) (candidates : List Candidate) :
    minByKey best candidates ∈ best :: candidates := by
  induction candidates generalizing best with
  | nil => exact List.mem_singleton_self best
  | cons candidate rest ih =>
      rw [minByKey]
      rcases List.mem_cons.mp (ih (if keyLess candidate best then candidate else best))
        with heq | hmem
      · rw [heq]
        split
        · exact List.mem_cons_of_mem _ List.mem_cons_self
        · exact List.mem_cons_self
      · exact List.mem_cons_of_mem _ (List.mem_cons_of_mem _ hmem)

/-- The best photo is one of the photos that are done. -/
theorem selectBestPhoto_mem {photos : List LoadedPhoto} {id : UUID}
    (h : selectBestPhoto photos = some id) :
    ∃ loaded ∈ photos, loaded.photo.photoId = id ∧ loaded.photo.status = .done := by
  unfold selectBestPhoto at h
  split at h
  · cases h
  next first rest hcandidates =>
    have hmem := minByKey_mem first rest
    rw [← hcandidates] at hmem
    obtain ⟨loaded, hloaded, hcandidate⟩ := List.mem_filterMap.mp hmem
    unfold candidate at hcandidate
    split at hcandidate
    next hdone =>
      obtain ⟨analysis, -, heq⟩ := Option.map_eq_some_iff.mp hcandidate
      refine ⟨loaded, hloaded, ?_, hdone⟩
      rw [← Option.some.inj h, ← heq]
    next => cases hcandidate

end BatchService

theorem Ledger.Final.bestPhotoId {response : BatchResponse}
    (h : L.Final batchId response) : response.bestPhotoId =
      (BatchService.selectBestPhoto (L.tables.members batchId)).map UUID.text := by
  obtain ⟨hall, rfl⟩ := h
  exact if_pos hall

/-- A completed batch row is written once more at most, with the same values. -/
theorem Move.completed {locked : RowKey → Prop} {batch : Batch} (hI : Inv M L)
    (hmove : Move M locked t L L') (hstatus : batch.status = .completed)
    (hbatch : L.tables.batch batchId = some batch) :
    L'.tables.batch batchId = some batch := by
  obtain ⟨L₁, hact, hnote, -⟩ := hmove
  have htables : L'.tables = L₁.tables := by
    rcases hnote with rfl | ⟨event, -, rfl⟩ <;> rfl
  rw [htables]
  rcases hact with rfl | hact
  · exact hbatch
  · cases hact with
    | commit hlive ha htx =>
        rcases htx.batch_cases batchId with heq | ⟨hnone, -⟩ | ⟨old, hold, -, -, heq⟩
        · exact heq.trans hbatch
        · rw [hnone] at hbatch
          cases hbatch
        · rw [hbatch, Option.some.injEq] at hold
          subst hold
          rw [heq, ← ((hI.batches batchId batch hbatch).completed hstatus).2,
            ← hstatus]
          rfl
    | _ => exact hbatch

theorem Ledger.Answered.final (hI : Inv M L) {response : BatchResponse}
    (h : L.Answered t batchId response) (hc : Ledger.completed response) :
    L.Final batchId response := by
  obtain ⟨requestId, before, ha, ho⟩ := h
  exact (hI.ends t _ _ ha ho).1 response rfl hc

theorem batch_agreed (h : Reachable settings state) {reader : Tid}
    {response : BatchResponse}
    (hanswer : state.world.ledger.Answered reader batchId response)
    (hc : Ledger.completed response) :
    CompletedAgreed settings state reader batchId response where
  readers := by
    intro t requestId before result hbefore ha ho
    have hI := reachable_inv h
    obtain ⟨hfinal, hseen⟩ := hI.ends t _ _ ha ho
    rcases hseen ⟨reader, hbefore, response, hanswer, hc⟩ with
      ⟨response', rfl, hc'⟩ | ⟨op, pending, exc, rfl, hmem⟩
    · have hsame : response' = response :=
        (hfinal response' rfl hc').2.trans (hanswer.final hI hc).2.symm
      exact .inl (by rw [hsame])
    · exact .inr ⟨exc, rfl, op, pending, hmem⟩
  row := by
    intro state' batch hlead hbatch hstatus
    have hI' := reachable_inv (h.trans _ hlead)
    have hfinal := (hanswer.mono (reachable_grows h hlead)).final hI' hc
    rw [hfinal.bestPhotoId, ((hI'.batches batchId batch hbatch).completed hstatus).2]
  stays := fun state' batch hlead hbatch hstatus =>
    reachable_induct (P := fun L => L.tables.batch batchId = some batch)
      (fun hI hmove hb => hmove.completed hI hstatus hb) h hlead hbatch
  best := by
    intro text hbest
    rw [(hanswer.final (reachable_inv h) hc).bestPhotoId] at hbest
    obtain ⟨id, hselect, rfl⟩ := Option.map_eq_some_iff.mp hbest
    obtain ⟨loaded, hmem, rfl, hdone⟩ := BatchService.selectBestPhoto_mem hselect
    obtain ⟨hloaded, hbatch⟩ := Tables.loaded_of_mem_members hmem
    exact ⟨loaded.photo, Table.mem_of_find (Tables.loaded_eq_some.mp hloaded).1, rfl,
      hbatch, hdone⟩

/-- The publisher puts both photos on the topic. -/
def publishesPair : Schedule :=
  .start 1 (.outboxPublisher 0) :: goes 1 10 ++
    [.step 1 (.rows [jpegId, pngId])] ++ goes 1 4 ++ [.step 1 (.time 5)] ++
    goes 1 6 ++ [.step 1 (.time 5)] ++ goes 1 4

/-- One worker analyzes both. -/
def analyzesPair : Schedule :=
  receives 2 ++ analyzes 2 ++ [.again 2] ++ goes 2 4 ++ analyzes 2

def readsPair (t : Tid) : Schedule :=
  .start t (.getBatch (py "r") pairId) :: List.replicate 3 (.step t (.rows []))

/-- The batch a task has returned. -/
def batchReply (state : State) (t : Tid) : Option BatchResponse :=
  match state.world.outcomes t with
  | some (some (.ok (.batch response))) => some response
  | _ => none

theorem outcome_of_batchReply {response : BatchResponse}
    (h : batchReply state t = some response) :
    state.world.outcomes t = some (some (.ok (.batch response))) := by
  unfold batchReply at h
  split at h
  next heq =>
    cases h
    exact heq
  next => cases h

theorem batch_agreed_pair : ∃ state response, Reachable defaultSettings state ∧
    response.bestPhotoId = some jpegId.text ∧
    batchReply state 4 = some response ∧
    CompletedAgreed defaultSettings state 3 pairId response := by
  obtain ⟨state, hreach, hentry, hreply, hsame⟩ := reachable_of_any
    defaultSettings (uploadsPair ++ publishesPair ++ analyzesPair ++ readsPair 3 ++
      goes 3 2 ++ [.finish 3] ++ readsPair 4 ++ [.finish 4])
    (P := fun state =>
      (state.world.arrivals 3).map Arrival.entry =
        some (.getBatch (py "r") pairId) ∧
      ((batchReply state 3).any fun response =>
        response.status = py "completed" ∧
          response.bestPhotoId = some jpegId.text) ∧
      batchReply state 4 = batchReply state 3) (by decide +kernel)
  obtain ⟨⟨entry, before⟩, ha, rfl⟩ := Option.map_eq_some_iff.mp hentry
  obtain ⟨response, hresponse, hboth⟩ := (Option.any_eq_true _ _).mp hreply
  obtain ⟨hc, hbest⟩ := of_decide_eq_true hboth
  exact ⟨state, response, hreach, hbest, hsame.trans hresponse,
    batch_agreed hreach ⟨_, before, ha, outcome_of_batchReply hresponse⟩ hc⟩

end PhotoAnalysis

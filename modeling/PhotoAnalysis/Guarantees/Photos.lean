import PhotoAnalysis.Refinement.Safety

/-!
# What becomes of a photo

The claim of a photo commits once at most, its status only moves forward, its
columns agree with its status, and once it is terminal nothing about it changes.
-/

namespace PhotoAnalysis

open Foundation Program

/-! ## Schedules to look at -/

/-- The defaults of `Settings`. -/
def defaultSettings : Settings where
  minioBucket := py "photos"
  workerMaxAttempts := 3
  retryBackoffBaseSeconds := 1
  outboxBatchSize := 100
  interpreter := .ofLimit 900

abbrev Schedule := List (Label Entry Choice World.External)

/-- The next operations of task `t` succeed. -/
def goes (t : Tid) (operations : Nat) : Schedule :=
  List.replicate operations (.step t .ok)

/-- A schedule that can be followed to a state with a property shows that state. -/
theorem reachable_of_any (settings : Settings) (schedule : Schedule)
    {P : State → Prop} [DecidablePred P]
    (h : ((system settings).follow start schedule).any (P ·) = true) :
    ∃ state, Reachable settings state ∧ P state := by
  cases hfollow : (system settings).follow start schedule with
  | none => simp [hfollow] at h
  | some state =>
      rw [hfollow, Option.any_some, decide_eq_true_iff] at h
      exact ⟨state, ⟨schedule, hfollow⟩, h⟩

def jpegFile : UploadFile := ⟨some (py "a.jpg"), [0xFF, 0xD8, 0xFF, 1]⟩

def jpegId : UUID := 7#128

def response : AnalyzePhotoResponse := ⟨1, false, 0#64, []⟩

/-- Task 0 uploads the file, a JPEG, in a request with this id. -/
def uploading (requestId : Str) (file : UploadFile) : Schedule :=
  [.start 0 (.createPhoto requestId file), .step 0 (.uuid jpegId)] ++
    goes 0 5 ++ [.finish 0]

def uploads : Schedule := uploading (py "r") jpegFile

/-- The row that the upload leaves in the table. -/
def uploadedRow (requestId : Str) (file : UploadFile) : Photo :=
  (PhotoService.newPhoto jpegId file.filename (py "jpg") requestId none).row 0

/-- The upload is over and its row in the table. -/
abbrev Uploaded (requestId : Str) (file : UploadFile) (state : State) : Prop :=
  (state.world.ledger.arrivals 0).map Arrival.entry =
      some (.createPhoto requestId file) ∧
    state.world.ledger.commitsOf 0 = [[.addPhoto (uploadedRow requestId file)]] ∧
    state.world.db.committed.photos.rows = [uploadedRow requestId file] ∧
    state.world.db.writes 1 = []

namespace Uploaded

variable {requestId : Str} {file : UploadFile} {state : State}

theorem created (h : Uploaded requestId file state) :
    state.world.ledger.CreatedFrom (uploadedRow requestId file) file := by
  obtain ⟨⟨entry, before⟩, harrival, rfl⟩ := Option.map_eq_some_iff.mp h.1
  exact .inl ⟨0, requestId, before, harrival,
    Ledger.mem_commitsOf (h.2.1 ▸ List.mem_singleton_self _)⟩

theorem photo (h : Uploaded requestId file state) :
    state.world.db.committed.photo jpegId = some (uploadedRow requestId file) := by
  have hmem : uploadedRow requestId file ∈ state.world.db.committed.photos.rows :=
    h.2.2.1 ▸ List.mem_singleton_self _
  exact Table.find_of_mem hmem

/-- There is no other photo. -/
theorem eq_row (h : Uploaded requestId file state) {id : UUID} {p : Photo}
    (hp : state.world.db.committed.photo id = some p) : p = uploadedRow requestId file := by
  have hmem := Table.mem_of_find hp
  rw [h.2.2.1] at hmem
  exact List.mem_singleton.mp hmem

end Uploaded

/-- Task 1, a publisher, puts the photo on the topic and commits its mark. -/
def publishes : Schedule :=
  .start 1 (.outboxPublisher 0) :: goes 1 10 ++ [.step 1 (.rows [jpegId])] ++
    goes 1 4 ++ [.step 1 (.time 5)] ++ goes 1 4

/-- Task `t` is a worker that takes the first record, up to its claim. -/
def receives (t : Tid) : Schedule :=
  [.start t .worker, .step t .ok, .again t] ++ goes t 4

/-- The claim commits and the analyzer answers at the first attempt. -/
def analyzes (t : Tid) : Schedule :=
  goes t 2 ++ [.step t (.time 1), .step t (.response response),
    .step t (.time 3)] ++ goes t 9

variable {M : Nat} {t : Tid} {L L' : Ledger} {settings : Settings} {state : State}

/-! ## Exclusive analysis -/

/-- How many `process` calls have been told that their claim matched a row. -/
def Ledger.won (L : Ledger) (id : UUID) : Nat :=
  L.events.countP fun event => match event with
    | .executed _ stmt rowcount =>
        stmt = PhotoRepository.claimStmt id ∧ rowcount = 1
    | _ => false

/-- A photo in one state of the tables and in the next. -/
inductive StatusMoves : Option Photo → Option Photo → Prop
  | absent : StatusMoves none none
  | created {q} (h : q.status = .pending) : StatusMoves none (some q)
  | stays {p q} (h : q.status = p.status) : StatusMoves (some p) (some q)
  | moves {p q} (h : p.status.Step q.status) : StatusMoves (some p) (some q)

theorem StatusMoves.refl (p : Option Photo) : StatusMoves p p := by
  cases p with
  | none => exact .absent
  | some p => exact .stays rfl

theorem Change.statusMoves {ws : List Write} {id : UUID} {a b : Option LoadedPhoto}
    (h : Change M t L ws id a b) :
    StatusMoves (a.map LoadedPhoto.photo) (b.map LoadedPhoto.photo) := by
  cases h with
  | same => exact .refl _
  | published hc hidentity hprogress hanalysis hsent hd =>
      exact .stays (congrArg Prod.fst hprogress)
  | worked hn ha hb hidentity hpublish hwho =>
      rcases hn.status with hstays | hstep
      · exact .stays (hb.status.trans (hstays.trans ha.status.symm))
      · refine .moves ?_
        rw [ha.status, hb.status]
        exact hstep
  | created hc hrow hpending hsent => exact .created hpending.status

theorem Tables.photo_of_loaded (T : Tables) (id : UUID) :
    (T.loaded id).map LoadedPhoto.photo = T.photo id := by
  simp [Tables.loaded, Function.comp_def]

theorem Move.statusMoves {locked : RowKey → Prop} (hI : Inv M L)
    (h : Move M locked t L L') (id : UUID) :
    StatusMoves (L.tables.photo id) (L'.tables.photo id) := by
  obtain ⟨L₁, hact, hnote, -⟩ := h
  have htables : L'.tables = L₁.tables := by
    rcases hnote with rfl | ⟨event, -, rfl⟩ <;> rfl
  rw [htables]
  rcases hact with rfl | hact
  · exact .refl _
  · cases hact with
    | commit hlive ha htx =>
        have hmoves := (hI.change htx id).statusMoves
        rwa [Tables.photo_of_loaded, Tables.photo_of_loaded] at hmoves
    | _ => exact .refl _

/-- What holds of the claim of a photo and of what follows from it. -/
structure ClaimedOnce (settings : Settings) (state : State) (id : UUID) : Prop where
  claims : state.world.ledger.claims id ≤ 1
  asked : state.world.ledger.asked id ≤ settings.workerMaxAttempts.toNat
  moves : ∀ label state', (system settings).next state label = some state' →
    StatusMoves (state.world.db.committed.photo id)
      (state'.world.db.committed.photo id)
  final : ∀ state' p, (system settings).Leads state state' →
    state.world.db.committed.photo id = some p → p.status.terminal →
    ∃ q, state'.world.db.committed.photo id = some q ∧
      q.progress = p.progress ∧
      state'.world.db.committed.analysis id = state.world.db.committed.analysis id

theorem photo_claimedOnce (h : Reachable settings state) (id : UUID) :
    ClaimedOnce settings state id where
  claims := by
    rw [(reachable_inv h).claims id]
    exact claimsDue_le_one _
  asked := by
    refine ((reachable_inv h).asked id).trans ?_
    split
    · exact Nat.zero_le _
    · exact le_rfl
  moves := by
    intro label state' hnext
    obtain ⟨t, locked, hmove⟩ := reachable_move h hnext
    exact hmove.statusMoves (reachable_inv h) id
  final := by
    intro state' p hlead hp hterminal
    obtain ⟨b, hb, hlater⟩ :=
      (reachable_grows h hlead).later id _ (Tables.loaded_of_photo hp)
    obtain ⟨hprogress, hanalysis⟩ := hlater.final hterminal
    obtain ⟨hphoto, hresult⟩ := Tables.loaded_eq_some.mp hb
    exact ⟨b.photo, hphoto, hprogress, hresult.trans hanalysis⟩

theorem photo_claimedOnce_done : ∃ state, Reachable defaultSettings state ∧
    state.world.ledger.claims jpegId = 1 ∧
    (state.world.db.committed.photo jpegId).map Photo.status = some .done ∧
    ClaimedOnce defaultSettings state jpegId := by
  obtain ⟨state, hreach, hclaims, hdone⟩ := reachable_of_any defaultSettings
    (uploads ++ publishes ++ receives 2 ++ analyzes 2)
    (P := fun state => state.world.ledger.claims jpegId = 1 ∧
      (state.world.db.committed.photo jpegId).map Photo.status = some .done)
    (by decide +kernel)
  exact ⟨state, hreach, hclaims, hdone, photo_claimedOnce hreach jpegId⟩

/-- A worker that dies between its claim and the commit leaves it to be won again. -/
theorem claim_won_twice :
    ¬∀ state, Reachable defaultSettings state → ∀ id,
      state.world.ledger.won id ≤ 1 := by
  intro h
  obtain ⟨state, hreach, hwon⟩ := reachable_of_any defaultSettings
    (uploads ++ publishes ++ receives 2 ++ [.crash 2] ++ receives 3)
    (P := fun state => state.world.ledger.won jpegId = 2) (by decide +kernel)
  have hone := h state hreach jpegId
  omega

/-! ## Consistent rows -/

/-- The rows of `analysis_results` that belong to a photo. -/
def Tables.results (T : Tables) (id : UUID) : List AnalysisResult :=
  T.analyses.rows.filter fun row => row.photoId = id

/-- What the status of a photo says about its other columns and its results. -/
structure Consistent (maxAttempts : Int) (T : Tables) (p : Photo) : Prop where
  pending : p.status = .pending → p.attempts = 0 ∧ p.lastErrorCode = none ∧
    p.lastErrorMessage = none ∧ T.results p.photoId = []
  processing : p.status = .processing → (p.attempts : Int) ≤ maxAttempts ∧
    (p.lastErrorCode = none ↔ p.attempts = 0) ∧ T.results p.photoId = []
  done : p.status = .done → (T.results p.photoId).length = 1 ∧
    1 ≤ p.attempts ∧ (p.attempts : Int) ≤ maxAttempts ∧
    p.lastErrorCode = none ∧ p.lastErrorMessage = none
  failed : p.status = .failed → T.results p.photoId = [] ∧
    p.lastErrorCode ≠ none ∧ 1 ≤ p.attempts ∧ (p.attempts : Int) ≤ maxAttempts

theorem Tables.results_eq (T : Tables) (id : UUID) :
    T.results id = (T.analysis id).toList := by
  cases ha : T.analysis id with
  | none =>
      rw [Option.toList_none, Tables.results, List.filter_eq_nil_iff]
      intro row hrow
      simpa using Table.find_eq_none.mp ha row hrow
  | some row =>
      have hmem : ∀ row', row' ∈ T.results id ↔ row' = row := by
        intro row'
        rw [Tables.results, List.mem_filter, decide_eq_true_iff, Table.mem_rows_iff]
        constructor
        · rintro ⟨hfind, rfl⟩
          exact Option.some.inj (hfind.symm.trans ha)
        · rintro rfl
          exact ⟨(Table.key_of_find ha).symm ▸ ha, Table.key_of_find ha⟩
      have hnodup : (T.results id).Nodup :=
        (List.Nodup.of_map _ T.analyses.nodup).filter _
      exact List.perm_singleton.mp
        ((List.perm_ext_iff_of_nodup hnodup (List.nodup_singleton row)).mpr
          (by simpa using hmem))

theorem Life.Shows.results {T : Tables} {id : UUID} {a : LoadedPhoto}
    {life : Life M} (h : life.Shows a) (ha : T.loaded id = some a) :
    (T.results id).length = if life.status = .done then 1 else 0 := by
  have hresult := h.result
  rw [Tables.results_eq, (Tables.loaded_eq_some.mp ha).2]
  cases hanalysis : a.analysis with
  | none => cases life <;> simp_all [Life.result, Life.status]
  | some row => cases life <;> simp_all [Life.result, Life.status]

theorem Life.Shows.consistent {T : Tables} {p : Photo} {life : Life M}
    {maxAttempts : Int} (hM : 1 ≤ maxAttempts) (hMM : M = maxAttempts.toNat)
    (h : life.Shows ⟨p, T.analysis p.photoId⟩)
    (hp : T.photo p.photoId = some p) : Consistent maxAttempts T p := by
  have hresults := h.results (Tables.loaded_of_photo hp)
  obtain ⟨hstatus, hattempts, hcode, hmessage⟩ :
      p.status = life.status ∧ p.attempts = life.attempts ∧
        p.lastErrorCode = life.error.map Prod.fst ∧
        p.lastErrorMessage = life.error.map Prod.snd := by
    simpa [Photo.progress, Life.progress] using h.progress
  have hbound : ∀ n, n ≤ M → (n : Int) ≤ maxAttempts := by omega
  have hempty : life.status ≠ .done → T.results p.photoId = [] := fun hne =>
    List.length_eq_zero_iff.mp (hresults.trans (if_neg hne))
  cases life with
  | pending =>
      refine ⟨fun _ => ⟨hattempts, hcode, hmessage, hempty fun h => by cases h⟩, ?_, ?_, ?_⟩ <;>
        simp [hstatus, Life.status]
  | claimed =>
      refine ⟨?_, fun _ => ⟨?_, ?_, hempty fun h => by cases h⟩, ?_, ?_⟩
      · simp [hstatus, Life.status]
      · rw [hattempts]
        exact hbound 0 (Nat.zero_le M)
      · exact iff_of_true hcode hattempts
      · simp [hstatus, Life.status]
      · simp [hstatus, Life.status]
  | retrying n code message hn =>
      refine ⟨?_, fun _ => ⟨?_, ?_, hempty fun h => by cases h⟩, ?_, ?_⟩
      · simp [hstatus, Life.status]
      · rw [hattempts]
        exact hbound n hn.2
      · refine iff_of_false (by simp [hcode, Life.error]) ?_
        rw [hattempts]
        exact Nat.pos_iff_ne_zero.mp hn.1
      · simp [hstatus, Life.status]
      · simp [hstatus, Life.status]
  | done n result hn =>
      refine ⟨?_, ?_, fun _ => ⟨hresults, ?_, ?_, hcode, hmessage⟩, ?_⟩
      · simp [hstatus, Life.status]
      · simp [hstatus, Life.status]
      · rw [hattempts]
        exact hn.1
      · rw [hattempts]
        exact hbound n hn.2
      · simp [hstatus, Life.status]
  | failed n code message hn =>
      have hpos : 1 ≤ n := by omega
      refine ⟨?_, ?_, ?_, fun _ => ⟨hempty (fun h => by cases h), ?_, ?_, ?_⟩⟩
      · simp [hstatus, Life.status]
      · simp [hstatus, Life.status]
      · simp [hstatus, Life.status]
      · simp [hcode, Life.error]
      · rw [hattempts]
        exact hpos
      · rw [hattempts]
        exact hbound n hn.2

/-- Rows are consistent, and results are those of the photos that are done. -/
structure ConsistentTables (maxAttempts : Int) (T : Tables) : Prop where
  rows : ∀ p ∈ T.photos.rows, Consistent maxAttempts T p
  results : ∀ id, (∃ row ∈ T.analyses.rows, row.photoId = id) ↔
    ∃ p ∈ T.photos.rows, p.photoId = id ∧ p.status = .done

theorem Inv.consistentTables (hI : Inv M L) {maxAttempts : Int}
    (hM : 1 ≤ maxAttempts) (hMM : M = maxAttempts.toNat) :
    ConsistentTables maxAttempts L.tables where
  rows := by
    intro p hp
    have hphoto : L.tables.photo p.photoId = some p := Table.find_of_mem hp
    obtain ⟨life, hshows⟩ := hI.life p.photoId _ (Tables.loaded_of_photo hphoto)
    exact hshows.consistent hM hMM hphoto
  results := by
    intro id
    have hexists : (∃ row ∈ L.tables.analyses.rows, row.photoId = id) ↔
        0 < (L.tables.results id).length := by
      rw [List.length_pos_iff_exists_mem]
      simp [Tables.results]
    rw [hexists]
    cases hp : L.tables.photo id with
    | none =>
        rw [Tables.results_eq, hI.orphan id hp]
        simpa using fun p hmem hid =>
          absurd hid (Table.find_eq_none.mp hp p hmem)
    | some p =>
        obtain ⟨life, hshows⟩ := hI.life id _ (Tables.loaded_of_photo hp)
        rw [hshows.results (Tables.loaded_of_photo hp), ← hshows.status]
        constructor
        · intro hpos
          refine ⟨p, Table.mem_of_find hp, Table.key_of_find hp, ?_⟩
          by_contra hne
          simp [hne] at hpos
        · rintro ⟨q, hmem, rfl, hdone⟩
          have hq := Table.find_of_mem hmem
          rw [show p = q from Option.some.inj (hp.symm.trans hq)]
          simp [hdone]

theorem tables_consistent (hM : 1 ≤ settings.workerMaxAttempts)
    (h : Reachable settings state) :
    ConsistentTables settings.workerMaxAttempts state.world.db.committed :=
  (reachable_inv h).consistentTables hM rfl

theorem tables_consistent_done : ∃ state, Reachable defaultSettings state ∧
    (state.world.db.committed.photo jpegId).map Photo.status = some .done ∧
    ConsistentTables 3 state.world.db.committed := by
  obtain ⟨state, hreach, hdone⟩ := reachable_of_any defaultSettings
    (uploads ++ publishes ++ receives 2 ++ analyzes 2)
    (P := fun state =>
      (state.world.db.committed.photo jpegId).map Photo.status = some .done)
    (by decide +kernel)
  exact ⟨state, hreach, hdone, tables_consistent (by decide) hreach⟩

end PhotoAnalysis

import PhotoAnalysis.Guarantees.Content

/-!
# Reading a photo while it is analyzed

A reading call selects its photos first and their analyses after that, each from
what is committed at the time.  An item of its response has an analysis without
being done, exactly when its photo turns done between the two.
-/

namespace PhotoAnalysis

open Foundation Program

/-- The calls whose responses show analyses. -/
inductive ReadCall where
  | getPhoto (photoId : UUID)
  | listPhotos (limit offset : Nat)
  | getBatch (batchId : UUID)
  deriving DecidableEq, Repr

namespace ReadCall

def program : ReadCall → Py Reply
  | getPhoto photoId => PhotoService.getPhoto photoId
  | listPhotos limit offset => PhotoService.listPhotos limit offset
  | getBatch batchId => BatchService.getBatch batchId

/-- Which operation of the call selects the photos; the next one is for the analyses. -/
def photosAt : ReadCall → Nat
  | getPhoto _ | listPhotos _ _ => 0
  | getBatch _ => 1

/-- The photos it selects. -/
def listed (T : Tables) (choice : Choice) : ReadCall → List Photo
  | getPhoto photoId => (T.photo photoId).toList
  | listPhotos limit offset =>
      match choice with
      | .rows order => ((Query.photos limit offset).answer T order).getD []
      | _ => []
  | getBatch batchId => T.batchPhotos batchId

end ReadCall

/-- A photo as a response shows it. -/
structure ShownPhoto where
  status : Str
  analysis : Option AnalysisResultResponse

def Reply.shown : Reply → List ShownPhoto
  | photo response => [⟨response.status, response.analysis⟩]
  | photos responses => responses.map fun response =>
      ⟨response.status, response.analysis⟩
  | batch response => response.photos.map fun detail =>
      ⟨detail.status, detail.analysis⟩
  | _ => []

/-- The analysis is there if and only if the status is `done`. -/
def ShownPhoto.Whole (item : ShownPhoto) : Prop :=
  item.analysis.isSome ↔ item.status = PhotoStatus.done.value

def Tables.Done (T : Tables) (id : UUID) : Prop :=
  (T.photo id).map Photo.status = some .done

/-! ## A call among others -/

/--
The `n`-th operation of a call of task `t` meets the `n`-th of these worlds, which
resolves it as chosen.
-/
def meets (t : Tid) (worlds : Nat → World) (choices : Nat → Choice) :
    Handler Op Op.Ans PyExc Nat :=
  fun op n =>
    match World.perform t op (choices n) (worlds n) with
    | some (answer, _) => (answer, n + 1)
    | none => (.error (.other (py "no answer")), n + 1)

variable {t : Tid} {worlds : Nat → World} {choices : Nat → Choice}

theorem meets_snd (op : Op) (n : Nat) : (meets t worlds choices op n).2 = n + 1 := by
  unfold meets
  split <;> rfl

theorem meets_select {query : Query} {n : Nat} {rows : query.Answer}
    (h : (meets t worlds choices (.select query) n).1 = .ok rows) :
    ∃ order, choices n = .rows order ∧
      query.answer ((worlds n).view t) order = some rows := by
  unfold meets at h
  cases hchoice : choices n with
  | rows order =>
      cases hanswer : query.answer ((worlds n).view t) order with
      | none => simp [hchoice, World.perform, World.answer, hanswer] at h
      | some rows' =>
          simp only [hchoice, World.perform, World.answer, hanswer,
            Option.map_some, Except.ok.injEq] at h
          exact ⟨order, rfl, hanswer.trans (congrArg some h)⟩
  | fail exc kept =>
      simp only [hchoice, World.perform] at h
      split at h
      next heq => split at heq <;> simp_all
      next => cases h
  | failAfter exc => simp [hchoice, World.perform, World.halfDone] at h
  | _ => simp [hchoice, World.perform, World.answer] at h

/-- If the call returns, what it returns satisfies `Q`. -/
def Returns {α : Type} (Q : α → Prop) (outcome : Except PyExc α) (_ : Nat) : Prop :=
  ∀ value, outcome = .ok value → Q value

theorem ends_after {α β : Type} {P : Nat → Prop} {program : Py α} {next : α → Py β}
    {Q : β → Prop}
    (hnext : ∀ value, Ends (meets t worlds choices) (fun _ => True) (next value)
      (Returns Q)) :
    Ends (meets t worlds choices) P (program.bind next) (Returns Q) := by
  refine .bind (fun _ _ => True) (fun n _ => ?_) hnext
  cases (program.run (meets t worlds choices) n).1 with
  | ok value => trivial
  | error exc => exact fun _ h => nomatch h

theorem ends_select {query : Query} {n : Nat} {α : Type} {next : query.Answer → Py α}
    {Q : α → Prop}
    (hnext : ∀ order rows, choices n = .rows order →
      query.answer ((worlds n).view t) order = some rows →
      Ends (meets t worlds choices) (· = n + 1) (next rows) (Returns Q)) :
    Ends (meets t worlds choices) (· = n) ((wait (.select query)).bind next)
      (Returns Q) := by
  refine .bind (fun rows m => (∃ order, choices n = .rows order ∧
    query.answer ((worlds n).view t) order = some rows) ∧ m = n + 1)
    (.call ?_) fun rows => .given fun ⟨order, hchoice, hanswer⟩ =>
      hnext order rows hchoice hanswer
  rintro m rfl
  cases hmeets : (meets t worlds choices (.select query) m).1 with
  | error exc => rintro value ⟨⟩
  | ok rows => exact ⟨meets_select hmeets, meets_snd _ m⟩

theorem loadAnalyses_reads (photos : List Photo) (n : Nat) {α : Type}
    {next : List LoadedPhoto → Py α} {Q : α → Prop}
    (hnext : ∀ m, Ends (meets t worlds choices) (· = m)
      (next (photos.map fun photo =>
        ⟨photo, ((worlds n).view t).analysis photo.photoId⟩)) (Returns Q)) :
    Ends (meets t worlds choices) (· = n) ((loadAnalyses photos).bind next)
      (Returns Q) := by
  unfold loadAnalyses
  split
  next hempty =>
    obtain rfl := List.isEmpty_iff.mp hempty
    exact hnext n
  next =>
    simp only [bind_eq, bind_assoc, pure_eq_ret, ret_bind]
    refine ends_select fun order rows _ hrows => ?_
    simp only [Query.answer, Option.some.injEq] at hrows
    have hloaded : (photos.map fun photo => (⟨photo, rows.find? fun row =>
        row.photoId = photo.photoId⟩ : LoadedPhoto)) =
        photos.map fun photo =>
          ⟨photo, ((worlds n).view t).analysis photo.photoId⟩ := by
      refine List.map_congr_left fun photo hmem => ?_
      rw [← hrows, find_analyses hmem]
    rw [hloaded]
    exact hnext _

/-- A photo as it was listed, with what its analysis was then. -/
def shownAt (T : Tables) (p : Photo) : ShownPhoto :=
  ⟨p.status.value, PhotoService.analysisResponse (T.analysis p.photoId)⟩

/-- What a response shows, read from two states of the tables. -/
theorem shown_eq (call : ReadCall) :
    Ends (meets t worlds choices) (· = 0) call.program (Returns fun reply =>
      reply.shown = (call.listed ((worlds call.photosAt).view t)
        (choices call.photosAt)).map
          (shownAt ((worlds (call.photosAt + 1)).view t))) := by
  cases call with
  | getPhoto photoId =>
      simp only [ReadCall.program, PhotoService.getPhoto, PhotoRepository.getById,
        bind_eq, bind_assoc]
      refine ends_select fun order found hchoice hfound => ?_
      obtain rfl : ((worlds 0).view t).photo photoId = found := Option.some.inj hfound
      cases hphoto : ((worlds 0).view t).photo photoId with
      | none => exact .raise fun _ _ _ h => nomatch h
      | some p =>
          simp only [bind_assoc]
          refine loadAnalyses_reads [p] _ fun m => .ret fun _ _ reply hreply => ?_
          obtain rfl := Except.ok.inj hreply
          simp [ReadCall.listed, ReadCall.photosAt, hphoto, Reply.shown, shownAt,
            PhotoService.photoResponse]
  | listPhotos limit offset =>
      simp only [ReadCall.program, PhotoService.listPhotos, PhotoRepository.list,
        bind_eq, bind_assoc]
      refine ends_select fun order rows hchoice hrows => ?_
      refine loadAnalyses_reads rows _ fun m => .ret fun _ _ reply hreply => ?_
      obtain rfl := Except.ok.inj hreply
      simp [ReadCall.listed, ReadCall.photosAt, hchoice, hrows, Reply.shown, shownAt,
        PhotoService.photoResponse, Function.comp_def]
  | getBatch batchId =>
      simp only [ReadCall.program, BatchService.getBatch, BatchRepository.getById,
        bind_eq, bind_assoc]
      refine ends_select fun order found _ _ => ?_
      cases found with
      | none => exact .raise fun _ _ _ h => nomatch h
      | some batch =>
          simp only [bind_assoc]
          refine ends_select fun order photos hchoice hphotos => ?_
          obtain rfl : ((worlds 1).view t).batchPhotos batchId = photos :=
            Option.some.inj hphotos
          refine loadAnalyses_reads _ _ fun m => ?_
          have hreply : Ends (meets t worlds choices) (fun _ => True) (.ret (Reply.batch
              (BatchService.batchResponse batch.batchId
                ((((worlds 1).view t).batchPhotos batchId).map fun photo =>
                  ⟨photo, ((worlds 2).view t).analysis photo.photoId⟩))))
              (Returns fun reply => reply.shown =
                (((worlds 1).view t).batchPhotos batchId).map
                  (shownAt ((worlds 2).view t))) := by
            refine .ret fun _ _ reply hreply => ?_
            obtain rfl := Except.ok.inj hreply
            simp [Reply.shown, shownAt, BatchService.batchResponse,
              BatchService.photoDetail, Function.comp_def]
          simp only [pure_eq_ret, ret_bind]
          split
          · exact ends_after fun _ => ends_after fun _ => hreply
          · exact hreply.pre fun _ _ => trivial

/-! ## The analysis of a photo in one state -/

variable {settings : Settings} {state : State} {states : Nat → State} {T T' : Tables}

theorem reachable_analysis (h : Reachable settings state) (id : UUID) :
    (state.world.db.committed.analysis id).isSome ↔
      state.world.db.committed.Done id := by
  have hI := reachable_inv h
  unfold Tables.Done
  cases hp : state.world.db.committed.photo id with
  | none => simp [show state.world.db.committed.analysis id = none from hI.orphan id hp]
  | some p =>
      obtain ⟨life, hshows⟩ := hI.life id _ (Tables.loaded_of_photo hp)
      have hlength := hshows.results (Tables.loaded_of_photo hp)
      have hstatus : p.status = life.status := hshows.status
      rw [Tables.results_eq, ← hstatus] at hlength
      change ((state.world.db.committed.analysis id).toList).length = _ at hlength
      rw [Option.map_some, Option.some.injEq]
      cases hanalysis : state.world.db.committed.analysis id with
      | none => simpa [hanalysis] using hlength
      | some row => simpa [hanalysis] using hlength

/-- A photo that is not done turns done from one state of the tables to the other. -/
def TurnsDone (T T' : Tables) (id : UUID) : Prop := ¬T.Done id ∧ T'.Done id

theorem done_of_leads (h : Reachable settings state) {state' : State}
    (hlead : (system settings).Leads state state') {id : UUID}
    (hdone : state.world.db.committed.Done id) :
    state'.world.db.committed.Done id := by
  obtain ⟨p, hp, hstatus⟩ := Option.map_eq_some_iff.mp hdone
  obtain ⟨q, hq, hprogress, -⟩ :=
    (photo_claimedOnce h id).final state' p hlead hp (.inl hstatus)
  refine Option.map_eq_some_iff.mpr ⟨q, hq, ?_⟩
  rw [← hstatus]
  exact congrArg Prod.fst hprogress

theorem shownAt_whole {p : Photo} (hp : T.photo p.photoId = some p)
    (hstays : T.Done p.photoId → T'.Done p.photoId)
    (hanalysis : (T'.analysis p.photoId).isSome ↔ T'.Done p.photoId) :
    (shownAt T' p).Whole ↔ ¬TurnsDone T T' p.photoId := by
  have hstatus : p.status.value = PhotoStatus.done.value ↔ T.Done p.photoId := by
    rw [Tables.Done, hp, Option.map_some, Option.some.injEq]
    cases p.status <;> decide
  have hshown : (shownAt T' p).analysis.isSome ↔ T'.Done p.photoId := by
    rw [← hanalysis, shownAt, PhotoService.analysisResponse, Option.isSome_map]
  rw [ShownPhoto.Whole, hshown]
  change (_ ↔ p.status.value = _) ↔ _
  rw [hstatus, TurnsDone, not_and, not_imp_not]
  exact ⟨Iff.mp, fun h => ⟨h, hstays⟩⟩

theorem photo_of_listed {call : ReadCall} {choice : Choice} {p : Photo}
    (hp : p ∈ call.listed T choice) : T.photo p.photoId = some p := by
  cases call with
  | getPhoto photoId =>
      have hfind : T.photo photoId = some p := Option.mem_toList.mp hp
      rw [Table.key_of_find hfind]
      exact hfind
  | listPhotos limit offset =>
      cases choice with
      | rows order =>
          obtain ⟨rows, hrows, hmem⟩ : ∃ rows,
              (Query.photos limit offset).answer T order = some rows ∧ p ∈ rows := by
            cases hanswer : (Query.photos limit offset).answer T order with
            | none => simp [ReadCall.listed, hanswer] at hp
            | some rows => exact ⟨rows, rfl, by simpa [ReadCall.listed, hanswer] using hp⟩
          obtain ⟨all, hall, rfl⟩ := Option.map_eq_some_iff.mp hrows
          have hin := mem_of_inOrder hall (List.mem_of_mem_drop (List.mem_of_mem_take hmem))
          exact Table.find_of_mem hin
      | _ => cases hp
  | getBatch batchId => exact (Tables.mem_batchPhotos.mp hp).1

/-- The response is whole unless a photo turns done between the two selects. -/
theorem read_whole_iff (call : ReadCall) (states : Nat → State) (choices : Nat → Choice)
    (t : Tid) (h : Reachable settings (states 0))
    (hlead : ∀ n, (system settings).Leads (states n) (states (n + 1)))
    (hidle : ∀ n ≤ call.photosAt + 1, (states n).world.db.writes t = []) {reply : Reply}
    (hreply : (call.program.run (meets t (fun n => (states n).world) choices) 0).1 =
      .ok reply) :
    (∀ item ∈ reply.shown, item.Whole) ↔
      ∀ p ∈ call.listed (states call.photosAt).world.db.committed
          (choices call.photosAt),
        ¬TurnsDone (states call.photosAt).world.db.committed
          (states (call.photosAt + 1)).world.db.committed p.photoId := by
  have hview : ∀ n ≤ call.photosAt + 1, (states n).world.view t =
      (states n).world.db.committed := fun n hn => TxStore.view_of_clean (hidle n hn)
  have hshown := shown_eq call 0 rfl reply hreply
  rw [hview _ (Nat.le_succ _), hview _ le_rfl] at hshown
  rw [hshown, List.forall_mem_map]
  refine forall₂_congr fun p hp => shownAt_whole (photo_of_listed hp) ?_
    (reachable_analysis (reachable_states h hlead _).2 _)
  exact done_of_leads (reachable_states h hlead _).2 (hlead _)

/-! ## A response that is not whole -/

/-- Some item of what the call returns has the property. -/
def ShowsSome (call : ReadCall) (states : Nat → State) (choices : Nat → Choice)
    (t : Tid) (p : ShownPhoto → Bool) : Bool :=
  match (call.program.run (meets t (fun n => (states n).world) choices) 0).1 with
  | .ok reply => reply.shown.any p
  | .error _ => false

theorem exists_of_showsSome {call : ReadCall} {p : ShownPhoto → Bool}
    (h : ShowsSome call states choices t p = true) :
    ∃ reply, (call.program.run (meets t (fun n => (states n).world) choices) 0).1 =
      .ok reply ∧ ∃ item ∈ reply.shown, p item = true := by
  unfold ShowsSome at h
  cases hrun : (call.program.run (meets t (fun n => (states n).world) choices) 0).1 with
  | error exc => simp [hrun] at h
  | ok reply =>
      rw [hrun] at h
      exact ⟨reply, rfl, List.any_eq_true.mp h⟩

/-- Worker 2 has committed its claim. -/
def claimed : Schedule := uploads ++ publishes ++ receives 2 ++ goes 2 1

/-- It goes on to the end. -/
def finishes : Schedule :=
  goes 2 1 ++ [.step 2 (.time 1), .step 2 (.response response), .step 2 (.time 3)] ++
    goes 2 9

theorem leads_of_any (settings : Settings) (first last : Schedule)
    {P : State → State → Prop} [∀ a b, Decidable (P a b)]
    (h : ((system settings).follow start first).any (fun a =>
      ((system settings).follow a last).any (P a ·)) = true) :
    ∃ a b, Reachable settings a ∧ (system settings).Leads a b ∧ P a b := by
  cases hfirst : (system settings).follow start first with
  | none => simp [hfirst] at h
  | some a =>
      cases hlast : (system settings).follow a last with
      | none => simp [hfirst, hlast] at h
      | some b =>
          simp only [hfirst, hlast, Option.any_some, decide_eq_true_iff] at h
          exact ⟨a, b, ⟨first, hfirst⟩, ⟨last, hlast⟩, h⟩

/-- The first select meets one state, all the later ones the other. -/
def between (a b : State) : Nat → State
  | 0 => a
  | _ + 1 => b

theorem read_whole_done : ∃ state reply, Reachable defaultSettings state ∧
    ((ReadCall.getPhoto jpegId).program.run
      (meets 9 (fun _ => state.world) fun _ => .rows []) 0).1 = .ok reply ∧
    (∃ item ∈ reply.shown, item.analysis.isSome) ∧
    ∀ item ∈ reply.shown, item.Whole := by
  obtain ⟨state, hreach, hidle, hshows⟩ := reachable_of_any defaultSettings
    (claimed ++ finishes) (P := fun state => state.world.db.writes 9 = [] ∧
      ShowsSome (.getPhoto jpegId) (fun _ => state) (fun _ => .rows []) 9
        fun item => item.analysis.isSome) (by decide +kernel)
  obtain ⟨reply, hreply, hanalysis⟩ := exists_of_showsSome hshows
  refine ⟨state, reply, hreach, hreply, hanalysis, ?_⟩
  refine (read_whole_iff (.getPhoto jpegId) (fun _ => state) _ 9 hreach
    (fun _ => ⟨[], rfl⟩) (fun _ _ => hidle) hreply).mpr ?_
  exact fun p _ hturns => hturns.1 hturns.2

theorem read_not_whole :
    ¬∀ (settings : Settings) (call : ReadCall) (states : Nat → State)
      (choices : Nat → Choice) (t : Tid) (reply : Reply),
      Reachable settings (states 0) →
      (∀ n, (system settings).Leads (states n) (states (n + 1))) →
      (∀ n ≤ call.photosAt + 1, (states n).world.db.writes t = []) →
      (call.program.run (meets t (fun n => (states n).world) choices) 0).1 =
        .ok reply →
      ∀ item ∈ reply.shown, item.Whole := by
  intro h
  obtain ⟨a, b, hreach, hlead, ⟨hidle, hidle'⟩, htorn⟩ := leads_of_any defaultSettings
    claimed finishes (P := fun a b =>
      (a.world.db.writes 9 = [] ∧ b.world.db.writes 9 = []) ∧
      ShowsSome (.getPhoto jpegId) (between a b) (fun _ => .rows []) 9 fun item =>
        item.analysis.isSome && item.status = PhotoStatus.processing.value)
    (by decide +kernel)
  obtain ⟨reply, hreply, item, hitem, htorn⟩ := exists_of_showsSome htorn
  rw [Bool.and_eq_true, decide_eq_true_iff] at htorn
  have hwhole := (h defaultSettings (.getPhoto jpegId) (between a b) _ 9 reply hreach ?_ ?_
    hreply item hitem).mp htorn.1
  · rw [htorn.2] at hwhole
    exact absurd hwhole (by decide)
  · rintro (_ | n)
    · exact hlead
    · exact ⟨[], rfl⟩
  · rintro (_ | n) -
    · exact hidle
    · exact hidle'

end PhotoAnalysis

import PhotoAnalysis.Refinement.Facts

/-!
# The processor keeps its guarantee

A claim commits on a pending photo only, and from then on the task is the only
one to write the photo's progress.  Each further commit is the next step of the
photo's life, and no more requests are made than attempts are allowed.
-/

namespace PhotoAnalysis

open Foundation Program PhotoRepository

variable {M : Nat} {t : Tid} {arrival : Arrival} {own : Own}
variable {position : Nat} {id : UUID}

/-! ## A working task and its commits -/

section

variable {L : Ledger} {tried asked : Nat}

theorem Ledger.Working.row (h : L.Working M t id tried asked) :
    ∃ p, L.tables.photo id = some p ∧ L.tables.analysis id = none ∧
      p.status = .processing := by
  obtain ⟨life, ⟨a, hloaded, hshows⟩, ht⟩ := h.lives
  obtain ⟨hp, ha⟩ := Tables.loaded_eq_some.mp hloaded
  obtain ⟨hstatus, -, hresult⟩ := Life.status_of_tried ht
  refine ⟨a.photo, hp, ?_, hshows.status.trans hstatus⟩
  rw [ha]
  simpa [hresult] using hshows.result

/-- The claim of a pending photo makes its task the owner. -/
theorem Ledger.Pending.claim (hI : Inv M L) (h : L.Pending id) :
    (L.commit t [claimWrite id]).Working M t id 0 0 := by
  obtain ⟨p, hp, hs⟩ := h
  have hloaded := Tables.loaded_of_photo hp
  obtain ⟨life, hshows⟩ := hI.life id _ hloaded
  obtain rfl := Life.eq_pending (hshows.status.symm.trans hs)
  refine ⟨List.mem_cons_self, ⟨.claimed, ⟨⟨p.set { status := some .processing },
    L.tables.analysis id⟩, ?_, ?_, hshows.result⟩, rfl⟩, ?_⟩
  · rw [Tables.loaded_eq_some]
    simp [Ledger.commit, claimWrite, hp]
  · exact congrArg (Prod.mk PhotoStatus.processing)
      (congrArg Prod.snd hshows.progress)
  · have hclaims : L.claims id = 0 := by
      rw [hI.claims id, hloaded]
      simp [claimsDue, hs]
    have hasked := hI.asked id
    rw [if_pos hclaims] at hasked
    exact hasked

/-- A failed attempt that has been recorded. -/
theorem Ledger.Working.attempt (h : L.Working M t id tried asked)
    (hn : tried + 1 ≤ M) (code message : Str) :
    (L.commit t [.setPhoto id (attemptValues (tried + 1) code message)]).Working
      M t id (tried + 1) asked := by
  obtain ⟨p, hp, ha, hs⟩ := h.row
  refine ⟨List.mem_cons_of_mem _ h.owner, ⟨.retrying (tried + 1) (Column.cut 64 code)
    message ⟨Nat.le_add_left 1 tried, hn⟩,
    ⟨⟨p.set (attemptValues (tried + 1) code message), none⟩, ?_, ?_, rfl⟩, rfl⟩, h.asked⟩
  · rw [Tables.loaded_eq_some]
    simp [Ledger.commit, hp, ha]
  · exact congrArg (fun status => (status, _)) hs

theorem Ledger.Working.ask (h : L.Working M t id tried asked)
    (photoId objectKey : Str) :
    (L.ask photoId objectKey).Working M t id tried (asked + 1) := by
  refine ⟨h.owner, h.lives, ?_⟩
  have hle := h.asked
  simp only [Ledger.asked, Ledger.ask, List.countP_cons] at hle ⊢
  split <;> omega

/-- Something has been done about the photo, or its claim has failed. -/
def Ledger.Handled (L : Ledger) (id : UUID) : Prop :=
  ∃ p, L.tables.photo id = some p ∧ (p.status ≠ .pending ∨ L.ClaimRaised id)

theorem Ledger.Handled.mono {L' : Ledger} (hg : Grows L L')
    (h : L.Handled id) : L'.Handled id := by
  obtain ⟨p, hp, h⟩ := h
  obtain ⟨q, hq, -, -, hclaimed⟩ := hg.photo hp
  exact ⟨q, hq, h.imp hclaimed (.mono hg)⟩

theorem Growing.handled (id : UUID) : Growing M (Ledger.Handled · id) :=
  fun _ _ _ hg h => h.mono hg

theorem Ledger.Working.handled (h : L.Working M t id tried asked) :
    L.Handled id := by
  obtain ⟨p, hp, -, hs⟩ := h.row
  exact ⟨p, hp, .inl (by simp [hs])⟩

end

/-! ## Writes of the owner -/

/-- An unconditional update of the photo a task works on. -/
theorem updateOwn_spec {tried asked : Nat} {values : PhotoValues} {ws : List Write}
    (hphoto : ∀ T : Tables, (ws.foldl Write.apply T).photo id = T.photo id)
    {traceId : Json} :
    Spec M t (At t arrival ⟨ws, position, traceId⟩
        (Ledger.Working M · t id tried asked))
      (wait (.execute (.updatePhoto id none values))) fun answer w =>
        match answer with
        | .ok _ => At t arrival ⟨ws ++ [.setPhoto id values], position, traceId⟩
            (Ledger.Working M · t id tried asked) w
        | .error _ => Over t arrival position w := by
  refine (spec_execute (N := fun _ => False)
    (W := fun write L => write = .setPhoto id values ∧
      L.Working M t id tried asked) (E := fun _ _ => True) (.const False)
    (fun write => (Lasting.const _).and (.working id tried asked))
    (fun _ => .const True) ?_ ?_ fun _ _ _ _ => trivial).post ?_
  · intro L now hI h hres
    obtain ⟨p, hp, -, -⟩ := h.row
    have hview : (Own.view ⟨ws, position, traceId⟩ L).photo id = some p :=
      (hphoto L.tables).trans hp
    simp only [Stmt.resolve, hview, Option.all_none, if_true] at hres
    split at hres
    · cases hres
    · split at hres <;> cases hres
  · intro L now write hI h hres
    simp only [Stmt.resolve] at hres
    split at hres
    · cases hres
    split at hres
    · cases hres
    split at hres
    · split at hres <;> cases hres
      exact ⟨rfl, h⟩
    · cases hres
  · rintro (exc | rowcount) w hI h
    · exact h.over
    · rcases h with ⟨-, hat⟩ | ⟨-, write, hat⟩
      · exact hat.fact.elim
      · obtain ⟨rfl, h⟩ := hat.fact
        exact hat.mono fun _ => h

/-- A commit of the owner's after which nothing is owed. -/
theorem commitOwn_spec {K : Ledger → Prop} (hown : own.position = position)
    (htx : ∀ L, K L → Tx M t L own.writes) :
    Spec M t (At t arrival own K) (wait .commit)
      fun _ => Over t arrival position := by
  subst hown
  refine (spec_commit (J := fun _ => True) (E := fun _ _ => True) (.const True)
    (fun _ => .const True) (fun L _ _ h => htx L h) (fun _ _ _ _ => trivial)
    (fun _ _ _ _ => trivial) fun _ _ _ _ _ => trivial).post ?_
  rintro (exc | value) w hI h
  · exact h.over
  · exact h.over

section

variable {settings : Settings} {photoId objectKey : Str} {traceId : Json}

theorem upsert_spec {response : AnalyzePhotoResponse} {tried asked : Nat} :
    Spec M t (At t arrival ⟨[], position, traceId⟩
        (Ledger.Working M · t id tried asked))
      (AnalysisResultRepository.upsert id response) fun answer w =>
        match answer with
        | .ok _ => ∃ row : AnalysisResult, row.photoId = id ∧
            At t arrival ⟨[.addAnalysis row], position, traceId⟩
              (Ledger.Working M · t id tried asked) w
        | .error _ => Over t arrival position w := by
  refine .bind (fun _ w => ∃ row : AnalysisResult, row.photoId = id ∧
    At t arrival ⟨[.addAnalysis row], position, traceId⟩
      (Ledger.Working M · t id tried asked) w) ?_ fun _ => .ret fun w hI h => h
  refine (spec_execute (N := fun _ => False)
    (W := fun write L => ∃ row : AnalysisResult, (write = .addAnalysis row ∧
      row.photoId = id) ∧ L.Working M t id tried asked) (E := fun _ _ => True)
    (.const False) (fun write => .exists_ fun row =>
      (Lasting.const _).and (.working id tried asked))
    (fun _ => .const True) ?_ ?_ fun _ _ _ _ => trivial).post ?_
  · intro L now hI h hres
    obtain ⟨p, hp, ha, -⟩ := h.row
    have hview : (Own.view ⟨[], position, traceId⟩ L).analysis id = none := ha
    simp only [Stmt.resolve, hview] at hres
    split at hres
    · cases hres
    · rw [if_neg (by simp)] at hres
      split at hres <;> cases hres
  · intro L now write hI h hres
    simp only [Stmt.resolve] at hres
    split at hres
    · cases hres
    split at hres
    · cases hres
    split at hres <;> cases hres
    exact ⟨_, ⟨rfl, rfl⟩, h⟩
  · rintro (exc | rowcount) w hI h
    · exact h.over
    · rcases h with ⟨-, hat⟩ | ⟨-, write, hat⟩
      · exact hat.fact.elim
      · obtain ⟨row, ⟨rfl, hrow⟩, h⟩ := hat.fact
        exact ⟨row, hrow, hat.mono fun _ => h⟩

/-- What the retry loop hands to the terminal write. -/
def Ledger.Fair (M : Nat) (L : Ledger) (t : Tid) (id : UUID)
    (progress : AnalysisProcessor.Progress) : Prop :=
  (∃ response tried asked, (progress.response = some response ∧
    progress.attempts = tried + 1 ∧ tried + 1 ≤ M) ∧
      L.Working M t id tried asked) ∨
  ∃ asked, (progress.response = none ∧ min 1 M ≤ progress.attempts) ∧
    L.Working M t id progress.attempts asked

theorem Lasting.fair (progress : AnalysisProcessor.Progress)
    {locks : RowKey → Prop} :
    Lasting M t locks (Ledger.Fair M · t id progress) :=
  (Lasting.exists_ fun _ => .exists_ fun _ => .exists_ fun _ =>
    (Lasting.const _).and (.working _ _ _)).or
    (.exists_ fun _ => (Lasting.const _).and (.working _ _ _))

theorem writeDone_spec (response : AnalyzePhotoResponse) {tried asked : Nat}
    (hn : tried + 1 ≤ M) :
    Spec M t (At t arrival ⟨[], position, traceId⟩
        (Ledger.Working M · t id tried asked))
      (do AnalysisResultRepository.upsert id response
          markDone id (tried + 1)
          wait .commit) fun _ => Over t arrival position := by
  refine .bind (fun _ w => ∃ row : AnalysisResult, row.photoId = id ∧
    At t arrival ⟨[.addAnalysis row], position, traceId⟩
      (Ledger.Working M · t id tried asked) w) ?_ fun _ => ?_
  · refine upsert_spec.post ?_
    rintro (exc | value) w hI h <;> exact h
  refine .exists_ fun row => .assume fun hrow => ?_
  refine .bind (fun _ => At t arrival ⟨[.addAnalysis row,
      .setPhoto id (doneValues (tried + 1))], position, traceId⟩
    (Ledger.Working M · t id tried asked)) ?_ fun _ => ?_
  · refine .bind (fun _ => At t arrival ⟨[.addAnalysis row,
        .setPhoto id (doneValues (tried + 1))], position, traceId⟩
      (Ledger.Working M · t id tried asked)) ?_ fun _ => .ret fun w hI h => h
    refine (updateOwn_spec fun T => rfl).post ?_
    rintro (exc | value) w hI h <;> exact h
  · refine commitOwn_spec rfl fun L h => ?_
    obtain ⟨life, hlife, ht⟩ := h.lives
    exact .done h.owner hlife ht hn hrow

theorem writeFailed_spec (code message : Str) {tried asked : Nat}
    (hn : min 1 M ≤ tried) :
    Spec M t (At t arrival ⟨[], position, traceId⟩
        (Ledger.Working M · t id tried asked))
      (do markFailed id code message tried
          wait .commit) fun _ => Over t arrival position := by
  refine .bind (fun _ => At t arrival ⟨[.setPhoto id (failedValues code message tried)],
    position, traceId⟩ (Ledger.Working M · t id tried asked)) ?_ fun _ => ?_
  · refine .bind (fun _ => At t arrival ⟨[.setPhoto id
      (failedValues code message tried)], position, traceId⟩
        (Ledger.Working M · t id tried asked)) ?_ fun _ => .ret fun w hI h => h
    refine (updateOwn_spec fun T => rfl).post ?_
    rintro (exc | value) w hI h <;> exact h
  · refine commitOwn_spec rfl fun L h => ?_
    obtain ⟨life, hlife, ht⟩ := h.lives
    exact .fail h.owner hlife ht hn

theorem terminalWrite_spec (progress : AnalysisProcessor.Progress) :
    Spec M t (At t arrival ⟨[], position, traceId⟩
        (Ledger.Fair M · t id progress))
      (AnalysisProcessor.terminalWrite id progress)
      fun _ => Over t arrival position := by
  have hcounts : ∀ metric amount metric' amount', Spec M t (Over t arrival position)
      (do wait (.count metric amount)
          wait (.count metric' amount') : Py Unit) fun _ => Over t arrival position :=
    fun _ _ _ _ => .seq _ (spec_harmless rfl (.const True))
      (fun _ => spec_harmless rfl (.const True)) fun _ _ _ h => h
  rintro w hI ⟨hown, harrival, hlive, hfact⟩
  rcases hfact with ⟨response, tried, asked, ⟨hresponse, hattempts, hn⟩, hwork⟩ |
    ⟨asked, ⟨hnone, hn⟩, hwork⟩
  · simp only [AnalysisProcessor.terminalWrite, hresponse, hattempts, bind_eq]
    have hat : At t arrival ⟨[], position, traceId⟩
        (Ledger.Working M · t id tried asked) w := ⟨hown, harrival, hlive, hwork⟩
    have := Discipline.Triple.seq _ (writeDone_spec response hn) (fun _ => hcounts
      .photoAnalysisCompletedTotal 1 (.workerMessagesProcessedTotal (py "done")) 1)
      (fun _ _ _ h => h) w hI hat
    simpa only [bind_eq, bind_assoc] using this
  · simp only [AnalysisProcessor.terminalWrite, hnone, bind_eq]
    have hat : At t arrival ⟨[], position, traceId⟩
        (Ledger.Working M · t id progress.attempts asked) w :=
      ⟨hown, harrival, hlive, hwork⟩
    have := Discipline.Triple.seq _
      (writeFailed_spec progress.lastCode progress.lastMessage hn) (fun _ => hcounts
      (.photoAnalysisFailedTotal (AnalysisProcessor.failureReason progress.decision))
      1 (.workerMessagesProcessedTotal (py "failed")) 1)
      (fun _ _ _ h => h) w hI hat
    simpa only [bind_eq, bind_assoc] using this

/-! ## The retry loop -/

theorem recordAttempt_spec {code message : Str} {tried asked : Nat}
    (hn : tried + 1 ≤ M) :
    Spec M t (At t arrival ⟨[], position, traceId⟩
        (Ledger.Working M · t id tried asked))
      (do recordAttempt id (tried + 1) code message
          wait .commit) fun answer w => match answer with
      | .ok _ => At t arrival ⟨[], position, traceId⟩
          (Ledger.Working M · t id (tried + 1) asked) w
      | .error _ => Over t arrival position w := by
  refine .bind (fun _ => At t arrival ⟨[.setPhoto id
    (attemptValues (tried + 1) code message)], position, traceId⟩
      (Ledger.Working M · t id tried asked)) ?_ fun _ => ?_
  · refine .bind (fun _ => At t arrival ⟨[.setPhoto id
      (attemptValues (tried + 1) code message)], position, traceId⟩
        (Ledger.Working M · t id tried asked)) ?_ fun _ => .ret fun w hI h => h
    refine (updateOwn_spec fun T => rfl).post ?_
    rintro (exc | value) w hI h <;> exact h
  · refine (spec_commit (J := (Ledger.Working M · t id (tried + 1) asked))
      (E := fun _ _ => True) (.working id (tried + 1) asked)
      (fun _ => .const True) ?_ (fun L _ _ h => h.attempt hn code message)
      (fun _ _ _ _ => trivial) fun _ _ _ _ _ => trivial).post ?_
    · intro L _ _ h
      obtain ⟨life, hlife, ht⟩ := h.lives
      exact .attempt h.owner hlife ht hn
    · rintro (exc | value) w hI h
      · exact h.over
      · exact h

theorem retryLoop_spec (hid : UUID.parse photoId = some id) {remaining : Nat}
    (tried : Nat) (hM : tried + remaining = M) {progress : AnalysisProcessor.Progress}
    (hattempts : progress.attempts = tried) (hresponse : progress.response = none) :
    Spec M t (At t arrival ⟨[], position, traceId⟩
        (Ledger.Working M · t id tried tried))
      (AnalysisProcessor.retryLoop settings photoId objectKey id remaining
        (tried + 1) progress) fun answer w => match answer with
      | .ok progress => At t arrival ⟨[], position, traceId⟩
          (Ledger.Fair M · t id progress) w
      | .error _ => Over t arrival position w := by
  induction remaining generalizing tried progress with
  | zero =>
      refine .ret fun w hI h => h.mono fun h => .inr ⟨tried, ⟨hresponse, ?_⟩, ?_⟩
      · omega
      · rw [hattempts]
        exact h
  | succ remaining ih =>
      unfold AnalysisProcessor.retryLoop
      have hasked : Spec M t (At t arrival ⟨[], position, traceId⟩
          (Ledger.Working M · t id tried tried))
          (AnalyzerGrpcClient.analyze photoId objectKey) fun _ =>
            At t arrival ⟨[], position, traceId⟩
              (Ledger.Working M · t id tried (tried + 1)) :=
        spec_analyzePhoto (.working id tried (tried + 1)) hid
          (fun L hI h => ⟨h.owner, lt_of_le_of_lt h.asked (by omega)⟩)
          fun L hI h => h.ask photoId objectKey
      refine .seq _ (.attempt hasked) (fun outcome => ?_) fun exc w hI h => h.over
      cases outcome with
      | ok response =>
          refine .ret fun w hI h => h.mono fun h =>
            .inl ⟨response, tried, tried + 1, ⟨rfl, rfl, by omega⟩, h⟩
      | error exc =>
          dsimp only
          split
          · exact .raise fun w hI h => h.over
          refine .seq _ (spec_local rfl (.working id tried (tried + 1)))
            (fun _ => ?_) fun exc w hI h => h.over
          rw [bind_eq, bind_eq, ← bind_assoc]
          refine .bind (fun _ => At t arrival ⟨[], position, traceId⟩
            (Ledger.Working M · t id (tried + 1) (tried + 1))) ?_ fun _ => ?_
          · refine (recordAttempt_spec (by omega)).post ?_
            rintro (exc' | value) w hI h <;> exact h
          split
          · refine .ret fun w hI h => h.mono fun h => .inr ⟨tried + 1, ⟨rfl, ?_⟩, h⟩
            exact Nat.le_trans (Nat.min_le_left 1 M) (Nat.le_add_left 1 tried)
          · refine .seq _ (.ofExcept fun w hI h => h) (fun delay => ?_)
              fun exc w hI h => h.over
            refine .seq _ (spec_local rfl (.working id (tried + 1) (tried + 1)))
              (fun _ => ?_) fun exc w hI h => h.over
            exact ih (tried + 1) (by omega) rfl rfl

theorem analyzeClaimed_spec (hid : UUID.parse photoId = some id)
    (hM : settings.workerMaxAttempts.toNat = M) :
    Spec M t (At t arrival ⟨[], position, traceId⟩
        (Ledger.Working M · t id 0 0))
      (AnalysisProcessor.analyzeClaimed settings photoId objectKey id)
      fun _ => Over t arrival position := by
  have hwork : Lasting M t (fun _ => False) (Ledger.Working M · t id 0 0) :=
    .working id 0 0
  unfold AnalysisProcessor.analyzeClaimed
  refine .seq _ (spec_local rfl hwork.anyLocks) (fun _ => ?_) fun _ _ _ h => h.over
  refine .seq _ (spec_local rfl hwork.anyLocks) (fun t0 => ?_) fun _ _ _ h => h.over
  refine .bind (fun progress => At t arrival ⟨[], position, traceId⟩
    (Ledger.Fair M · t id progress)) ?_ fun progress => ?_
  · refine (retryLoop_spec hid 0 (by omega) rfl rfl).post ?_
    rintro (exc | progress) w hI h <;> exact h
  have hfair : Lasting M t (fun _ => False) (Ledger.Fair M · t id progress) :=
    .fair progress
  refine .seq _ (spec_local rfl hfair.anyLocks) (fun _ => ?_) fun _ _ _ h => h.over
  refine .seq _ (spec_local rfl hfair.anyLocks) (fun _ => ?_) fun _ _ _ h => h.over
  exact terminalWrite_spec progress

/-! ## The claim -/

theorem claimForProcessing_spec {known : Prop} :
    Spec M t (At t arrival ⟨[], position, traceId⟩
        (fun L => known → (L.tables.photo id).isSome))
      (claimForProcessing id) fun answer w => match answer with
      | .ok rowcount => rowcount = 0 ∧ At t arrival ⟨[], position, traceId⟩
            (fun L => known → L.Handled id) w ∨
          rowcount = 1 ∧ At t arrival ⟨[claimWrite id], position, traceId⟩
            (Ledger.Pending · id) w
      | .error _ => Adrift t arrival position
          (fun L => known → L.Handled id) w := by
  refine (spec_execute (N := fun L => known → L.Handled id)
    (W := fun write L => write = claimWrite id ∧ L.Pending id)
    (E := fun _ L => known → L.Handled id)
    (.imp _ (.of_growing (.handled id))) (fun write => .guarded ?_)
    (fun _ => .imp _ (.of_growing (.handled id))) ?_ ?_ ?_).post ?_
  · rintro rfl
    exact .pending ⟨claimWrite id, by simp [Own.add], by simp [claimWrite, Write.keys]⟩
  · intro L now hI h hres hknown
    obtain ⟨p, hp⟩ := Option.isSome_iff_exists.mp (h hknown)
    have hview : (Own.view ⟨[], position, traceId⟩ L).photo id = some p := hp
    refine ⟨p, hp, .inl fun hs => ?_⟩
    simp [claimStmt, Stmt.resolve, hview, hs, PhotoValues.storable,
      PhotoValues.fits] at hres
  · intro L now write hI h hres
    simp only [claimStmt, Stmt.resolve] at hres
    split at hres
    · cases hres
    split at hres
    · cases hres
    next p hp =>
      split at hres
      next hs =>
        split at hres <;> cases hres
        exact ⟨rfl, p, hp, by simpa using hs⟩
      next => cases hres
  · intro L exc hI h hknown
    obtain ⟨p, hp⟩ := Option.isSome_iff_exists.mp (h hknown)
    exact ⟨p, hp, .inr ⟨t, _, _, exc, List.mem_cons_self, .inl rfl⟩⟩
  · rintro (exc | rowcount) w hI h
    · exact h.adrift
    · rcases h with ⟨hzero, hat⟩ | ⟨hone, write, hat⟩
      · exact .inl ⟨hzero, hat⟩
      · obtain ⟨rfl, hpending⟩ := hat.fact
        exact .inr ⟨hone, hat.mono fun h => h.2⟩

/-- The photo was not pending: the transaction is empty. -/
theorem commitSkip_spec {known : Prop} :
    Spec M t (At t arrival ⟨[], position, traceId⟩ (fun L => known → L.Handled id))
      (wait .commit) fun _ => Adrift t arrival position
        (fun L => known → L.Handled id) := by
  have hK : Growing M fun L => known → L.Handled id := .imp _ (.handled id)
  refine (spec_commit (J := fun L => known → L.Handled id)
    (E := fun _ L => known → L.Handled id) (.of_growing hK)
    (fun _ => .of_growing hK) (fun _ _ _ _ => .nothing)
    (fun L hI _ h hk => (h hk).mono (hI.grows_commit .nothing))
    (fun L exc hI h hk => (h hk).mono (.note L _))
    fun L exc hI _ h hk => (h hk).mono
      ((hI.grows_commit .nothing).trans (.note _ _))).post ?_
  rintro (exc | value) w hI h
  · exact h.adrift
  · exact h.adrift

theorem commitClaim_spec :
    Spec M t (At t arrival ⟨[claimWrite id], position, traceId⟩
        (Ledger.Pending · id)) (wait .commit) fun answer w => match answer with
      | .ok _ => At t arrival ⟨[], position, traceId⟩
            (Ledger.Working M · t id 0 0) w
      | .error _ => Adrift t arrival position (Ledger.Handled · id) w := by
  refine (spec_commit (J := (Ledger.Working M · t id 0 0))
    (E := fun _ => (Ledger.Handled · id)) (.working id 0 0)
    (fun exc => .of_growing (.handled id)) ?_
    (fun L hI _ h => h.claim hI) ?_ ?_).post ?_
  · rintro L hI - ⟨p, hp, hs⟩
    exact .claim (Tables.loaded_of_photo hp) hs
  · rintro L exc hI ⟨p, hp, hs⟩
    exact ⟨p, hp, .inr ⟨t, _, _, exc, List.mem_cons_self, .inr ⟨rfl, rfl⟩⟩⟩
  · intro L exc hI _ h
    exact (h.claim hI).handled.mono (.note _ _)
  · rintro (exc | value) w hI h
    · exact h.adrift
    · exact h

theorem process_spec {known : Prop} (hknown : known → UUID.parse photoId = some id)
    (hM : settings.workerMaxAttempts.toNat = M) :
    Spec M t (At t arrival ⟨[], position, traceId⟩
        (fun L => known → (L.tables.photo id).isSome))
      (AnalysisProcessor.process settings photoId objectKey) fun _ =>
        Adrift t arrival position (fun L => known → L.Handled id) := by
  unfold AnalysisProcessor.process
  split
  next hnone =>
    refine .raise fun w hI h => h.adrift.mono fun _ hk => ?_
    simp [hknown hk] at hnone
  next photoUuid hparse =>
    have hsame : known → photoUuid = id := fun hk => by simpa [hparse] using hknown hk
    refine .conseq (P := At t arrival ⟨[], position, traceId⟩ fun L =>
        known → (L.tables.photo photoUuid).isSome)
      (Q := fun _ => Adrift t arrival position fun L =>
        known → L.Handled photoUuid) ?_ ?_ ?_
    · refine .bind (fun rowcount w =>
        rowcount = 0 ∧ At t arrival ⟨[], position, traceId⟩
            (fun L => known → L.Handled photoUuid) w ∨
          rowcount = 1 ∧ At t arrival ⟨[claimWrite photoUuid], position, traceId⟩
            (Ledger.Pending · photoUuid) w) ?_ fun rowcount => ?_
      · refine claimForProcessing_spec.post ?_
        rintro (exc | rowcount) w hI h <;> exact h
      rintro w hI (⟨rfl, hat⟩ | ⟨rfl, hat⟩)
      · refine Discipline.Triple.seq _ commitSkip_spec (fun _ => ?_)
          (fun _ _ _ h => h) w hI hat
        rw [if_pos rfl]
        exact spec_harmless rfl (.imp _ (.of_growing (.handled photoUuid)))
      · refine Discipline.Triple.bind (fun _ w => At t arrival ⟨[], position, traceId⟩
            (Ledger.Working M · t photoUuid 0 0) w ∧ w.ledger.Handled photoUuid)
          ?_ (fun _ => ?_) w hI hat
        · refine commitClaim_spec.post ?_
          rintro (exc | value) w hI h
          · exact h.mono fun h _ => h
          · exact ⟨h, h.fact.handled⟩
        · rw [if_neg (by decide)]
          refine (frame_growing (.handled photoUuid)
            (analyzeClaimed_spec hparse hM)).post ?_
          rintro outcome w hI ⟨h, hhandled⟩
          exact h.mono fun _ _ => hhandled
    · exact fun w _ hat => hat.mono fun h hk => hsame hk ▸ h hk
    · exact fun outcome w _ h => h.mono fun h hk => hsame hk ▸ h hk

end

end PhotoAnalysis

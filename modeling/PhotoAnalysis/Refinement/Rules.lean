import PhotoAnalysis.Refinement.Frame

/-!
# One rule for each operation

What an operation may assume of the ledger, and what it leaves behind when it
returns and when it raises.  An operation raises either without effect or after
it; a rule's exceptional postcondition covers both.
-/

namespace PhotoAnalysis

open Foundation Program

variable {M : Nat} {t : Tid} {arrival : Arrival} {own : Own}
variable {K : Ledger → Prop} {w w' : World}

/-- After an exception the transaction is still open, or it is lost. -/
def Dropped (t : Tid) (arrival : Arrival) (own : Own) (K : Ledger → Prop)
    (w : World) : Prop :=
  At t arrival own K w ∨ At t arrival { own with writes := [] } K w

theorem Dropped.adrift (h : Dropped t arrival own K w) :
    Adrift t arrival own.position K w := by
  rcases h with h | h
  · exact ⟨own, rfl, h⟩
  · exact ⟨{ own with writes := [] }, rfl, h⟩

theorem Dropped.steady (hK : Lasting M t (fun _ => False) K) :
    (discipline M).Steady t (Dropped t arrival own K) := by
  intro w w' hrely hI h
  have hJ : ∀ locks, Lasting M t locks K :=
    fun locks => hK.weaken fun _ h => h.elim
  exact h.imp (At.steady (hJ _) hrely hI) (At.steady (hJ _) hrely hI)

theorem At.steady_clean (hK : Lasting M t (fun _ => False) K) :
    (discipline M).Steady t (At t arrival { own with writes := [] } K) :=
  At.steady (hK.weaken fun _ h => h.elim)

/-! ## Building a guarantee -/

/-- A step whose only trace in the ledger is a note, if any. -/
theorem Guar.still (hframe : Frame t w w')
    (h : w'.ledger = w.ledger ∨
      ∃ event : Event, event.Note t ∧ w'.ledger = w.ledger.note event) :
    Guar M t w w' :=
  ⟨hframe, w.ledger, .inl rfl, h, fun _ _ => rfl⟩

theorem Guar.act (hframe : Frame t w w') {L : Ledger}
    (hact : Act M t w.ledger L) (htables : L.tables = w.ledger.tables)
    (h : w'.ledger = L ∨
      ∃ event : Event, event.Note t ∧ w'.ledger = L.note event) :
    Guar M t w w' :=
  ⟨hframe, L, .inr hact, h, fun _ _ => by rw [htables]⟩

theorem Guar.commit (hframe : Frame t w w')
    (ha : w.ledger.arrivals t = some arrival) (hlive : w.ledger.outcomes t = none)
    (htx : Tx M t w.ledger (w.db.writes t))
    (h : w'.ledger = w.ledger.commit t (w.db.writes t) ∨
      ∃ event : Event, event.Note t ∧
        w'.ledger = (w.ledger.commit t (w.db.writes t)).note event) :
    Guar M t w w' := by
  refine ⟨hframe, _, .inr (.commit hlive (by simp [ha]) htx), h, ?_⟩
  rintro k ⟨other, hne, hheld⟩
  exact TxStore.row_commit Tables.row_apply w.db hne hheld

theorem At.note {event : Event} (hK : Lasting M t own.locks K)
    (hI : Inv M w.ledger) (h : At t arrival own K w) (he : event.Note t) :
    At t arrival own K (w.note event) :=
  ⟨h.own, h.arrival, h.live, hK.quiet _ _ hI (.note _ he) h.fact⟩

/-! ## Operations that leave the ledger and the task's own state alone -/

def Op.isLocal : Op → Bool
  | utcnow | monotonic | getTraceId | count _ _ | sleep _ => true
  | getObject _ | stopConsumer | stopIsSet | waitStop => true
  | readProducer _ | setProducer _ _ | setStarted _ _ => true
  | acquireStartLock _ | releaseStartLock _ => true
  | buildProducer | startProducer _ | stopProducer _ _ => true
  | _ => false

theorem local_cases {op : Op} {choice : Choice} {answer : Except PyExc op.Ans}
    (hop : op.isLocal) (h : World.perform t op choice w = some (answer, w')) :
    w'.own t = w.own t ∧ (w'.ledger = w.ledger ∨
      ∃ exc, w'.ledger = w.ledger.note (.raised t op (w.db.writes t) exc)) := by
  rcases World.perform_cases h with ⟨exc, kept, hcan, -, rfl⟩ |
    ⟨exc, w₁, hw₁, -, -⟩ | h
  · have hkept : kept = true := by
      cases op <;> simp_all [Op.isLocal, Op.canFail]
    subst hkept
    exact ⟨rfl, .inr ⟨exc, rfl⟩⟩
  · cases op <;> first
      | (cases hw₁; done)
      | simp [Op.isLocal] at hop
  · suffices hsame : w'.own t = w.own t ∧ w'.ledger = w.ledger from
      ⟨hsame.1, .inl hsame.2⟩
    cases op with
    | getObject name =>
        cases choice <;> try cases h
        simp only [World.answer] at h
        split at h <;> cases h <;> exact ⟨rfl, rfl⟩
    | acquireStartLock app =>
        cases choice <;> try cases h
        simp only [World.answer] at h
        split at h <;> cases h
        exact ⟨rfl, rfl⟩
    | waitStop =>
        cases choice <;> try cases h
        simp only [World.answer] at h
        split at h <;> cases h
        exact ⟨rfl, rfl⟩
    | sleep seconds =>
        cases choice <;> try cases h
        simp only [World.answer] at h
        split at h <;> cases h
        exact ⟨rfl, rfl⟩
    | _ => first
        | (cases choice <;> cases h <;> exact ⟨rfl, rfl⟩)
        | simp [Op.isLocal] at hop

theorem spec_local {op : Op} (hop : op.isLocal) (hK : Lasting M t own.locks K) :
    Spec M t (At t arrival own K) (wait op) fun _ => At t arrival own K := by
  refine .call (fun _ => At.steady hK) fun w choice answer w' hI hat h => ?_
  obtain ⟨hown, hledger⟩ := local_cases hop h
  have hframe := Frame.perform h
  rcases hledger with hledger | ⟨exc, hledger⟩
  · exact ⟨.still hframe (.inl hledger), hown.trans hat.own,
      hledger ▸ hat.arrival, hledger ▸ hat.live, hledger ▸ hat.fact⟩
  · have hnote : (Event.raised t op (w.db.writes t) exc).Note t := rfl
    refine ⟨.still hframe (.inr ⟨_, hnote, hledger⟩), hown.trans hat.own,
      hledger ▸ hat.arrival, hledger ▸ hat.live, ?_⟩
    rw [hledger]
    exact hK.quiet _ _ hI (.note _ hnote) hat.fact

/-- Operations that always return. -/
def Op.isSure : Op → Bool
  | uuid4 | utcnow | monotonic | getTraceId | setTraceId _ | count _ _ => true
  | _ => false

theorem spec_sure {P : World → Prop} {op : Op}
    {Q : Except PyExc op.Ans → World → Prop} (hop : op.isSure)
    (h : Spec M t P (wait op) Q) :
    Spec M t P (wait op) fun answer w => match answer with
      | .ok value => Q (.ok value) w
      | .error _ => False := by
  intro w hI hw
  have hsafe := (discipline M).safe_call.mp (h w hI hw)
  refine (discipline M).safe_call.mpr fun choice answer w' hp => ?_
  obtain ⟨hguar, hsettles⟩ := hsafe choice answer w' hp
  refine ⟨hguar, fun w'' hrely hI' => ?_⟩
  cases answer with
  | ok value => exact hsettles w'' hrely hI'
  | error exc =>
      exfalso
      rcases World.perform_cases hp with ⟨exc, kept, hcan, -⟩ |
        ⟨exc, w₁, hw₁, -⟩ | h'
      · cases op <;> first
          | (cases hcan; done)
          | cases hop
      · cases op <;> first
          | (cases hw₁; done)
          | cases hop
      · cases op with
        | uuid4 =>
            cases choice <;> try cases h'
            simp only [World.answer] at h'
            split at h' <;> cases h'
        | _ => first
          | (cases choice <;> cases h')
          | cases hop

theorem spec_getTraceId (hK : Lasting M t own.locks K) :
    Spec M t (At t arrival own K) (wait .getTraceId) fun answer w =>
      answer = .ok own.traceId ∧ At t arrival own K w := by
  refine .call (fun answer => ?_) fun w choice answer w' hI hat h => ?_
  · intro w w' hrely hI ⟨heq, hat⟩
    exact ⟨heq, At.steady hK hrely hI hat⟩
  · rcases World.perform_cases h with ⟨exc, kept, hcan, -⟩ |
      ⟨exc, w₁, hw₁, -⟩ | h'
    · cases hcan
    · cases hw₁
    · cases choice <;> cases h'
      refine ⟨.still (Frame.perform h) (.inl rfl), ?_, hat⟩
      rw [← hat.own]
      rfl

theorem spec_traceIdVar {traceId : Str} (htrace : own.traceId = .str traceId)
    (hK : Lasting M t own.locks K) :
    Spec M t (At t arrival own K) traceIdVar fun answer w =>
      answer = .ok traceId ∧ At t arrival own K w := by
  refine .bind (fun value w => value = .str traceId ∧ At t arrival own K w) ?_
    fun value => ?_
  · refine (spec_getTraceId hK).post ?_
    rintro answer w hI ⟨rfl, hat⟩
    exact ⟨htrace, hat⟩
  · rintro w hI ⟨rfl, hat⟩
    exact ⟨rfl, hat⟩

theorem spec_setTraceId {value : Json} (hK : Lasting M t own.locks K) :
    Spec M t (At t arrival own K) (wait (.setTraceId value)) fun _ =>
      At t arrival { own with traceId := value } K := by
  refine .call (fun _ => At.steady hK) fun w choice answer w' hI hat h => ?_
  rcases World.perform_cases h with ⟨exc, kept, hcan, -⟩ |
    ⟨exc, w₁, hw₁, -⟩ | h'
  · cases hcan
  · cases hw₁
  · cases choice <;> cases h'
    refine ⟨.still (Frame.perform h) (.inl rfl), ?_, hat.arrival, hat.live, hat.fact⟩
    rw [← hat.own]
    simp [World.own]

/-! ## Names -/

/-- The ledger after task `t` has made up a name. -/
def Ledger.mint (L : Ledger) (t : Tid) (id : UUID) : Ledger :=
  { L with minted := Function.update L.minted id (some t) }

theorem spec_uuid4 {J : UUID → Ledger → Prop} (hK : Lasting M t own.locks K)
    (hJ : ∀ id, Lasting M t own.locks (J id))
    (h : ∀ L id, Inv M L → K L → K (L.mint t id) → L.minted id = none →
      (L.mint t id).Fresh t id → L.tables.batch id = none → J id (L.mint t id)) :
    Spec M t (At t arrival own K) (wait .uuid4) fun answer w => match answer with
      | .ok id => At t arrival own (J id) w
      | .error _ => False := by
  refine .call ?_ fun w choice answer w' hI hat hp => ?_
  · rintro (exc | id)
    · exact fun _ _ _ _ h => h
    · exact At.steady (hJ id)
  · rcases World.perform_cases hp with ⟨exc, kept, hcan, -⟩ |
      ⟨exc, w₁, hw₁, -⟩ | h'
    · cases hcan
    · cases hw₁
    · cases choice <;> try cases h'
      rename_i id
      simp only [World.answer] at h'
      split at h'
      next hnone =>
        cases h'
        have hmint : w.ledger.minted id = none :=
          Option.isNone_iff_eq_none.mp hnone
        have hphoto : w.ledger.tables.photo id = none := by
          cases hphoto : w.ledger.tables.photo id with
          | none => rfl
          | some p =>
              have := hI.minted id (by simp [hphoto])
              simp [hmint] at this
        have hbatch : w.ledger.tables.batch id = none := by
          cases hbatch : w.ledger.tables.batch id with
          | none => rfl
          | some b =>
              have := hI.mintedBatch id (by simp [hbatch])
              simp [hmint] at this
        have hfact := hK.quiet _ _ hI (.mint hmint) hat.fact
        refine ⟨.act (Frame.perform hp) (.mint hmint) rfl (.inl rfl), hat.own,
          hat.arrival, hat.live, ?_⟩
        exact h _ id hI hat.fact hfact hmint
          ⟨Function.update_self .., hphoto⟩ hbatch
      next => cases h'

/-! ## The session -/

theorem World.own_rollback (w : World) (t : Tid) :
    (w.rollback t).own t = { w.own t with writes := [] } := by
  simp [World.own, World.rollback]

theorem At.rollback (h : At t arrival own K w) :
    At t arrival { own with writes := [] } K (w.rollback t) :=
  ⟨by rw [w.own_rollback, h.own], h.arrival, h.live, h.fact⟩

theorem At.writes (h : At t arrival own K w) : w.db.writes t = own.writes :=
  congrArg Own.writes h.own

/-- What an exception without effect leaves of a session. -/
theorem At.fail (h : At t arrival own K w) {E : Ledger → Prop} {op : Op}
    {exc : PyExc} (kept : Bool)
    (he : E (w.ledger.note (.raised t op own.writes exc))) :
    Dropped t arrival own E ((if kept then w else w.rollback t).note
      (.raised t op (w.db.writes t) exc)) := by
  rw [h.writes]
  cases kept with
  | true => exact .inl ⟨h.own, h.arrival, h.live, he⟩
  | false =>
      refine .inr ⟨?_, h.arrival, h.live, he⟩
      exact (w.own_rollback t).trans (by rw [h.own])

theorem Guar.fail {op : Op} {choice : Choice} {answer : Except PyExc op.Ans}
    (kept : Bool) (hp : World.perform t op choice w = some (answer, w'))
    {exc : PyExc} (hw : w' = (if kept then w else w.rollback t).note
      (.raised t op (w.db.writes t) exc)) : Guar M t w w' := by
  refine .still (Frame.perform hp) (.inr ⟨.raised t op (w.db.writes t) exc, rfl, ?_⟩)
  rw [hw]
  cases kept <;> rfl

theorem spec_rollback (hK : Lasting M t (fun _ => False) K) :
    Spec M t (At t arrival own K) (wait .rollback) fun _ =>
      At t arrival { own with writes := [] } K := by
  refine .call (fun _ => At.steady_clean hK) fun w choice answer w' hI hat h => ?_
  rcases World.perform_cases h with ⟨exc, kept, hcan, -, hw⟩ |
    ⟨exc, w₁, hw₁, -⟩ | h'
  · have hkept : kept = false := by simpa [Op.canFail] using hcan
    refine ⟨.fail _ h hw, ?_⟩
    subst hkept hw
    exact At.note (hK.weaken fun _ h => h.elim) hI hat.rollback rfl
  · cases hw₁
  · cases choice <;> cases h'
    exact ⟨.still (Frame.perform h) (.inl rfl), hat.rollback⟩

theorem spec_close (hK : Lasting M t (fun _ => False) K) :
    Spec M t (At t arrival own K) (wait .close) fun _ =>
      At t arrival { own with writes := [] } K := by
  refine .call (fun _ => At.steady_clean hK) fun w choice answer w' hI hat h => ?_
  rcases World.perform_cases h with ⟨exc, kept, hcan, -, hw⟩ |
    ⟨exc, w₁, hw₁, -⟩ | h'
  · have hkept : kept = false := by simpa [Op.canFail] using hcan
    refine ⟨.fail _ h hw, ?_⟩
    subst hkept hw
    exact At.note (hK.weaken fun _ h => h.elim) hI hat.rollback rfl
  · cases hw₁
  · cases choice <;> cases h'
    exact ⟨.still (Frame.perform h) (.inl rfl), hat.rollback⟩

/-- The tables as the session's own writes make them. -/
def Own.view (own : Own) (L : Ledger) : Tables :=
  own.writes.foldl Write.apply L.tables

theorem At.view (h : At t arrival own K w) : w.view t = own.view w.ledger := by
  rw [World.view, TxStore.view, Own.view, h.writes]
  rfl

theorem spec_select (query : Query) {J : query.Answer → Ledger → Prop}
    {E : PyExc → Ledger → Prop}
    (hJ : ∀ rows, Lasting M t own.locks (J rows))
    (hE : ∀ exc, Lasting M t (fun _ => False) (E exc))
    (h : ∀ L order rows, Inv M L → K L →
      query.answer (own.view L) order = some rows → J rows L)
    (he : ∀ L exc, Inv M L → K L →
      E exc (L.note (.raised t (.select query) own.writes exc))) :
    Spec M t (At t arrival own K) (wait (.select query)) fun answer w =>
      match answer with
      | .ok rows => At t arrival own (J rows) w
      | .error exc => Dropped t arrival own (E exc) w := by
  refine .call ?_ fun w choice answer w' hI hat hp => ?_
  · rintro (exc | rows)
    · exact Dropped.steady (hE exc)
    · exact At.steady (hJ rows)
  · rcases World.perform_cases hp with ⟨exc, kept, -, rfl, hw⟩ |
      ⟨exc, w₁, hw₁, -⟩ | h'
    · exact ⟨.fail _ hp hw, hw ▸ hat.fail kept (he _ _ hI hat.fact)⟩
    · cases hw₁
    · cases choice <;> try cases h'
      obtain ⟨rows, hrows, heq⟩ := Option.map_eq_some_iff.mp h'
      cases heq
      rw [hat.view] at hrows
      exact ⟨.still (Frame.perform hp) (.inl rfl), hat.own, hat.arrival, hat.live,
        h _ _ _ hI hat.fact hrows⟩

/-- The own state of a session with one more write. -/
def Own.add (own : Own) (write : Write) : Own :=
  { own with writes := own.writes ++ [write] }

theorem spec_execute {stmt : Stmt} {N : Ledger → Prop}
    {W : Write → Ledger → Prop} {E : PyExc → Ledger → Prop}
    (hN : Lasting M t own.locks N)
    (hW : ∀ write, Lasting M t (own.add write).locks (W write))
    (hE : ∀ exc, Lasting M t (fun _ => False) (E exc))
    (h₀ : ∀ L now, Inv M L → K L →
      stmt.resolve now (own.view L) = .ok none → N L)
    (h₁ : ∀ L now write, Inv M L → K L →
      stmt.resolve now (own.view L) = .ok (some write) → W write L)
    (he : ∀ L exc, Inv M L → K L →
      E exc (L.note (.raised t (.execute stmt) own.writes exc))) :
    Spec M t (At t arrival own K) (wait (.execute stmt)) fun answer w =>
      match answer with
      | .ok rowcount => rowcount = 0 ∧ At t arrival own N w ∨
          rowcount = 1 ∧ ∃ write, At t arrival (own.add write) (W write) w
      | .error exc => Dropped t arrival own (E exc) w := by
  refine .call ?_ fun w choice answer w' hI hat hp => ?_
  · rintro (exc | rowcount)
    · exact Dropped.steady (hE exc)
    · intro w w' hrely hI hq
      refine hq.imp (And.imp_right (At.steady hN hrely hI)) (And.imp_right ?_)
      exact fun ⟨write, hat⟩ => ⟨write, At.steady (hW write) hrely hI hat⟩
  · rcases World.perform_cases hp with ⟨exc, kept, -, rfl, hw⟩ |
      ⟨exc, w₁, hw₁, -⟩ | h'
    · exact ⟨.fail _ hp hw, hw ▸ hat.fail kept (he _ _ hI hat.fact)⟩
    · cases hw₁
    · cases choice <;> try cases h'
      simp only [World.answer, World.execute, hat.view] at h'
      split at h'
      next exc hres =>
        cases h'
        exact ⟨.fail false hp rfl,
          hat.fail false (he _ _ hI hat.fact)⟩
      next hres =>
        cases h'
        have hfact := h₀ _ _ hI hat.fact hres
        refine ⟨.still (Frame.perform hp) (.inr ⟨.executed t stmt 0, rfl, rfl⟩),
          .inl ⟨rfl, ?_⟩⟩
        exact ⟨hat.own, hat.arrival, hat.live,
          hN.quiet _ _ hI (.note (.executed t stmt 0) rfl) hfact⟩
      next write hres =>
        split at h'
        next hfree =>
          cases h'
          have hfact := h₁ _ _ write hI hat.fact hres
          refine ⟨.still (Frame.perform hp) (.inr ⟨.executed t stmt 1, rfl, rfl⟩),
            .inr ⟨rfl, write, ?_, hat.arrival, hat.live, ?_⟩⟩
          · rw [Own.add, ← hat.own]
            simp [World.own, World.note, World.begin]
          · exact (hW write).quiet _ _ hI
              (.note (.executed t stmt 1) rfl) hfact
        next => cases h'

theorem spec_commit {J : Ledger → Prop} {E : PyExc → Ledger → Prop}
    (hJ : Lasting M t (fun _ => False) J)
    (hE : ∀ exc, Lasting M t (fun _ => False) (E exc))
    (htx : ∀ L, Inv M L → L.arrivals t = some arrival → K L → Tx M t L own.writes)
    (h : ∀ L, Inv M L → L.arrivals t = some arrival → K L →
      J (L.commit t own.writes))
    (he : ∀ L exc, Inv M L → K L →
      E exc (L.note (.raised t .commit own.writes exc)))
    (he' : ∀ L exc, Inv M L → L.arrivals t = some arrival → K L →
      E exc ((L.commit t own.writes).note (.raised t .commit own.writes exc))) :
    Spec M t (At t arrival own K) (wait .commit) fun answer w =>
      match answer with
      | .ok _ => At t arrival { own with writes := [] } J w
      | .error exc => Dropped t arrival own (E exc) w := by
  refine .call ?_ fun w choice answer w' hI hat hp => ?_
  · rintro (exc | value)
    · exact Dropped.steady (hE exc)
    · exact At.steady_clean hJ
  · have htx' := htx _ hI hat.arrival hat.fact
    have hown : (w.commit t).own t = { own with writes := [] } := by
      rw [← hat.own]
      simp [World.own, World.commit]
    have hledger : (w.commit t).ledger = w.ledger.commit t own.writes := by
      rw [← hat.writes]
      rfl
    rw [← hat.writes] at htx'
    rcases World.perform_cases hp with ⟨exc, kept, -, rfl, hw⟩ |
      ⟨exc, w₁, hw₁, rfl, hw⟩ | h'
    · exact ⟨.fail _ hp hw, hw ▸ hat.fail kept (he _ _ hI hat.fact)⟩
    · cases hw₁
      subst hw
      refine ⟨.commit (Frame.perform hp) hat.arrival hat.live htx'
        (.inr ⟨.raised t _ (w.db.writes t) exc, rfl, rfl⟩), .inr ⟨hown, hat.arrival, hat.live, ?_⟩⟩
      have hfact := he' _ exc hI hat.arrival hat.fact
      rw [← hledger, ← hat.writes] at hfact
      exact hfact
    · cases choice <;> cases h'
      refine ⟨.commit (Frame.perform hp) hat.arrival hat.live htx' (.inl rfl),
        hown, hat.arrival, hat.live, ?_⟩
      rw [hledger]
      exact h _ hI hat.arrival hat.fact

/-! ## Objects, records and requests -/

/-- The ledger with another object under a key. -/
def Ledger.setObject (L : Ledger) (name : Str) (object : Option StoredObject) :
    Ledger :=
  { L with objects := Function.update L.objects name object }

theorem spec_putObject {id : UUID} {ext : Str} {data : Bytes} {contentType : Str}
    {J E : Ledger → Prop} (hJ : Lasting M t own.locks J)
    (hE : Lasting M t own.locks E) (hfresh : ∀ L, Inv M L → K L → L.Fresh t id)
    (h : ∀ L, Inv M L → K L → J (L.setObject (PhotoService.objectKey id ext)
      (some ⟨data, contentType⟩)))
    (he : ∀ L, Inv M L → K L → E L)
    (he' : ∀ L, Inv M L → K L → E (L.setObject (PhotoService.objectKey id ext)
      (some ⟨data, contentType⟩))) :
    Spec M t (At t arrival own K)
      (wait (.putObject (PhotoService.objectKey id ext) data contentType))
      fun answer w => match answer with
      | .ok _ => At t arrival own J w
      | .error _ => At t arrival own E w := by
  refine .call ?_ fun w choice answer w' hI hat hp => ?_
  · rintro (exc | value)
    · exact At.steady hE
    · exact At.steady hJ
  · have hact : Act M t w.ledger (w.ledger.setObject
        (PhotoService.objectKey id ext) (some ⟨data, contentType⟩)) :=
      .put (hfresh _ hI hat.fact)
    rcases World.perform_cases hp with ⟨exc, kept, hcan, rfl, hw⟩ |
      ⟨exc, w₁, hw₁, rfl, hw⟩ | h'
    · have hkept : kept = true := hcan
      subst hkept hw
      refine ⟨.fail true hp rfl, hat.own, hat.arrival, hat.live, ?_⟩
      exact hE.quiet _ _ hI (.note _ rfl) (he _ hI hat.fact)
    · cases hw₁
      subst hw
      refine ⟨.act (Frame.perform hp) hact rfl (.inr ⟨.raised t _ (w.db.writes t) exc, rfl, rfl⟩), hat.own,
        hat.arrival, hat.live, ?_⟩
      exact hE.quiet _ _ (hI.act hact) (.note _ rfl) (he' _ hI hat.fact)
    · cases choice <;> cases h'
      exact ⟨.act (Frame.perform hp) hact rfl (.inl rfl), hat.own, hat.arrival,
        hat.live, h _ hI hat.fact⟩

theorem spec_removeObject {id : UUID} {ext : Str} (hK : Lasting M t own.locks K)
    (hfresh : ∀ L, Inv M L → K L → L.Fresh t id)
    (h : ∀ L, Inv M L → K L →
      K (L.setObject (PhotoService.objectKey id ext) none)) :
    Spec M t (At t arrival own K)
      (wait (.removeObject (PhotoService.objectKey id ext)))
      fun _ => At t arrival own K := by
  refine .call (fun _ => At.steady hK) fun w choice answer w' hI hat hp => ?_
  have hact : Act M t w.ledger (w.ledger.setObject
      (PhotoService.objectKey id ext) none) := .put (hfresh _ hI hat.fact)
  rcases World.perform_cases hp with ⟨exc, kept, hcan, rfl, hw⟩ |
    ⟨exc, w₁, hw₁, rfl, hw⟩ | h'
  · have hkept : kept = true := hcan
    subst hkept hw
    exact ⟨.fail true hp rfl, At.note hK hI hat rfl⟩
  · cases hw₁
    subst hw
    refine ⟨.act (Frame.perform hp) hact rfl (.inr ⟨.raised t _ (w.db.writes t) exc, rfl, rfl⟩), hat.own,
      hat.arrival, hat.live, ?_⟩
    exact hK.quiet _ _ (hI.act hact) (.note _ rfl) (h _ hI hat.fact)
  · cases choice <;> cases h'
    exact ⟨.act (Frame.perform hp) hact rfl (.inl rfl), hat.own, hat.arrival,
      hat.live, h _ hI hat.fact⟩

/-- The ledger with one more record on the topic. -/
def Ledger.append (L : Ledger) (record : ConsumerRecord) : Ledger :=
  { L with topic := L.topic ++ [record] }

theorem spec_sendAndWait {client : ClientId} {value key : Bytes}
    {J : Ledger → Prop} (hK : Growing M K) (hJ : Lasting M t own.locks J)
    (hsend : ∀ L, Inv M L → K L → ∃ id p, L.tables.photo id = some p ∧
      Announces ⟨some value, some key, true⟩ p)
    (h : ∀ L, Inv M L → K L → J (L.append ⟨some value, some key, true⟩)) :
    Spec M t (At t arrival own K) (wait (.sendAndWait client value key))
      fun answer w => match answer with
      | .ok _ => At t arrival own J w
      | .error _ => At t arrival own K w := by
  refine .call ?_ fun w choice answer w' hI hat hp => ?_
  · rintro (exc | value)
    · exact At.steady (.of_growing hK)
    · exact At.steady hJ
  · rcases World.perform_cases hp with ⟨exc, kept, hcan, rfl, hw⟩ |
      ⟨exc, w₁, hw₁, rfl, hw⟩ | h'
    · have hkept : kept = true := hcan
      subst hkept hw
      exact ⟨.fail true hp rfl, At.note (.of_growing hK) hI hat rfl⟩
    · cases hw₁
      subst hw
      have hact : Act M t w.ledger
          (w.ledger.append ⟨some value, some key, false⟩) :=
        .send fun hacked => absurd hacked Bool.false_ne_true
      refine ⟨.act (Frame.perform hp) hact rfl (.inr ⟨.raised t _ (w.db.writes t) exc, rfl, rfl⟩), hat.own,
        hat.arrival, hat.live, ?_⟩
      exact hK _ _ hI ((hact.grows hI).trans (.note _ _)) hat.fact
    · cases choice <;> cases h'
      have hact : Act M t w.ledger
          (w.ledger.append ⟨some value, some key, true⟩) :=
        .send fun _ => hsend _ hI hat.fact
      exact ⟨.act (Frame.perform hp) hact rfl (.inl rfl), hat.own, hat.arrival,
        hat.live, h _ hI hat.fact⟩

/-- The ledger after one more request to the analyzer. -/
def Ledger.ask (L : Ledger) (photoId objectKey : Str) : Ledger :=
  { L with requests := (photoId, objectKey) :: L.requests }

theorem spec_analyzePhoto {photoId objectKey : Str} {id : UUID}
    {J : Ledger → Prop} (hJ : Lasting M t own.locks J)
    (hid : UUID.parse photoId = some id)
    (hask : ∀ L, Inv M L → K L → L.Owner t id ∧ L.asked id < M)
    (h : ∀ L, Inv M L → K L → J (L.ask photoId objectKey)) :
    Spec M t (At t arrival own K) (wait (.analyzePhoto photoId objectKey))
      fun _ => At t arrival own J := by
  refine .call (fun _ => At.steady hJ) fun w choice answer w' hI hat hp => ?_
  obtain ⟨howner, hlt⟩ := hask _ hI hat.fact
  have hact : Act M t w.ledger (w.ledger.ask photoId objectKey) :=
    .ask hid howner hlt
  rcases World.perform_cases hp with ⟨exc, kept, hcan, rfl, hw⟩ |
    ⟨exc, w₁, hw₁, rfl, hw⟩ | h'
  · cases hcan
  · cases hw₁
    subst hw
    refine ⟨.act (Frame.perform hp) hact rfl (.inr ⟨.raised t _ (w.db.writes t) exc, rfl, rfl⟩), hat.own,
      hat.arrival, hat.live, ?_⟩
    exact hJ.quiet _ _ (hI.act hact) (.note _ rfl) (h _ hI hat.fact)
  · cases choice <;> cases h'
    exact ⟨.act (Frame.perform hp) hact rfl (.inl rfl), hat.own, hat.arrival,
      hat.live, h _ hI hat.fact⟩

/-! ## The consumer -/

theorem spec_startConsumer {J : Nat → Ledger → Prop}
    (hK : Lasting M t own.locks K) (hJ : ∀ n, Lasting M t own.locks (J n))
    (h : ∀ L, Inv M L → K L → J L.committedOffset L) :
    Spec M t (At t arrival own K) (wait .startConsumer) fun answer w =>
      match answer with
      | .ok _ => ∃ n, At t arrival { own with position := n } (J n) w
      | .error _ => At t arrival own K w := by
  refine .call ?_ fun w choice answer w' hI hat hp => ?_
  · rintro (exc | value)
    · exact At.steady hK
    · rintro w w' hrely hI ⟨n, hat⟩
      have hsteady : (discipline M).Steady t
          (At t arrival { own with position := n } (J n)) := At.steady (hJ n)
      exact ⟨n, hsteady hrely hI hat⟩
  · rcases World.perform_cases hp with ⟨exc, kept, hcan, rfl, hw⟩ |
      ⟨exc, w₁, hw₁, -⟩ | h'
    · have hkept : kept = true := hcan
      subst hkept hw
      exact ⟨.fail true hp rfl, At.note hK hI hat rfl⟩
    · cases hw₁
    · cases choice <;> cases h'
      refine ⟨.still (Frame.perform hp) (.inl rfl), w.committedOffset, ?_,
        hat.arrival, hat.live, h _ hI hat.fact⟩
      rw [← hat.own]
      simp only [World.own, World.setPosition, Function.update_self]

theorem spec_getone {J : ConsumerRecord → Ledger → Prop}
    (hK : Lasting M t own.locks K) (hJ : ∀ record, Lasting M t own.locks (J record))
    (h : ∀ L record, Inv M L → K L → L.topic[own.position]? = some record →
      J record L) :
    Spec M t (At t arrival own K) (wait .getone) fun answer w =>
      match answer with
      | .ok record =>
          At t arrival { own with position := own.position + 1 } (J record) w
      | .error _ => At t arrival own K w := by
  refine .call ?_ fun w choice answer w' hI hat hp => ?_
  · rintro (exc | record)
    · exact At.steady hK
    · exact At.steady (hJ record)
  · rcases World.perform_cases hp with ⟨exc, kept, hcan, rfl, hw⟩ |
      ⟨exc, w₁, hw₁, -⟩ | h'
    · have hkept : kept = true := hcan
      subst hkept hw
      exact ⟨.fail true hp rfl, At.note hK hI hat rfl⟩
    · cases hw₁
    · cases choice <;> try cases h'
      have hposition : w.position t = own.position :=
        congrArg Own.position hat.own
      simp only [World.answer, hposition] at h'
      split at h'
      next record hrecord =>
        cases h'
        refine ⟨.still (Frame.perform hp) (.inl rfl), ?_, hat.arrival, hat.live,
          h _ _ hI hat.fact hrecord⟩
        rw [← hat.own]
        simp [World.own, World.setPosition, hposition]
      next => cases h'

theorem spec_commitOffset (hK : Growing M K)
    (h : ∀ L, Inv M L → K L → ∀ i < own.position, L.Settled i) :
    Spec M t (At t arrival own K) (wait .commitOffset) fun _ =>
      At t arrival own K := by
  refine .call (fun _ => At.steady (.of_growing hK)) fun w choice answer w' hI hat hp => ?_
  have hposition : w.position t = own.position := congrArg Own.position hat.own
  have hact : Act M t w.ledger { w.ledger with committedOffset := w.position t } :=
    .offset (hposition ▸ h _ hI hat.fact)
  rcases World.perform_cases hp with ⟨exc, kept, hcan, rfl, hw⟩ |
    ⟨exc, w₁, hw₁, rfl, hw⟩ | h'
  · have hkept : kept = true := hcan
    subst hkept hw
    exact ⟨.fail true hp rfl, At.note (.of_growing hK) hI hat rfl⟩
  · cases hw₁
    subst hw
    refine ⟨.act (Frame.perform hp) hact rfl (.inr ⟨.raised t _ (w.db.writes t) exc, rfl, rfl⟩), hat.own,
      hat.arrival, hat.live, ?_⟩
    exact hK _ _ hI ((hact.grows hI).trans (.note _ _)) hat.fact
  · cases choice <;> cases h'
    exact ⟨.act (Frame.perform hp) hact rfl (.inl rfl), hat.own, hat.arrival,
      hat.live, hK _ _ hI (hact.grows hI) hat.fact⟩

/-! ## Programs that only look around -/

/-- Nothing but a commit makes a difference to the others. -/
def Op.isHarmless : Op → Bool
  | getTraceId | setTraceId _ => true
  | select _ | execute _ | rollback | close => true
  | op => op.isLocal

theorem At.adrift (h : At t arrival own K w) :
    Adrift t arrival own.position K w :=
  ⟨own, rfl, h⟩

theorem spec_harmless {position : Nat} {op : Op} (hop : op.isHarmless)
    (hK : Lasting M t (fun _ => False) K) :
    Spec M t (Adrift t arrival position K) (wait op)
      fun _ => Adrift t arrival position K := by
  refine .exists_ fun own => .assume ?_
  rintro rfl
  have hany : ∀ locks, Lasting M t locks K :=
    fun locks => hK.weaken fun _ h => h.elim
  have hlocal : op.isLocal → Spec M t (At t arrival own K) (wait op)
      fun _ => Adrift t arrival own.position K := fun hop =>
    (spec_local hop (hany _)).post fun _ _ _ hat => hat.adrift
  cases op with
  | getTraceId => exact (spec_getTraceId (hany _)).post fun _ _ _ h => h.2.adrift
  | setTraceId value => exact (spec_setTraceId (hany _)).post fun _ _ _ h => h.adrift
  | rollback => exact (spec_rollback hK).post fun _ _ _ h => h.adrift
  | close => exact (spec_close hK).post fun _ _ _ h => h.adrift
  | select query =>
      refine (spec_select query (J := fun _ => K) (E := fun _ => K) (fun _ => hany _)
        (fun _ => hK) (fun _ _ _ _ hk _ => hk) fun L exc hI hk => hK.quiet _ _ hI (.note _ rfl) hk).post ?_
      rintro (exc | rows) w hI h
      · exact h.adrift
      · exact h.adrift
  | execute stmt =>
      refine (spec_execute (N := K) (W := fun _ => K) (E := fun _ => K)
        (hany _) (fun _ => hany _) (fun _ => hK) (fun _ _ _ hk _ => hk)
        (fun _ _ _ _ hk _ => hk)
        fun L exc hI hk => hK.quiet _ _ hI (.note _ rfl) hk).post ?_
      rintro (exc | rowcount) w hI h
      · exact h.adrift
      · rcases h with ⟨-, hat⟩ | ⟨-, write, hat⟩
        · exact hat.adrift
        · exact hat.adrift
  | _ => first
      | exact hlocal rfl
      | cases hop

theorem harmless_spec {α : Type} {position : Nat} {program : Py α}
    (h : program.Uses (Op.isHarmless ·))
    (hK : Lasting M t (fun _ => False) K) :
    Spec M t (Adrift t arrival position K) program
      fun _ => Adrift t arrival position K :=
  .uses h fun _ hop => spec_harmless hop hK

/-! ## Between sessions -/

/-- How a call ends that has nothing to answer for. -/
abbrev Over (t : Tid) (arrival : Arrival) (position : Nat) : World → Prop :=
  Adrift t arrival position fun _ => True

theorem Adrift.over {position : Nat} {w : World}
    (h : Adrift t arrival position K w) : Over t arrival position w := by
  obtain ⟨own, hposition, hat⟩ := h
  exact ⟨own, hposition, hat.mono fun _ => trivial⟩

theorem At.over {w : World} (h : At t arrival own K w) :
    Over t arrival own.position w :=
  h.adrift.over

theorem Dropped.over {w : World} (h : Dropped t arrival own K w) :
    Over t arrival own.position w :=
  h.adrift.over

/-- Nothing is left open. -/
def Clean (t : Tid) (arrival : Arrival) (position : Nat) (K : Ledger → Prop)
    (w : World) : Prop :=
  ∃ traceId, At t arrival ⟨[], position, traceId⟩ K w

theorem Clean.mono {J : Ledger → Prop} {position : Nat}
    (h : Clean t arrival position K w) (hk : K w.ledger → J w.ledger) :
    Clean t arrival position J w := by
  obtain ⟨traceId, hat⟩ := h
  exact ⟨traceId, hat.mono hk⟩

theorem Clean.adrift {position : Nat} (h : Clean t arrival position K w) :
    Adrift t arrival position K w := by
  obtain ⟨traceId, hat⟩ := h
  exact hat.adrift

theorem withSession_spec {α : Type} {body : Py α} {position : Nat}
    {P : World → Prop} (hK : Lasting M t (fun _ => False) K)
    (h : Spec M t P body fun _ => Adrift t arrival position K) :
    Spec M t P (withSession body) fun _ => Clean t arrival position K := by
  refine .tryFinally (fun _ => Adrift t arrival position K) h fun outcome => ?_
  refine .exists_ fun own => .assume ?_
  rintro rfl
  refine (spec_close hK).post ?_
  rintro (exc | value) w hI h
  · exact ⟨own.traceId, h⟩
  · exact ⟨own.traceId, h⟩

/-- A fact that nothing ends can be carried through any program. -/
theorem frame_growing {α : Type} {program : Py α} {P : World → Prop}
    {Q : Except PyExc α → World → Prop} (hK : Growing M K)
    (h : Spec M t P program Q) :
    Spec M t (fun w => P w ∧ K w.ledger) program
      fun outcome w => Q outcome w ∧ K w.ledger := by
  have hguar : ∀ other w w', Inv M w.ledger → Guar M other w w' →
      K w.ledger → K w'.ledger :=
    fun other w w' hI hg => hK _ _ hI (hg.move.grows hI)
  refine .frame ((conduct M).steady fun w w' other _ => hguar other w w')
    (fun w w' hI hg => hguar t w w' hI hg) h

end PhotoAnalysis

import PhotoAnalysis.Refinement.Consumer
import PhotoAnalysis.Refinement.Reads
import PhotoAnalysis.Refinement.Uploads

/-!
# Every schedule keeps the invariant

Each routine of the system keeps its guarantee from its start, so the invariant
of the ledger holds in every state that any schedule reaches.
-/

namespace PhotoAnalysis

open Foundation Program

variable {M : Nat} {t : Tid} {arrival : Arrival} {w w' : World}

/-! ## Starts, ends and outside events -/

theorem Guar.opened {entry : Entry} (ha : w.ledger.arrivals t = none)
    (hlive : w.ledger.outcomes t = none) : Guar M t w (w.opened t entry) := by
  have hframe : Frame t w (w.opened t entry) := by
    refine ⟨fun other hne => ?_, fun _ _ _ hk => hk⟩
    simp [World.own, World.opened, Function.update_of_ne hne]
  exact .act hframe (.arrive ha hlive) rfl (.inl rfl)

theorem Guar.closed {outcome : Outcome} (ha : w.ledger.arrivals t = some arrival)
    (hlive : w.ledger.outcomes t = none) (h : w.ledger.Ends t arrival outcome) :
    Guar M t w (w.closed t outcome) := by
  have hframe : Frame t w (w.closed t outcome) :=
    .of_kept (fun _ hne => w.db.kept_finish _ hne) rfl rfl
  exact .act hframe (.reply ha hlive h) rfl (.inl rfl)

theorem Guar.external (event : World.External) :
    Guar M t w (World.external event w) := by
  cases event with
  | tick elapsed => exact .still (.of_eq rfl rfl rfl) (.inl rfl)
  | stop tid => exact .still (.of_eq rfl rfl rfl) (.inl rfl)
  | produce value key =>
      have hact : Act M t w.ledger (w.ledger.append ⟨value, key, false⟩) :=
        .send fun hacked => absurd hacked Bool.false_ne_true
      exact .act (.of_eq rfl rfl rfl) hact rfl (.inl rfl)

/-- A task that has not started. -/
structure Idle (t : Tid) (w : World) : Prop where
  arrival : w.ledger.arrivals t = none
  writes : (w.own t).writes = []

/-- A task that has started and not ended. -/
def Busy (t : Tid) (w : World) : Prop :=
  ∃ arrival, w.ledger.arrivals t = some arrival ∧ w.ledger.outcomes t = none

theorem Idle.live (hI : Inv M w.ledger) (h : Idle t w) :
    w.ledger.outcomes t = none := by
  cases ho : w.ledger.outcomes t with
  | none => rfl
  | some outcome =>
      have := hI.came t (by simp [ho])
      simp [h.arrival] at this

theorem Idle.commitsOf (hI : Inv M w.ledger) (h : Idle t w) :
    w.ledger.commitsOf t = [] := by
  rw [Ledger.commitsOf, List.filterMap_eq_nil_iff]
  rintro (⟨tid, stmt, rowcount⟩ | ⟨tid, ws⟩ | ⟨tid, op, pending, exc⟩) hmem
  · rfl
  · by_cases htid : tid = t
    · have := hI.arrived tid ws hmem
      rw [htid, h.arrival] at this
      cases this
    · simp [htid]
  · rfl

theorem Idle.steady : (discipline M).Steady t (Idle t) := by
  refine (conduct M).steady ?_
  rintro w w' other hne hI ⟨hframe, L₁, hact, hnote, -⟩ ⟨ha, hwrites⟩
  refine ⟨?_, by rw [hframe.own t (Ne.symm hne)]; exact hwrites⟩
  have h₁ : L₁.arrivals t = none := by
    rcases hact with rfl | hact
    · exact ha
    · cases hact with
      | arrive h hl => simpa [Ne.symm hne] using ha
      | _ => exact ha
  rcases hnote with heq | ⟨event, -, heq⟩
  · rw [heq]
    exact h₁
  · rw [heq]
    exact h₁

theorem Busy.steady : (discipline M).Steady t (Busy t) := by
  refine (conduct M).steady ?_
  rintro w w' other hne hI hguar ⟨arrival, ha, hlive⟩
  exact ⟨arrival, hguar.move.keeps hne ha hlive⟩

/-! ## The routines -/

/-- The outcome of a call satisfies what the call answers for. -/
abbrev Ending (t : Tid) (arrival : Arrival) (result : Except PyExc Reply) :
    World → Prop :=
  fun w => ∃ position, Adrift t arrival position
    (fun L => L.Ends t arrival (some result)) w

theorem Ending.closes {result : Except PyExc Reply} (h : Ending t arrival result w) :
    Guar M t w (w.closed t (some result)) := by
  obtain ⟨position, own, -, hat⟩ := h
  exact .closed hat.arrival hat.live hat.fact

theorem Over.ending {position : Nat} {result : Except PyExc Reply}
    (h : Over t arrival position w) (hfree : ∀ L, Ledger.Ends L t arrival (some result)) :
    Ending t arrival result w :=
  ⟨position, h.mono fun _ => hfree _⟩

theorem turnPost_of {settings : Settings} (arrival : Arrival) {L : World → Prop}
    {outcome : Except PyExc (Option Reply)}
    (h : match outcome with
      | .ok none => L w
      | .ok (some reply) => Ending t arrival (.ok reply) w
      | .error exc => Ending t arrival (.error exc) w) :
    (discipline M).TurnPost (system settings) t L outcome w := by
  rcases outcome with exc | (_ | reply)
  · exact Ending.closes h
  · exact h
  · exact Ending.closes h

theorem safeTask_of {settings : Settings} {P L : World → Prop}
    {first loop : Py (Option Reply)} (hP : (discipline M).Steady t P)
    (hL : (discipline M).Steady t L)
    (hfirst : Spec M t P first ((discipline M).TurnPost (system settings) t L))
    (hloop : Spec M t L loop ((discipline M).TurnPost (system settings) t L))
    (hw : P w) : (discipline M).SafeTask (system settings) t first loop w :=
  ⟨L, hL, hloop, fun _ hrely hI => hfirst _ hI (hP hrely hI hw)⟩

/-- A call that runs once. -/
theorem safeTask_once {settings : Settings} {P : World → Prop} {body : Py Reply}
    (hP : (discipline M).Steady t P)
    (h : Spec M t P body fun result => Ending t arrival result) (hw : P w) :
    (discipline M).SafeTask (system settings) t (once body).first
      (once body).loop w := by
  refine safeTask_of (L := fun _ => False) hP (fun _ _ _ _ h => h) ?_
    (fun _ _ h => h.elim) hw
  refine .bind (fun reply => Ending t arrival (.ok reply)) ?_ fun reply =>
    .ret fun w hI h => turnPost_of _ h
  refine h.post ?_
  rintro (exc | reply) w hI h
  · exact turnPost_of _ h
  · exact h

theorem safeTask_harmless {settings : Settings} {body : Py Reply} {position : Nat}
    (h : body.Uses (Op.isHarmless ·)) (hw : Over t arrival position w)
    (hfree : ∀ L result, Ledger.Ends L t arrival (some result)) :
    (discipline M).SafeTask (system settings) t (once body).first
      (once body).loop w :=
  safeTask_once (Adrift.steady (.const True)) ((harmless_spec h (.const True)).post
    fun result _ _ h => Over.ending h fun L => hfree L result) hw

theorem startProducer_uses (app : Nat) :
    (startProducer app).Uses (Op.isHarmless ·) := by
  refine .bind (.tryExcept ?_ fun exc => ?_) fun _ => uses_ret _
  · exact (ensureStarted_uses app).mono fun _ => Op.isHarmless_of_isLocal
  · split
    · exact uses_ret _
    · exact uses_raise _

theorem stopProducer_uses (app : Nat) :
    (stopProducer app).Uses (Op.isHarmless ·) := by
  refine .bind (.tryExcept ?_ fun exc => ?_) fun _ => uses_ret _
  · exact (stop_uses app).mono fun _ => Op.isHarmless_of_isLocal
  · split
    · exact uses_ret _
    · exact uses_raise _

theorem outboxPublisher_safe {settings : Settings} {app : Nat} {position : Nat}
    (harrival : arrival.entry = .outboxPublisher app)
    (hw : Clean t arrival position (fun _ => True) w) :
    (discipline M).SafeTask (system settings) t (Outbox.turn settings app)
      (Outbox.turn settings app) w := by
  have hclean : (discipline M).Steady t (Clean t arrival position fun _ => True) := by
    rintro w w' hrely hI ⟨traceId, hat⟩
    exact ⟨traceId, At.steady (.const True) hrely hI hat⟩
  have hturn : Spec M t (Clean t arrival position fun _ => True)
      (Outbox.turn settings app) ((discipline M).TurnPost (system settings) t
        (Clean t arrival position fun _ => True)) := by
    refine (outboxTurn_spec settings app).post ?_
    rintro outcome w hI h
    have hfree : ∀ L result, Ledger.Ends L t arrival (some result) := by
      intro L result
      simp only [Ledger.Ends, harrival]
    refine turnPost_of arrival ?_
    rcases outcome with exc | (_ | reply)
    · exact h.adrift.over.ending fun L => hfree L _
    · exact h
    · exact h.adrift.over.ending fun L => hfree L _
  exact safeTask_of hclean hclean hturn hturn hw

theorem worker_safe {settings : Settings} {position : Nat} {traceId : Json}
    (harrival : arrival.entry = .worker)
    (hM : settings.workerMaxAttempts.toNat = M)
    (hw : At t arrival ⟨[], position, traceId⟩ (fun _ => True) w) :
    (discipline M).SafeTask (system settings) t
      (do wait .startConsumer; pure none)
      (Consumer.turn settings.interpreter (AnalysisProcessor.process settings)) w := by
  have hfree : ∀ L result, Ledger.Ends L t arrival (some result) := by
    intro L result
    simp only [Ledger.Ends, harrival]
  have hending : ∀ result w, Live t arrival w → Ending t arrival result w := by
    rintro result w ⟨position, h⟩
    exact h.ending fun L => hfree L result
  have hcaught : (discipline M).Steady t (Caught t arrival) := by
    rintro w w' hrely hI ⟨position, traceId, hat⟩
    exact ⟨position, traceId,
      At.steady (.of_growing (.settledBefore position)) hrely hI hat⟩
  refine safeTask_of (At.steady (.const True)) hcaught ?_ ?_ hw
  · refine .bind (fun _ => Caught t arrival) ?_ fun _ =>
      .ret fun w hI h => turnPost_of arrival h
    refine startConsumer_spec.post ?_
    rintro (exc | value) w hI h
    · exact turnPost_of _ (hending _ w h)
    · exact h
  · refine (consumerTurn_spec hM).post ?_
    rintro outcome w hI h
    refine turnPost_of arrival ?_
    rcases outcome with exc | (_ | reply)
    · exact hending _ w h.live
    · exact h
    · exact hending _ w h.live

theorem routine_safe {settings : Settings} {entry : Entry}
    (hM : settings.workerMaxAttempts.toNat = M) (hI : Inv M w.ledger)
    (hidle : Idle t w) :
    (discipline M).SafeTask (system settings) t (routine settings entry).first
      (routine settings entry).loop (w.opened t entry) := by
  have hat : ∀ K : Ledger → Prop, K (w.opened t entry).ledger →
      At t ⟨entry, w.ended⟩ ⟨[], w.position t, entry.traceId⟩ K
        (w.opened t entry) := by
    intro K hk
    have hlive : w.ledger.outcomes t = none := hidle.live hI
    refine ⟨?_, Function.update_self .., hlive, hk⟩
    have hwrites : w.db.writes t = [] := hidle.writes
    simp [World.own, World.opened, hwrites]
  have hover : Over t ⟨entry, w.ended⟩ (w.position t) (w.opened t entry) :=
    (hat (fun _ => True) trivial).over
  cases entry with
  | createPhoto requestId file =>
      exact safeTask_once (At.steady (.const True)) ((createPhoto_spec settings).post
        fun result w hI h => h.ending fun _ => trivial) (hat _ trivial)
  | createBatch requestId files =>
      have hcommits : w.ledger.commitsOf t = [] := hidle.commitsOf hI
      exact safeTask_once (At.steady (.commitsOf [])) ((createBatch_spec settings).post
        fun result w hI h => ⟨_, h⟩) (hat _ hcommits)
  | getPhoto requestId photoId =>
      exact safeTask_harmless (getPhoto_uses photoId) hover fun _ _ => trivial
  | listPhotos requestId limit offset =>
      exact safeTask_harmless (listPhotos_uses limit offset) hover fun _ _ => trivial
  | getPhotoContent requestId photoId =>
      exact safeTask_harmless (getPhotoContent_uses photoId) hover fun _ _ => trivial
  | getBatch requestId batchId =>
      have hreading : (w.opened t (.getBatch requestId batchId)).ledger.Reading t
          ⟨.getBatch requestId batchId, w.ended⟩ batchId
          ((w.opened t (.getBatch requestId batchId)).ledger.SeenCompleted batchId
            w.ended) := ⟨Function.update_self .., Iff.rfl⟩
      exact safeTask_once (At.steady (.of_growing (.reading _ _ _ _)))
        (getBatch_spec.post fun result w hI h => ⟨_, h⟩) (hat _ hreading)
  | startProducer app =>
      exact safeTask_harmless (startProducer_uses app) hover fun _ _ => trivial
  | stopProducer app =>
      exact safeTask_harmless (stopProducer_uses app) hover fun _ _ => trivial
  | outboxPublisher app =>
      exact outboxPublisher_safe rfl ⟨_, hat _ trivial⟩
  | worker => exact worker_safe rfl hM (hat _ trivial)

/-! ## All schedules -/

theorem system_upholds (settings : Settings) :
    (discipline settings.workerMaxAttempts.toNat).Upholds (system settings)
      Idle Busy where
  idle_steady := fun _ => Idle.steady
  busy_steady := fun _ => Busy.steady
  busy_step := by
    rintro tid op choice w answer w' ⟨arrival, ha, hlive⟩ hp
    obtain ⟨harrivals, houtcomes⟩ := World.perform_tasks hp
    refine ⟨arrival, ?_, ?_⟩
    · exact (congrFun harrivals tid).trans ha
    · exact (congrFun houtcomes tid).trans hlive
  start := fun tid entry w hI hidle =>
    have hlive : w.ledger.outcomes tid = none := hidle.live hI
    ⟨.opened hidle.arrival hlive, ⟨_, Function.update_self .., hlive⟩,
      routine_safe rfl hI hidle⟩
  crash := fun tid w hI ⟨arrival, ha, hlive⟩ => .closed ha hlive trivial
  external := fun event w hI =>
    ⟨hI.move (Guar.external (t := 0) event).move, fun tid =>
      .single ⟨hI, tid + 1, Nat.succ_ne_self tid, .external event⟩⟩

theorem reachable_safe {settings : Settings} {state : State}
    (h : Reachable settings state) :
    (discipline settings.workerMaxAttempts.toNat).SafePool (system settings)
      Idle Busy state :=
  .leads (system_upholds settings) (.initial .empty fun _ => ⟨rfl, rfl⟩) h

theorem reachable_inv {settings : Settings} {state : State}
    (h : Reachable settings state) :
    Inv settings.workerMaxAttempts.toNat state.world.ledger :=
  (reachable_safe h).inv

theorem move_of_motion {settings : Settings} {w w' : World}
    (h : (discipline M).Motion (system settings) w w') :
    ∃ t locked, Move M locked t w.ledger w'.ledger := by
  cases h with
  | task tid hguar => exact ⟨tid, _, hguar.move⟩
  | outside event => exact ⟨0, _, (Guar.external event).move⟩
  | still =>
      exact ⟨0, fun _ => False, w.ledger, .inl rfl, .inl rfl, fun _ h => h.elim⟩

/-- Every single step of a schedule is a move of some task on the ledger. -/
theorem reachable_move {settings : Settings} {state state' : State}
    {label : Label Entry Choice World.External} (h : Reachable settings state)
    (hnext : (system settings).next state label = some state') :
    ∃ t locked, Move settings.workerMaxAttempts.toNat locked t
      state.world.ledger state'.world.ledger :=
  move_of_motion ((reachable_safe h).next (system_upholds settings) hnext).2

/-- What every move preserves still holds in all later states. -/
theorem reachable_induct {settings : Settings} {P : Ledger → Prop}
    (hP : ∀ {t locked L L'}, Inv settings.workerMaxAttempts.toNat L →
      Move settings.workerMaxAttempts.toNat locked t L L' → P L → P L')
    {state state' : State} (h : Reachable settings state)
    (hlead : (system settings).Leads state state')
    (hp : P state.world.ledger) : P state'.world.ledger := by
  refine Discipline.SafePool.preserve (system_upholds settings)
    (P := fun w => P w.ledger) ?_ (reachable_safe h) hlead hp
  rintro w w' hI - hmotion hp
  obtain ⟨t, locked, hmove⟩ := move_of_motion hmotion
  exact hP hI hmove hp

/-- From a reachable state on, the ledger only grows. -/
theorem reachable_grows {settings : Settings} {state state' : State}
    (h : Reachable settings state)
    (hlead : (system settings).Leads state state') :
    Grows state.world.ledger state'.world.ledger :=
  reachable_induct (P := Grows state.world.ledger)
    (fun hI hmove hg => hg.trans (hmove.grows hI)) h hlead (.refl _)

end PhotoAnalysis

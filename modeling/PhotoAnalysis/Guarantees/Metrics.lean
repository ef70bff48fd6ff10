import PhotoAnalysis.Guarantees.Photos
import PhotoAnalysis.Refinement.Tally

/-!
# The worker's metrics account for every claim

Between two messages the counters of a worker tell how many photos it has claimed,
how many of them it has brought to an end and how many it has left in processing.
-/

namespace PhotoAnalysis

open Foundation Program PhotoRepository

/-! ## What the others leave alone -/

/-- Another task's step, for task `t`. -/
structure Untouched (t : Tid) (w w' : World) : Prop where
  counters : w'.counters t = w.counters t
  writes : w'.db.writes t = w.db.writes t
  events : ∃ new, w'.events = new ++ w.events ∧ ∀ event ∈ new, event.tid ≠ t

/-- The part of a step that concerns the counters and the history. -/
structure Logs (u : Tid) (w w' : World) : Prop where
  counters : ∀ t, t ≠ u → w'.counters t = w.counters t
  events : ∃ new, w'.events = new ++ w.events ∧ ∀ event ∈ new, event.tid = u

namespace Logs

variable {u : Tid} {w w' w'' : World}

theorem same (hcounters : w'.counters = w.counters) (hevents : w'.events = w.events) :
    Logs u w w' :=
  ⟨fun _ _ => by rw [hcounters], [], hevents, List.forall_mem_nil _⟩

theorem one {event : Event} (hcounters : w'.counters = w.counters)
    (hevents : w'.events = event :: w.events) (htid : event.tid = u) : Logs u w w' :=
  ⟨fun _ _ => by rw [hcounters], [event], hevents, by simpa using htid⟩

theorem note (w : World) {event : Event} (htid : event.tid = u) :
    Logs u w (w.note event) :=
  one rfl rfl htid

theorem trans (h : Logs u w w') (h' : Logs u w' w'') : Logs u w w'' := by
  obtain ⟨new, hnew, hown⟩ := h.events
  obtain ⟨new', hnew', hown'⟩ := h'.events
  refine ⟨fun t hne => (h'.counters t hne).trans (h.counters t hne), new' ++ new,
    by rw [hnew', hnew, List.append_assoc], fun event hmem => ?_⟩
  rcases List.mem_append.mp hmem with hmem | hmem
  · exact hown' event hmem
  · exact hown event hmem

theorem execute {stmt : Stmt} {answer : Except PyExc Nat}
    (h : w.execute u stmt = some (answer, w')) : Logs u w w' := by
  simp only [World.execute] at h
  split at h
  · cases h
    exact one rfl rfl rfl
  · cases h
    exact one rfl rfl rfl
  · split at h <;> cases h
    exact one rfl rfl rfl

theorem answer {op : Op} {choice : Choice} {answer : Except PyExc op.Ans}
    (h : w.answer u op choice = some (answer, w')) : Logs u w w' := by
  cases op with
  | execute stmt => cases choice <;> first | exact execute h | cases h
  | select query =>
      cases choice <;> try cases h
      obtain ⟨rows, -, heq⟩ := Option.map_eq_some_iff.mp h
      cases heq
      exact same rfl rfl
  | uuid4 | getObject _ | acquireStartLock _ | sleep _ | waitStop | getone =>
      cases choice <;> try cases h
      simp only [World.answer] at h
      split at h <;> cases h <;> exact same rfl rfl
  | commit =>
      cases choice <;> cases h
      exact one rfl rfl rfl
  | count metric amount =>
      cases choice <;> cases h
      exact ⟨fun t hne => Function.update_of_ne hne .., [], rfl, List.forall_mem_nil _⟩
  | _ =>
      cases choice <;> cases h
      exact same rfl rfl

theorem halfDone {op : Op} (h : w.halfDone u op = some w') : Logs u w w' := by
  cases op with
  | commit =>
      cases h
      exact one rfl rfl rfl
  | _ => cases h <;> exact same rfl rfl

theorem perform {op : Op} {choice : Choice} {answer : Except PyExc op.Ans}
    (h : World.perform u op choice w = some (answer, w')) : Logs u w w' := by
  rcases World.perform_cases h with ⟨exc, kept, -, -, rfl⟩ |
    ⟨exc, w₁, hw₁, -, rfl⟩ | h
  · have hnote : Logs u w (w.note (.raised u op (w.db.writes u) exc)) := note w rfl
    cases kept
    · exact ⟨hnote.counters, hnote.events⟩
    · exact hnote
  · exact (halfDone hw₁).trans (note w₁ rfl)
  · exact .answer h

theorem untouched {t : Tid} (h : Logs u w w') (hframe : Frame u w w') (hne : t ≠ u) :
    Untouched t w w' := by
  obtain ⟨new, hnew, hown⟩ := h.events
  refine ⟨h.counters t hne, congrArg Own.writes (hframe.own t hne), new, hnew, ?_⟩
  intro event hmem htid
  exact hne (htid.symm.trans (hown event hmem))

end Logs

/-! ## What an event adds to a tally -/

section

variable {t : Tid} {event : Event} {events new : List Event} {gauge : Gauge}

theorem broughtBy_cons (status : PhotoStatus) : broughtBy t status (event :: events) =
    event.broughtBy t status ++ broughtBy t status events := rfl

theorem broughtBy_note (h : event.tid ≠ t ∨ event.isCommit = false)
    (status : PhotoStatus) : event.broughtBy t status = [] := by
  cases event with
  | committed u ws =>
      rcases h with h | h
      · exact if_neg h
      · cases h
  | _ => rfl

theorem tally_note (h : event.tid ≠ t ∨ event.isCommit = false) :
    tally t (event :: events) gauge = tally t events gauge := by
  have hbrought : ∀ status, (broughtBy t status (event :: events)).length =
      (broughtBy t status events).length := fun status => by
    rw [broughtBy_cons, broughtBy_note h, List.nil_append]
  have hskips : skips t (event :: events) = skips t events := by
    rw [skips, if_neg, Nat.add_zero]
    rintro ⟨htid, hcommit, -⟩
    rcases h with h | h
    · exact h htid
    · rw [h] at hcommit
      cases hcommit
  cases gauge
  · exact hbrought _
  · exact hbrought _
  · exact hbrought _
  · exact hbrought _
  · exact hbrought _
  · exact hskips

theorem tally_append (h : ∀ event ∈ new, event.tid ≠ t) :
    tally t (new ++ events) gauge = tally t events gauge := by
  induction new with
  | nil => rfl
  | cons event new ih =>
      rw [List.cons_append, tally_note (.inl (h event List.mem_cons_self)),
        ih fun e he => h e (List.mem_cons_of_mem _ he)]

theorem missed_append (h : ∀ event ∈ new, event.tid ≠ t) :
    missed t (new ++ events) = missed t events := by
  induction new with
  | nil => rfl
  | cons event new ih =>
      rw [List.cons_append, missed, if_neg (h event List.mem_cons_self),
        ih fun e he => h e (List.mem_cons_of_mem _ he)]

/-- What a committed transaction adds to a gauge. -/
def yield (ws : List Write) (miss : Bool) : Gauge → Nat
  | .started => (ws.filterMap (Write.brought .processing)).length
  | .completed | .handledDone => (ws.filterMap (Write.brought .done)).length
  | .failed | .handledFailed => (ws.filterMap (Write.brought .failed)).length
  | .handledSkipped => if miss then 1 else 0

theorem tally_commit (ws : List Write) : tally t (.committed t ws :: events) gauge =
    tally t events gauge + yield ws (missed t events) gauge := by
  have hbrought : ∀ status, (broughtBy t status (.committed t ws :: events)).length =
      (broughtBy t status events).length +
        (ws.filterMap (Write.brought status)).length := fun status => by
    rw [broughtBy_cons, Event.broughtBy, if_pos rfl, List.length_append, Nat.add_comm]
  cases gauge
  · exact hbrought _
  · exact hbrought _
  · exact hbrought _
  · exact hbrought _
  · exact hbrought _
  · simp [tally, skips, yield, Event.tid, Event.isCommit]

end

/-! ## What a phase says of the world -/

/-- The photos that an open transaction brings to a status. -/
def Brings (ws : List Write) (status : PhotoStatus) : List UUID :=
  ws.filterMap (Write.brought status)

/-- What the open transaction of task `t` holds, and what the task owns. -/
def Phase.Holds (t : Tid) (w : World) : Phase → Prop
  | idle | missed => w.db.writes t = []
  | matched id => w.db.writes t = [claimWrite id]
  | working id => w.ledger.Owner t id ∧ ∀ status, Brings (w.db.writes t) status = []
  | ending id status => status.terminal ∧
      ∀ s, Brings (w.db.writes t) s = if s = status then [id] else []
  | counting _ owned => w.db.writes t = [] ∧ ∀ id ∈ owned, w.ledger.Owner t id
  | leaving => True

/-- The counters show the history, but for the counts that are due. -/
structure Tallied (t : Tid) (phase : Phase) (w : World) : Prop where
  gauges : ∀ gauge, gauge.read (w.counters t) + phase.due.count gauge =
    tally t w.events gauge
  reasons : ∀ reason, reason ∉ failureReasons →
    w.counters t (.photoAnalysisFailedTotal reason) = 0
  missed : missed t w.events = true ↔ phase = .missed
  holds : phase.Holds t w

section

variable {t : Tid} {phase : Phase} {w w' : World}

theorem Phase.Holds.congr (h : phase.Holds t w) (hwrites : w'.db.writes t = w.db.writes t)
    (hevents : ∀ event ∈ w.events, event ∈ w'.events) : phase.Holds t w' := by
  have howner : ∀ id, w.ledger.Owner t id → w'.ledger.Owner t id :=
    fun id => hevents _
  cases phase with
  | working id => exact ⟨howner id h.1, by rw [hwrites]; exact h.2⟩
  | counting due owned =>
      exact ⟨hwrites.trans h.1, fun id hid => howner id (h.2 id hid)⟩
  | ending id status => exact ⟨h.1, by rw [hwrites]; exact h.2⟩
  | leaving => trivial
  | _ => exact hwrites.trans h

theorem Tallied.untouched (h : Tallied t phase w) (huntouched : Untouched t w w') :
    Tallied t phase w' := by
  obtain ⟨new, hnew, hother⟩ := huntouched.events
  refine ⟨fun gauge => ?_, fun reason hreason => ?_, ?_,
    h.holds.congr huntouched.writes fun event he => ?_⟩
  · rw [huntouched.counters, hnew, tally_append hother]
    exact h.gauges gauge
  · rw [huntouched.counters]
    exact h.reasons reason hreason
  · rw [hnew, missed_append hother]
    exact h.missed
  · rw [hnew]
    exact List.mem_append_right new he

/-- The task notes something that is no commit and moves on, with nothing to count. -/
theorem Tallied.noted {phase' : Phase} {event : Event} (h : Tallied t phase w)
    (hcounters : w'.counters t = w.counters t)
    (hevents : w'.events = event :: w.events) (htid : event.tid = t)
    (hcommit : event.isCommit = false) (hdue : phase.due = [] ∧ phase'.due = [])
    (hmiss : event.isMiss = true ↔ phase' = .missed) (hholds : phase'.Holds t w') :
    Tallied t phase' w' := by
  refine ⟨fun gauge => ?_, fun reason hreason => ?_, ?_, hholds⟩
  · rw [hcounters, hevents, tally_note (.inr hcommit), hdue.2, ← hdue.1]
    exact h.gauges gauge
  · rw [hcounters]
    exact h.reasons reason hreason
  · rw [hevents, PhotoAnalysis.missed, if_pos htid]
    exact hmiss

theorem Phase.due_of_closes (h : phase.closes) : phase.due = [] := by
  cases phase <;> first | rfl | cases h

theorem Phase.due_of_commits (h : phase.commits) : phase.due = [] := by
  cases phase <;> first | rfl | cases h

theorem Phase.ne_missed_of_closes (h : phase.closes) : phase ≠ .missed := by
  rintro rfl
  cases h

/-! ## The worker's own steps -/

/-- Operations that a phase survives that can be left. -/
def Op.isPeripheral : Op → Bool
  | stopIsSet | getone | commitOffset | startConsumer => true
  | setTraceId _ | monotonic | sleep _ | analyzePhoto _ _ => true
  | _ => false

theorem peripheral_cases {op : Op} {choice : Choice} {answer : Except PyExc op.Ans}
    (hop : op.isPeripheral) (h : World.perform t op choice w = some (answer, w')) :
    w'.counters t = w.counters t ∧ w'.db.writes t = w.db.writes t ∧
      (w'.events = w.events ∨ ∃ pending exc,
        w'.events = .raised t op pending exc :: w.events) := by
  rcases World.perform_cases h with ⟨exc, kept, hcan, -, rfl⟩ |
    ⟨exc, w₁, hw₁, -, rfl⟩ | h
  · have hkept : kept = true := by
      cases op <;> simp_all [Op.isPeripheral, Op.canFail]
    subst hkept
    exact ⟨rfl, rfl, .inr ⟨_, exc, rfl⟩⟩
  · cases op <;> first
      | (cases hop; done)
      | (cases hw₁; done)
      | (cases hw₁; exact ⟨rfl, rfl, .inr ⟨_, exc, rfl⟩⟩)
  · cases op with
    | getone | sleep =>
        cases choice <;> try cases h
        simp only [World.answer] at h
        split at h <;> cases h
        exact ⟨rfl, rfl, .inl rfl⟩
    | _ => first
      | (cases hop; done)
      | (cases choice <;> cases h; exact ⟨rfl, rfl, .inl rfl⟩)

theorem Tallied.peripheral {op : Op} {choice : Choice} {answer : Except PyExc op.Ans}
    (h : Tallied t phase w) (hcloses : phase.closes) (hop : op.isPeripheral)
    (hp : World.perform t op choice w = some (answer, w')) : Tallied t phase w' := by
  obtain ⟨hcounters, hwrites, hevents⟩ := peripheral_cases hop hp
  rcases hevents with hevents | ⟨pending, exc, hevents⟩
  · exact h.untouched ⟨hcounters, hwrites, [], hevents, List.forall_mem_nil _⟩
  · refine h.noted hcounters hevents rfl rfl ⟨Phase.due_of_closes hcloses,
      Phase.due_of_closes hcloses⟩ ⟨nofun, fun hm => ?_⟩ (h.holds.congr hwrites fun e he => ?_)
    · exact absurd hm (Phase.ne_missed_of_closes hcloses)
    · rw [hevents]
      exact List.mem_cons_of_mem _ he

/-- A database operation that raises has lost the transaction, or has kept it. -/
theorem Tallied.raised {phase' : Phase} {op : Op} {pending : List Write} {exc : PyExc}
    (h : Tallied t phase w) (hcounters : w'.counters t = w.counters t)
    (hevents : w'.events = .raised t op pending exc :: w.events)
    (hdue : phase.due = []) (hphase' : phase' = .leaving ∨
      phase' = .idle ∧ w'.db.writes t = []) : Tallied t phase' w' := by
  rcases hphase' with rfl | ⟨rfl, hwrites⟩
  · exact h.noted hcounters hevents rfl rfl ⟨hdue, rfl⟩ ⟨nofun, nofun⟩ trivial
  · exact h.noted hcounters hevents rfl rfl ⟨hdue, rfl⟩ ⟨nofun, nofun⟩ hwrites

theorem World.writes_rollback (w : World) (t : Tid) : (w.rollback t).db.writes t = [] :=
  TxStore.writes_rollback ..

theorem Tallied.close {choice : Choice} {answer : Except PyExc Unit}
    (h : Tallied t phase w) (hcloses : phase.closes)
    (hp : World.perform t .close choice w = some (answer, w')) : Tallied t .idle w' := by
  have hdue := Phase.due_of_closes hcloses
  rcases World.perform_cases hp with ⟨exc, kept, hcan, -, rfl⟩ | ⟨exc, w₁, hw₁, -⟩ | h'
  · have hkept : kept = false := by simpa [Op.canFail] using hcan
    subst hkept
    exact h.raised rfl rfl hdue (.inr ⟨rfl, w.writes_rollback t⟩)
  · cases hw₁
  · cases choice <;> cases h'
    refine ⟨fun gauge => ?_, h.reasons, ⟨fun hm => ?_, fun hm => by cases hm⟩,
      w.writes_rollback t⟩
    · have := h.gauges gauge
      rwa [hdue] at this
    · exact absurd (h.missed.mp hm) (Phase.ne_missed_of_closes hcloses)

/-! ### Commits -/

/-- The counts that a commit leaves due are those it has earned. -/
theorem Phase.Holds.yield (h : phase.Holds t w) (hcommits : phase.commits)
    (gauge : Gauge) : yield (w.db.writes t) (phase = .missed) gauge =
      phase.commit.due.count gauge := by
  have hbrings : ∀ status, (w.db.writes t).filterMap (Write.brought status) =
      Brings (w.db.writes t) status := fun _ => rfl
  cases phase with
  | idle | counting | leaving => cases hcommits
  | missed =>
      have hwrites : w.db.writes t = [] := h
      cases gauge <;> simp [PhotoAnalysis.yield, hwrites, Phase.commit, Phase.due]
  | matched id =>
      have hwrites : w.db.writes t = [claimWrite id] := h
      cases gauge <;> simp [PhotoAnalysis.yield, hwrites, Phase.commit, Phase.due,
        claimWrite, Write.brought]
  | working id =>
      cases gauge <;> simp [PhotoAnalysis.yield, hbrings, h.2, Phase.commit, Phase.due]
  | ending id status =>
      obtain ⟨hterminal, hbrought⟩ := h
      rcases hterminal with rfl | rfl <;> cases gauge <;>
        simp [PhotoAnalysis.yield, hbrings, hbrought, Phase.commit, Phase.due]

theorem Tallied.commit (h : Tallied t phase w) (hcommits : phase.commits) :
    Tallied t phase.commit (w.commit t) := by
  have hmissed : PhotoAnalysis.missed t w.events = decide (phase = .missed) := by
    rw [Bool.eq_iff_iff, h.missed, decide_eq_true_iff]
  refine ⟨fun gauge => ?_, h.reasons, ?_, ?_⟩
  · have hevents : (w.commit t).events = .committed t (w.db.writes t) :: w.events := rfl
    have hgauge := h.gauges gauge
    rw [Phase.due_of_commits hcommits, List.count_nil] at hgauge
    rw [hevents, tally_commit, hmissed, h.holds.yield hcommits]
    change gauge.read (w.counters t) + _ = _
    omega
  · refine ⟨fun hm => ?_, fun hphase => ?_⟩
    · have hnone : PhotoAnalysis.missed t (w.commit t).events = false :=
        if_pos (show (Event.committed t (w.db.writes t)).tid = t from rfl)
      rw [hnone] at hm
      cases hm
    · cases phase with
      | ending id status => cases status <;> cases hphase
      | _ => cases hphase
  · have hwrites : (w.commit t).db.writes t = [] := TxStore.writes_commit ..
    have howner : ∀ id, w.ledger.Owner t id → (w.commit t).ledger.Owner t id :=
      fun id hid => List.mem_cons_of_mem _ hid
    cases phase with
    | idle | counting | leaving => cases hcommits
    | missed => exact ⟨hwrites, nofun⟩
    | matched id =>
        have hclaim : w.db.writes t = [claimWrite id] := h.holds
        refine ⟨hwrites, fun id' hid => ?_⟩
        cases Option.mem_some_iff.mp hid
        exact List.mem_cons.mpr (.inl (by rw [hclaim]))
    | working id =>
        exact ⟨howner id h.holds.1, fun status => by rw [hwrites]; rfl⟩
    | ending id status =>
        rcases h.holds.1 with rfl | rfl <;> exact ⟨hwrites, nofun⟩

/-! ### Counts -/

theorem Gauge.eq_of_mem {metric : Metric} {gauge moved : Gauge}
    (h : metric ∈ gauge.metrics) (hmoved : metric ∈ moved.metrics) : gauge = moved := by
  have hdisjoint : gauge = moved ∨ ∀ metric ∈ gauge.metrics, metric ∉ moved.metrics := by
    cases gauge <;> cases moved <;> decide
  exact hdisjoint.resolve_right fun hnone => hnone metric h hmoved

theorem Gauge.nodup_metrics (gauge : Gauge) : gauge.metrics.Nodup := by
  cases gauge <;> decide

theorem sum_update {metrics : List Metric} (hnodup : metrics.Nodup)
    (counters : Metric → Int) (metric : Metric) :
    (metrics.map (Function.update counters metric (counters metric + 1))).sum =
      (metrics.map counters).sum + if metric ∈ metrics then 1 else 0 := by
  induction metrics with
  | nil => simp
  | cons first metrics ih =>
      obtain ⟨hnotin, hnodup⟩ := List.nodup_cons.mp hnodup
      rw [List.map_cons, List.sum_cons, List.map_cons, List.sum_cons, ih hnodup]
      by_cases hfirst : metric = first
      · subst hfirst
        simp [hnotin]
        omega
      · rw [Function.update_of_ne (Ne.symm hfirst)]
        simp [hfirst, Int.add_assoc]

/-- A count by one moves the gauge of its metric, and no other. -/
theorem read_count {counters : Metric → Int} {metric : Metric} {moved : Gauge}
    (hmoved : metric ∈ moved.metrics) (gauge : Gauge) :
    gauge.read (Function.update counters metric (counters metric + 1)) =
      gauge.read counters + if gauge = moved then 1 else 0 := by
  rw [Gauge.read, sum_update gauge.nodup_metrics]
  congr 1
  exact if_congr ⟨fun h => Gauge.eq_of_mem h hmoved, fun h => h ▸ hmoved⟩ rfl rfl

theorem untracked_notMem {metric : Metric} (h : metric.untracked) (gauge : Gauge) :
    metric ∉ gauge.metrics := by
  intro hmem
  cases metric <;> first
    | (cases h; done)
    | (cases gauge <;> simp [Gauge.metrics] at hmem)

theorem read_untracked {counters : Metric → Int} {metric : Metric} {value : Int}
    (h : metric.untracked) (gauge : Gauge) :
    gauge.read (Function.update counters metric value) = gauge.read counters := by
  refine congrArg List.sum (List.map_congr_left fun other hother => ?_)
  refine Function.update_of_ne ?_ ..
  rintro rfl
  exact untracked_notMem h gauge hother

theorem reasons_update {counters : Metric → Int} {metric : Metric} {value : Int}
    (h : metric.untracked ∨ ∃ gauge : Gauge, metric ∈ gauge.metrics) {reason : Str}
    (hreason : reason ∉ failureReasons) :
    Function.update counters metric value (.photoAnalysisFailedTotal reason) =
      counters (.photoAnalysisFailedTotal reason) := by
  refine Function.update_of_ne ?_ ..
  rintro rfl
  rcases h with h | ⟨gauge, hmem⟩
  · cases h
  · cases gauge <;> simp [Gauge.metrics] at hmem
    exact hreason hmem

theorem Phase.due_count (due : List Gauge) (owned : Option UUID) :
    (Phase.count due owned).due = due := by
  cases due <;> cases owned <;> rfl

theorem Phase.count_ne_missed (due : List Gauge) (owned : Option UUID) :
    Phase.count due owned ≠ .missed := by
  cases due <;> cases owned <;> nofun

theorem Tallied.count {metric : Metric} {amount : Int} {choice : Choice}
    {answer : Except PyExc Unit} (h : Tallied t phase w)
    (hallowed : phase.allowed (.count metric amount))
    (hp : World.perform t (.count metric amount) choice w = some (answer, w')) :
    ∃ phase', phase.next (.count metric amount) answer = some phase' ∧
      Tallied t phase' w' := by
  have hok : answer = .ok () ∧ w'.counters t = Function.update (w.counters t) metric
      (w.counters t metric + amount) ∧ w'.db.writes t = w.db.writes t ∧
        w'.events = w.events := by
    rcases World.perform_cases hp with ⟨exc, kept, hcan, -⟩ | ⟨exc, w₁, hw₁, -⟩ | h'
    · cases hcan
    · cases hw₁
    · cases choice <;> cases h'
      exact ⟨rfl, Function.update_self .., rfl, rfl⟩
  obtain ⟨rfl, hcounters, hwrites, hevents⟩ := hok
  have howner : ∀ {id : UUID}, w.ledger.Owner t id → w'.ledger.Owner t id := fun h => by
    change _ ∈ w'.events
    rw [hevents]
    exact h
  rcases hallowed with ⟨huntracked, id, rfl⟩ | ⟨rfl, moved, due, owned, rfl, hmoved⟩
  · refine ⟨.working id, rfl, fun gauge => ?_, fun reason hreason => ?_, hevents ▸ h.missed,
      h.holds.congr hwrites fun event he => hevents ▸ he⟩
    · rw [hcounters, hevents, read_untracked huntracked]
      exact h.gauges gauge
    · rw [hcounters, reasons_update (.inl huntracked) hreason]
      exact h.reasons reason hreason
  · refine ⟨.count due owned, rfl, fun gauge => ?_, fun reason hreason => ?_,
      ⟨fun hm => ?_, fun hm => ?_⟩, ?_⟩
    · have hgauge := h.gauges gauge
      have hdue : (Phase.counting (moved :: due) owned).due = moved :: due := rfl
      rw [hdue, List.count_cons] at hgauge
      rw [hcounters, hevents, read_count hmoved, Phase.due_count]
      by_cases hsame : gauge = moved
      · subst hsame
        simp only [beq_self_eq_true, if_true] at hgauge ⊢
        omega
      · have hbeq : (moved == gauge) = false := beq_false_of_ne (Ne.symm hsame)
        simp only [hbeq, hsame, if_false, Bool.false_eq_true] at hgauge ⊢
        omega
    · rw [hcounters, reasons_update (.inr ⟨moved, hmoved⟩) hreason]
      exact h.reasons reason hreason
    · rw [hevents] at hm
      cases h.missed.mp hm
    · exact absurd hm (Phase.count_ne_missed due owned)
    · obtain ⟨hnone, howns⟩ := h.holds
      rw [hnone] at hwrites
      cases due with
      | cons gauge due => exact ⟨hwrites, fun id hid => howner (howns id hid)⟩
      | nil =>
          cases owned with
          | none => exact hwrites
          | some id =>
              exact ⟨howner (howns id rfl), fun status => by rw [hwrites]; rfl⟩

/-! ### Statements -/

theorem resolve_insertAnalysis {id : UUID} {faces : Int} {blurred : Bool}
    {score : Double} {hash : Str} {now : Time} {T : Tables} {write : Write}
    (h : (Stmt.insertAnalysis id faces blurred score hash).resolve now T =
      .ok (some write)) : ∃ row, write = .addAnalysis row := by
  simp only [Stmt.resolve] at h
  split at h
  · cases h
  split at h
  · cases h
  split at h <;> cases h
  exact ⟨_, rfl⟩

theorem Brings_append (ws : List Write) (write : Write) (status : PhotoStatus) :
    Brings (ws ++ [write]) status =
      Brings ws status ++ (write.brought status).toList := by
  rw [Brings, List.filterMap_append]
  cases h : write.brought status <;> simp [Brings, h]

theorem Stmt.Own.not_claim {id : UUID} {stmt : Stmt} (h : stmt.Own id) (rowcount : Nat) :
    (Event.executed t stmt rowcount).isMiss = false := by
  cases h with
  | update values => simp [Event.isMiss, claimStmt]
  | insert => rfl

/-- The claim. -/
theorem Tallied.claim {id : UUID} {answer : Except PyExc Nat} (h : Tallied t .idle w)
    (hp : w.execute t (claimStmt id) = some (answer, w')) :
    ∃ phase', Phase.idle.next (.execute (claimStmt id)) answer = some phase' ∧
      Tallied t phase' w' := by
  have hwrites : w.db.writes t = [] := h.holds
  obtain ⟨hcounters, ⟨pending, exc, rfl, hevents⟩ | ⟨rfl, -, hsame, hevents⟩ |
    ⟨write, rfl, hresolve, hadded, hevents⟩⟩ := execute_cases hp
  · exact ⟨.leaving, rfl, h.raised (congrFun hcounters t) hevents rfl (.inl rfl)⟩
  · refine ⟨.missed, rfl, h.noted (congrFun hcounters t) hevents rfl rfl ⟨rfl, rfl⟩ ?_
      (hsame.trans hwrites)⟩
    simp [Event.isMiss, claimStmt]
  · refine ⟨.matched id, rfl, h.noted (congrFun hcounters t) hevents rfl rfl ⟨rfl, rfl⟩
      ⟨fun hm => ?_, fun hm => by cases hm⟩ ?_⟩
    · simp [Event.isMiss, claimStmt] at hm
    · rw [hwrites, resolve_update hresolve] at hadded
      exact hadded

/-- A statement of the owner's.  The photo is there, so an update of it matches. -/
theorem Tallied.own {M : Nat} {id : UUID} {stmt : Stmt} {answer : Except PyExc Nat}
    (hI : Inv M w.ledger) (h : Tallied t (.working id) w) (hown : stmt.Own id)
    (hp : w.execute t stmt = some (answer, w')) :
    ∃ phase', (Phase.working id).next (.execute stmt) answer = some phase' ∧
      Tallied t phase' w' := by
  obtain ⟨howner, hbrings⟩ := h.holds
  have hmiss : ∀ {n : Nat} {phase' : Phase}, phase' ≠ .missed →
      ((Event.executed t stmt n).isMiss = true ↔ phase' = .missed) := by
    intro n phase' hne
    rw [hown.not_claim]
    exact ⟨(fun hm => by cases hm), fun hm => absurd hm hne⟩
  have howner' : (∃ event, w'.events = event :: w.events) → w'.ledger.Owner t id := by
    rintro ⟨event, hevents⟩
    change _ ∈ w'.events
    rw [hevents]
    exact List.mem_cons_of_mem _ howner
  obtain ⟨hcounters, ⟨pending, exc, rfl, hevents⟩ | ⟨rfl, hresolve, hsame, hevents⟩ |
    ⟨write, rfl, hresolve, hadded, hevents⟩⟩ := execute_cases hp
  · exact ⟨.leaving, rfl, h.raised (congrFun hcounters t) hevents rfl (.inl rfl)⟩
  · have hstay : Tallied t (.working id) w' :=
      h.noted (congrFun hcounters t) hevents rfl rfl ⟨rfl, rfl⟩ (hmiss fun h => by cases h)
        ⟨howner' ⟨_, hevents⟩, by rw [hsame]; exact hbrings⟩
    cases hown with
    | insert => exact ⟨_, rfl, hstay⟩
    | update values hterminal =>
        obtain ⟨a, hloaded, -⟩ := hI.owner_loaded howner
        have hthere : ((w.view t).photo id).isSome :=
          Tables.isSome_photo (by
            have hphoto := (Tables.loaded_eq_some.mp hloaded).1
            exact Option.isSome_iff_exists.mpr ⟨_, hphoto⟩)
        rw [resolve_matches hresolve] at hthere
        cases hthere
  · have hbrought : ∀ status, Brings (w'.db.writes t) status =
        (write.brought status).toList := fun status => by
      rw [hadded, Brings_append, hbrings, List.nil_append]
    cases hown with
    | insert =>
        obtain ⟨row, rfl⟩ := resolve_insertAnalysis hresolve
        exact ⟨_, rfl, h.noted (congrFun hcounters t) hevents rfl rfl ⟨rfl, rfl⟩
          (hmiss fun h => by cases h) ⟨howner' ⟨_, hevents⟩, hbrought⟩⟩
    | update values hterminal =>
        cases resolve_update hresolve
        cases hstatus : values.status with
        | none =>
            refine ⟨.working id, by simp [Phase.next, Phase.execute, hstatus],
              h.noted (congrFun hcounters t) hevents rfl rfl ⟨rfl, rfl⟩ (hmiss fun h => by cases h)
                ⟨howner' ⟨_, hevents⟩, fun status => ?_⟩⟩
            rw [hbrought]
            simp [Write.brought, hstatus]
        | some status =>
            refine ⟨.ending id status, by simp [Phase.next, Phase.execute, hstatus],
              h.noted (congrFun hcounters t) hevents rfl rfl ⟨rfl, rfl⟩ (hmiss fun h => by cases h)
                ⟨hterminal status hstatus, fun s => ?_⟩⟩
            rw [hbrought]
            by_cases hs : status = s
            · simp [Write.brought, hstatus, hs]
            · simp [Write.brought, hstatus, hs, Ne.symm hs]

/-! ### All of them -/

/-- A commit of task `t` that raises has had no effect. -/
def raisesWithoutEffect (t u : Tid) (op : Op) (choice : Choice) : Bool :=
  match op, choice with
  | .commit, .failAfter _ => u != t
  | _, _ => true

theorem Tallied.step {M : Nat} {op : Op} {choice : Choice}
    {answer : Except PyExc op.Ans} (hI : Inv M w.ledger) (h : Tallied t phase w)
    (hallowed : phase.allowed op) (hadmits : raisesWithoutEffect t t op choice)
    (hp : World.perform t op choice w = some (answer, w')) :
    ∃ phase', phase.next op answer = some phase' ∧ Tallied t phase' w' := by
  have hidle : ∀ {op : Op}, phase = .idle → op.isPeripheral →
      ∀ {answer : Except PyExc op.Ans},
        World.perform t op choice w = some (answer, w') → Tallied t phase w' := by
    rintro op rfl hop answer hp
    exact h.peripheral rfl hop hp
  cases op with
  | execute stmt =>
      have hcases : (∃ exc pending, answer = .error exc ∧
          w'.counters t = w.counters t ∧
            w'.events = .raised t (.execute stmt) pending exc :: w.events) ∨
          w.execute t stmt = some (answer, w') := by
        rcases World.perform_cases hp with ⟨exc, kept, -, rfl, rfl⟩ |
          ⟨exc, w₁, hw₁, -⟩ | h'
        · cases kept <;> exact .inl ⟨exc, _, rfl, rfl, rfl⟩
        · cases hw₁
        · cases choice <;> first | exact .inr h' | cases h'
      rcases hallowed with ⟨rfl, id, rfl⟩ | ⟨id, rfl, hown⟩
      · rcases hcases with ⟨exc, pending, rfl, hcounters, hevents⟩ | hexecute
        · exact ⟨.leaving, rfl, h.raised hcounters hevents rfl (.inl rfl)⟩
        · exact h.claim hexecute
      · rcases hcases with ⟨exc, pending, rfl, hcounters, hevents⟩ | hexecute
        · exact ⟨.leaving, rfl, h.raised hcounters hevents rfl (.inl rfl)⟩
        · exact h.own hI hown hexecute
  | commit =>
      cases choice with
      | failAfter exc => simp [raisesWithoutEffect] at hadmits
      | fail exc kept =>
          have hdue := Phase.due_of_commits hallowed
          cases hp
          cases kept <;> exact ⟨.leaving, rfl, h.raised rfl rfl hdue (.inl rfl)⟩
      | ok =>
          cases hp
          exact ⟨_, rfl, h.commit hallowed⟩
      | _ => cases hp
  | close => exact ⟨.idle, by cases answer <;> rfl, h.close hallowed hp⟩
  | count metric amount => exact h.count hallowed hp
  | stopIsSet | getone | commitOffset | startConsumer =>
      exact ⟨phase, by cases answer <;> rfl, hidle hallowed rfl hp⟩
  | sleep | analyzePhoto =>
      exact ⟨phase, by cases answer <;> rfl, h.peripheral hallowed rfl hp⟩
  | setTraceId | monotonic =>
      refine ⟨phase, ?_, h.peripheral hallowed rfl hp⟩
      cases answer with
      | ok value => rfl
      | error exc => cases choice <;> cases hp
  | _ => exact hallowed.elim

end

/-! ## All runs -/

/-- The system, when a database call of task `t` that raises has had no effect. -/
def reliable (settings : Settings) (t : Tid) : System :=
  (system settings).restrict (raisesWithoutEffect t)

/-- What is known of task `t`, should it be a worker. -/
def Accounted (t : Tid) (state : State) : Prop :=
  match state.tasks t with
  | .fresh => Tallied t .idle state.world
  | .running now loop => ∀ arrival, state.world.arrivals t = some arrival →
      arrival.entry = .worker → ∃ phase, Tallied t phase state.world ∧
        now.Follows workerProtocol Phase.Resting phase ∧
        loop.Follows workerProtocol Phase.Resting .idle
  | .ended => True

section

variable {settings : Settings} {t : Tid} {state state' : State}

theorem Accounted.elsewhere (h : Accounted t state) (htasks : state'.tasks t = state.tasks t)
    (harrivals : state'.world.arrivals t = state.world.arrivals t)
    (huntouched : Untouched t state.world state'.world) : Accounted t state' := by
  unfold Accounted at h ⊢
  rw [htasks]
  split
  next htask =>
    rw [htask] at h
    exact Tallied.untouched h huntouched
  next now loop htask =>
    rw [htask] at h
    intro arrival ha hworker
    obtain ⟨phase, htallied, hfollows⟩ := h arrival (harrivals ▸ ha) hworker
    exact ⟨phase, htallied.untouched huntouched, hfollows⟩
  next => trivial

theorem Untouched.same {w w' : World} (hcounters : w'.counters t = w.counters t)
    (hwrites : w'.db.writes t = w.db.writes t) (hevents : w'.events = w.events) :
    Untouched t w w' :=
  ⟨hcounters, hwrites, [], hevents, List.forall_mem_nil _⟩

theorem Untouched.closed {w : World} {u : Tid} (outcome : Outcome) (hne : t ≠ u) :
    Untouched t w (w.closed u outcome) :=
  .same rfl (w.db.kept_finish _ hne).writes rfl

/-- A task takes a step; task `t` is the one that does or another. -/
theorem Accounted.set {w : World} {u : Tid} {task : TaskState Op Op.Ans PyExc Reply}
    (h : Accounted t state) (hself : u = t → Accounted t (state.set w u task))
    (harrivals : t ≠ u → w.arrivals t = state.world.arrivals t)
    (huntouched : t ≠ u → Untouched t state.world w) : Accounted t (state.set w u task) := by
  by_cases hsame : u = t
  · exact hself hsame
  · exact h.elsewhere (Pool.set_tasks_of_ne _ _ _ (Ne.symm hsame))
      (harrivals (Ne.symm hsame)) (huntouched (Ne.symm hsame))

theorem Accounted.running {w : World} {now loop : Py (Option Reply)}
    (h : ∀ arrival, w.arrivals t = some arrival → arrival.entry = .worker →
      ∃ phase, Tallied t phase w ∧ now.Follows workerProtocol Phase.Resting phase ∧
        loop.Follows workerProtocol Phase.Resting .idle) :
    Accounted t (state.set w t (.running now loop)) := by
  unfold Accounted
  rw [Pool.set_tasks_self]
  exact h

theorem Accounted.ended {w : World} : Accounted t (state.set w t .ended) := by
  unfold Accounted
  rw [Pool.set_tasks_self]
  trivial

theorem Accounted.next {label : Label Entry Choice World.External}
    (hI : Inv settings.workerMaxAttempts.toNat state.world.ledger)
    (h : Accounted t state) (hnext : (reliable settings t).next state label = some state') :
    Accounted t state' := by
  have htask : ∀ {task}, state.tasks t = task → Accounted t state →
      match task with
      | .fresh => Tallied t .idle state.world
      | .running now loop => ∀ arrival, state.world.arrivals t = some arrival →
          arrival.entry = .worker → ∃ phase, Tallied t phase state.world ∧
            now.Follows workerProtocol Phase.Resting phase ∧
            loop.Follows workerProtocol Phase.Resting .idle
      | .ended => True := by
    rintro task rfl h
    exact h
  cases Machine.goes_of_next _ hnext with
  | start u entry hrun =>
      refine h.set (fun hsame => ?_) (fun hne => Function.update_of_ne hne ..)
        fun _ => .same rfl rfl rfl
      subst hsame
      refine .running fun arrival ha hworker => ?_
      have harrival : arrival.entry = entry := by
        cases (Function.update_self ..).symm.trans ha
        rfl
      have hidle : Tallied u .idle state.world := htask hrun h
      obtain ⟨hfirst, hloop⟩ := @worker_follows settings
      rw [← harrival, hworker]
      exact ⟨.idle, hidle.untouched (.same rfl rfl rfl), hfirst, hloop⟩
  | step u choice op resume loop answer w hrun hp =>
      obtain ⟨hadmits, hperform⟩ := Machine.perform_of_restrict hp
      obtain ⟨harrivals, -⟩ := World.perform_tasks hperform
      refine h.set (fun hsame => ?_) (fun _ => congrFun harrivals t) fun hne =>
        (Logs.perform hperform).untouched (Frame.perform hperform) hne
      subst hsame
      refine .running fun arrival ha hworker => ?_
      obtain ⟨phase, htallied, ⟨hallowed, hresume⟩, hloop⟩ :=
        htask hrun h arrival (harrivals ▸ ha) hworker
      obtain ⟨phase', hphase, htallied'⟩ := htallied.step hI hallowed hadmits hperform
      exact ⟨phase', htallied', hresume answer phase' hphase, hloop⟩
  | again u loop hrun =>
      refine h.set (fun hsame => ?_) (fun _ => rfl) fun _ => .same rfl rfl rfl
      subst hsame
      refine .running fun arrival ha hworker => ?_
      obtain ⟨phase, htallied, hrest, hloop⟩ := htask hrun h arrival ha hworker
      cases (hrest : phase = .idle)
      exact ⟨.idle, htallied, hloop, hloop⟩
  | returned u reply loop hrun =>
      exact h.set (fun hsame => hsame ▸ .ended) (fun _ => rfl) fun hne => .closed _ hne
  | raised u exc loop hrun =>
      exact h.set (fun hsame => hsame ▸ .ended) (fun _ => rfl) fun hne => .closed _ hne
  | crash u now loop hrun =>
      exact h.set (fun hsame => hsame ▸ .ended) (fun _ => rfl) fun hne => .closed _ hne
  | external event =>
      cases event with
      | _ => exact h.elsewhere rfl rfl (.same rfl rfl rfl)

theorem accounted_of_leads (h : (reliable settings t).Leads start state) :
    Reachable settings state ∧ Accounted t state := by
  refine h.induct _ (P := fun state => Reachable settings state ∧ Accounted t state)
    (fun a label b h hnext => ⟨?_, h.2.next (reachable_inv h.1) hnext⟩)
    ⟨⟨[], rfl⟩, ?_⟩
  · exact h.1.trans _ ⟨[label], by
      simp [Machine.follow, Machine.next_of_restrict hnext]⟩
  · refine ⟨fun gauge => ?_, fun _ _ => rfl,
      ⟨(fun h => by cases h), fun h => by cases h⟩, rfl⟩
    cases gauge <;> rfl

theorem recorded_of_reachable (h : Reachable settings state) :
    state.world.ledger.Recorded :=
  reachable_induct (fun _ hmove hrecorded => hrecorded.move hmove) ⟨[], rfl⟩ h .empty

/-! ## Between two messages -/

/-- A turn has ended, or the worker waits for something other than its message. -/
def betweenMessages : Py (Option Reply) → Bool
  | .ret _ => true
  | .await .startConsumer _ | .await .stopIsSet _ | .await .getone _ => true
  | .await .commitOffset _ => true
  | _ => false

def isResting (state : State) (t : Tid) : Bool :=
  match state.tasks t with
  | .running now _ => betweenMessages now
  | _ => false

/-- Task `t` is a worker between two messages. -/
def RestingWorker (state : State) (t : Tid) : Prop :=
  (state.world.arrivals t).map Arrival.entry = some .worker ∧ isResting state t

instance (state : State) (t : Tid) : Decidable (RestingWorker state t) :=
  inferInstanceAs (Decidable (_ ∧ _))

/-- What the counters of worker `t` say about the photos it has claimed. -/
structure MetricsAccount (t : Tid) (w : World) : Prop where
  claimed_nodup : (broughtBy t .processing w.events).Nodup
  done_nodup : (broughtBy t .done w.events).Nodup
  failed_nodup : (broughtBy t .failed w.events).Nodup
  stuck : w.counters t .photoAnalysisStartedTotal -
    w.counters t .photoAnalysisCompletedTotal - failedTotal (w.counters t) =
      (broughtBy t .processing w.events).countP fun id =>
        w.db.committed.status id = some .processing
  completed : w.counters t .photoAnalysisCompletedTotal =
    (broughtBy t .done w.events).length
  failed : failedTotal (w.counters t) = (broughtBy t .failed w.events).length
  /-- there is no other reason -/
  reasons : ∀ reason, reason ∉ failureReasons →
    w.counters t (.photoAnalysisFailedTotal reason) = 0
  handledDone : w.counters t (.workerMessagesProcessedTotal (py "done")) =
    w.counters t .photoAnalysisCompletedTotal
  handledFailed : w.counters t (.workerMessagesProcessedTotal (py "failed")) =
    failedTotal (w.counters t)
  handledSkipped : w.counters t (.workerMessagesProcessedTotal (py "skipped")) =
    skips t w.events

theorem Phase.idle_of_between {now : Py (Option Reply)} {phase : Phase}
    (h : now.Follows workerProtocol Phase.Resting phase)
    (hbetween : betweenMessages now) : phase = .idle := by
  cases now with
  | ret result => exact h
  | raise exc => cases hbetween
  | await op resume =>
      cases op with
      | startConsumer | stopIsSet | getone | commitOffset => exact h.1
      | _ => cases hbetween

theorem Tallied.read {w : World} (h : Tallied t .idle w) (gauge : Gauge) :
    gauge.read (w.counters t) = tally t w.events gauge :=
  (Int.add_zero _).symm.trans (h.gauges gauge)

theorem Tallied.account {w : World} (h : Tallied t .idle w) (hrecorded : w.ledger.Recorded) :
    MetricsAccount t w := by
  have hone : ∀ {gauge : Gauge} {metric : Metric}, gauge.metrics = [metric] →
      w.counters t metric = tally t w.events gauge := by
    intro gauge metric hmetric
    rw [← h.read gauge, Gauge.read, hmetric]
    exact (Int.add_zero _).symm
  have hfailed : failedTotal (w.counters t) = tally t w.events .failed := by
    rw [← h.read .failed, Gauge.read, Gauge.metrics, List.map_map]
    rfl
  have hcompleted := @hone .completed _ rfl
  have hprocessing : ((broughtBy t .processing w.events).countP fun id =>
      w.db.committed.status id = some .processing) +
      ((broughtBy t .done w.events).length + (broughtBy t .failed w.events).length) =
        (broughtBy t .processing w.events).length := hrecorded.countP_processing t
  refine ⟨hrecorded.nodup t _, hrecorded.nodup t _, hrecorded.nodup t _, ?_, hcompleted,
    hfailed, h.reasons, (@hone .handledDone _ rfl).trans hcompleted.symm,
    (@hone .handledFailed _ rfl).trans hfailed.symm, @hone .handledSkipped _ rfl⟩
  rw [@hone .started _ rfl, hcompleted, hfailed]
  change ((broughtBy t .processing w.events).length : Int) -
    (broughtBy t .done w.events).length - (broughtBy t .failed w.events).length = _
  rw [← hprocessing]
  push_cast
  omega

/--
Between two messages the metrics of a worker account for every photo it has claimed,
whatever its messages and the analyzer's answers, and wherever its database raises
without effect.
-/
theorem metrics_account (h : (reliable settings t).Leads start state)
    (hresting : RestingWorker state t) : MetricsAccount t state.world := by
  obtain ⟨hreach, haccounted⟩ := accounted_of_leads h
  obtain ⟨hworker, hresting⟩ := hresting
  obtain ⟨arrival, ha, hentry⟩ := Option.map_eq_some_iff.mp hworker
  unfold isResting at hresting
  split at hresting
  next now loop hrun =>
    rw [Accounted, hrun] at haccounted
    obtain ⟨phase, htallied, hfollows, -⟩ := haccounted arrival ha hentry
    cases Phase.idle_of_between hfollows hresting
    exact htallied.account (recorded_of_reachable hreach)
  next => cases hresting

end

/-- Worker 2 has brought a photo to its end. -/
theorem metrics_account_analyzed : ∃ state,
    (reliable defaultSettings 2).Leads start state ∧
      broughtBy 2 .done state.world.events = [jpegId] ∧
      MetricsAccount 2 state.world := by
  obtain ⟨state, hfollow, hchecks⟩ := (Option.any_eq_true _ _).mp
    (by decide +kernel : ((reliable defaultSettings 2).follow start
      (uploads ++ publishes ++ receives 2 ++ analyzes 2)).any (fun state =>
        decide (broughtBy 2 .done state.world.events = [jpegId] ∧
          RestingWorker state 2)) = true)
  obtain ⟨hdone, hresting⟩ := of_decide_eq_true hchecks
  exact ⟨state, ⟨_, hfollow⟩, hdone, metrics_account ⟨_, hfollow⟩ hresting⟩

end PhotoAnalysis

import PhotoAnalysis.Guarantees.Starts
import PhotoAnalysis.Refinement.Custody

/-!
# One live producer

Whatever order the tasks of a process take their steps in, at most one client of
its producer is live, and events go to no other.
-/

namespace PhotoAnalysis

open Foundation Program

variable {settings : Settings} {state : State} {trace : Trace Op Op.Ans PyExc}

/-! ## What a run shows -/

/-- `start()` of the client has returned, and it was not stopped. -/
def ClientLive (state : State) (trace : Trace Op Op.Ans PyExc) (app : Nat)
    (client : ClientId) : Prop :=
  (∃ t, Serves state app t ∧ (t, ⟨.startProducer client, .ok ()⟩) ∈ trace) ∧
    ¬∃ t, Serves state app t ∧ (t, ⟨.stopProducer app (some client), .ok ()⟩) ∈ trace

/-- Task `t` runs the routine of `entry`. -/
def Runs (state : State) (entry : Entry) (t : Tid) : Prop :=
  (state.world.arrivals t).map Arrival.entry = some entry

instance (entry : Entry) (t : Tid) : Decidable (Runs state entry t) :=
  inferInstanceAs (Decidable (_ = some entry))

/-- Task `t` of the publisher sends an event through the client. -/
def Publishing (state : State) (app : Nat) (client : ClientId) (t : Tid) : Prop :=
  Runs state (.outboxPublisher app) t ∧ ∃ value key resume loop,
    state.tasks t = .running (.await (.sendAndWait client value key) resume) loop

/-- Task `t` of the publisher has come to the guard of `publish_analysis_requested`. -/
def AtGuard (state : State) (app : Nat) (t : Tid) : Prop :=
  Runs state (.outboxPublisher app) t ∧
    ∃ photoId objectKey createdAt traceId rest loop, state.tasks t = .running
      ((KafkaEventProducer.publishAnalysisRequested app photoId objectKey createdAt
        traceId).attempt.bind rest) loop

/-- The publisher comes there with every row, once it has read the trace id. -/
theorem publishRow_guard (app : Nat) (row : Photo)
    (last : Except PyExc Unit → Py (Option Reply)) :
    (Outbox.publishRow app row).attempt.bind last = traceIdVar.attempt.bind fun
      | .ok traceId => (KafkaEventProducer.publishAnalysisRequested app row.photoId.text
          row.objectKey row.createdAt traceId).attempt.bind fun
        | .ok _ => (PhotoRepository.markPublished row.photoId).attempt.bind last
        | .error exc => last (.error exc)
      | .error exc => last (.error exc) := by
  refine (attempt_bind traceIdVar _ last).trans (congrArg _ (funext fun outcome => ?_))
  cases outcome with
  | ok traceId =>
      refine (attempt_bind (KafkaEventProducer.publishAnalysisRequested ..)
        (fun _ => PhotoRepository.markPublished row.photoId) last).trans
          (congrArg _ (funext fun published => ?_))
      cases published <;> rfl
  | error exc => rfl

/-- `stop` has returned to task `s`, and all other tasks had ended before. -/
structure StoppedLast (state : State) (trace : Trace Op Op.Ans PyExc) (app : Nat)
    (s : Tid) : Prop where
  runs : Runs state (.stopProducer app) s
  returned : ∃ client, (s, ⟨.stopProducer app client, .ok ()⟩) ∈ trace
  last : ∀ arrival, state.world.arrivals s = some arrival →
    ∀ t, Serves state app t → t ≠ s → t ∈ arrival.before

/-- What the lifecycle of a producer keeps to. -/
structure ProducerSafe (state : State) (trace : Trace Op Op.Ans PyExc) (app : Nat) :
    Prop where
  starting : ∀ c d t u, Starting state app c t → Starting state app d u →
    c = d ∧ t = u
  once : ∀ c t u, Starting state app c t → Serves state app u →
    (u, ⟨.startProducer c, .ok ()⟩) ∉ trace
  live : ∀ c d, ClientLive state trace app c → ClientLive state trace app d → c = d
  field : (state.world.producers app).started = true →
    ∃ c, (state.world.producers app).producer = some c ∧ ClientLive state trace app c
  publish : ∀ c t, Publishing state app c t → ClientLive state trace app c
  guard : ∀ t, AtGuard state app t → (state.world.producers app).started = true ∧
    ∃ c, (state.world.producers app).producer = some c ∧ ClientLive state trace app c
  stopped : ∀ s, StoppedLast state trace app s → ∀ c, ¬ClientLive state trace app c

/--
Of `stop` and a task among `others`, one had ended before the other began; no task
of the process was killed.
-/
structure StopsApart (state : State) (app : Nat) (others : Entry → Prop) : Prop where
  apart : ∀ s t stop other, state.world.arrivals s = some stop →
    stop.entry = .stopProducer app → state.world.arrivals t = some other →
    others other.entry → t ≠ s → t ∈ stop.before ∨ s ∈ other.before
  unkilled : ∀ t, Serves state app t → state.world.outcomes t ≠ some none

/-! ## From runs to the fleet -/

theorem serves_of_runs {entry : Entry} {app : Nat} {t : Tid}
    (h : Runs state entry t) (happ : entry.app = some app) : Serves state app t := by
  obtain ⟨arrival, ha, rfl⟩ := Option.map_eq_some_iff.mp h
  exact ⟨arrival, ha, happ⟩

theorem grows_of_next {state' : State} {label : Label Entry Choice World.External}
    (hreach : Reachable settings state)
    (hnext : (system settings).next state label = some state') :
    Grows state.world.ledger state'.world.ledger :=
  reachable_grows hreach ⟨[label], by simp [Machine.follow, hnext]⟩

theorem outcome_of_running {t : Tid} {now loop : Py (Option Reply)}
    (hreach : Reachable settings state) (hrun : state.tasks t = .running now loop) :
    state.world.outcomes t = none := by
  have hbusy := (reachable_safe hreach).tasks t
  rw [hrun] at hbusy
  obtain ⟨-, -, hlive⟩ := hbusy.1
  exact hlive

/-- A task that has ended before another began does not run any more. -/
theorem ended_of_before {s t : Tid} {arrival : Arrival} (hreach : Reachable settings state)
    (ha : state.world.arrivals s = some arrival) (ht : t ∈ arrival.before) :
    (state.world.outcomes t).isSome :=
  (reachable_inv hreach).finished t ((reachable_inv hreach).before s arrival ha t ht)

theorem StopsApart.before {state' : State} {app : Nat} {others : Entry → Prop}
    {label : Label Entry Choice World.External} (hreach : Reachable settings state)
    (hnext : (system settings).next state label = some state')
    (h : StopsApart state' app others) : StopsApart state app others := by
  have hgrows := grows_of_next hreach hnext
  refine ⟨fun s t stop other hs hstop ht hother hne => ?_, fun t hserves hkilled => ?_⟩
  · exact h.apart s t stop other (hgrows.arrivals s stop hs) hstop
      (hgrows.arrivals t other ht) hother hne
  · obtain ⟨arrival, ha, happ⟩ := hserves
    exact h.unkilled t ⟨arrival, hgrows.arrivals t arrival ha, happ⟩
      (hgrows.outcomes t none hkilled)

/-- Every task of the process that may not run beside `stop` has ended. -/
theorem free_of_apart {state' : State} {F : Fleet} {app : Nat} {t : Tid} {entry : Entry}
    (hreach : Reachable settings state)
    (hnext : (system settings).next state (.start t entry) = some state')
    (hshows : Shows state trace F)
    (hapart : StopsApart state' app fun entry => entry.app = some app)
    (happ : entry.app = some app) : F.Free app entry.mode := by
  have hgrows := grows_of_next hreach hnext
  have hold := hapart.before hreach hnext
  obtain ⟨hfresh, harrival⟩ : state.world.arrivals t = none ∧
      state'.world.arrivals t = some ⟨entry, state.world.ended⟩ := by
    cases Machine.goes_of_next _ hnext with
    | start _ _ htask =>
        have hidle := (reachable_safe hreach).tasks t
        rw [htask] at hidle
        exact ⟨hidle.arrival, Function.update_self ..⟩
  intro u m hu
  obtain ⟨arrival, ha, hserves, hstop, hruns⟩ := hshows.tasks u app m hu
  have hne : u ≠ t := by
    rintro rfl
    cases hfresh.symm.trans ha
  have hrunning : u ∉ state.world.ended := by
    intro hended
    have hend := (reachable_inv hreach).finished u hended
    rcases hruns with ⟨now, loop, hrun⟩ | hkilled
    · rw [show state.world.ledger.outcomes u = none from
        outcome_of_running hreach hrun] at hend
      cases hend
    · exact hold.unkilled u ⟨arrival, ha, hserves⟩ hkilled
  have hlate : t ∉ arrival.before := by
    intro hmem
    have hcame := (reachable_inv hreach).came t (ended_of_before hreach ha hmem)
    rw [show state.world.ledger.arrivals t = none from hfresh] at hcame
    cases hcame
  have hkept := hgrows.arrivals u arrival ha
  constructor
  · refine Bool.eq_false_iff.mpr fun hm => ?_
    exact (hapart.apart u t arrival _ hkept (hstop.mp hm) harrival happ hne.symm).elim
      hlate hrunning
  · refine Bool.eq_false_iff.mpr fun hm => ?_
    have hentry : entry = .stopProducer app := by
      cases entry with
      | stopProducer b => cases happ; rfl
      | _ => cases hm
    exact (hapart.apart t u _ arrival harrival hentry hkept hserves hne).elim
      hrunning hlate

/-- The system refines a fleet in which `stop` runs alone. -/
theorem fleet_of_apart {app : Nat} (h : (system settings).Run start state trace)
    (hapart : StopsApart state app fun entry => entry.app = some app) :
    ∃ F, Fleet.Reach (Fleet.StopsAlone app) F ∧ Shows state trace F := by
  refine @fleet_of_run settings state trace
    (fun state => StopsApart state app fun entry => entry.app = some app)
    (Fleet.StopsAlone app) (fun hnext hreach hgood => hgood.before hreach hnext) ?_ h hapart
  rintro state state' trace F t entry b hnext hreach hshows hgood happ rfl
  exact free_of_apart hreach hnext hshows hgood happ

/-! ## What the fleet says about a state -/

namespace Fleet.Tended

variable {F : Fleet} {app : Nat}

theorem live_unique (h : F.Tended app) {c d : ClientId} (hc : (F.holding app).Live c)
    (hd : (F.holding app).Live d) : c = d := by
  rcases h.rest with (hoff | ⟨client, hon⟩) | ⟨t, client, ht⟩
  · exact (hoff.dead c hc).elim
  · exact (hon.2.only c hc).trans (hon.2.only d hd).symm
  · have hrelies := h.relies t _ ht
    exact (hrelies.2.only c hc).trans (hrelies.2.only d hd).symm

/-- The fields are right as soon as they say that the producer is started. -/
theorem on_of_started (h : F.Tended app) (hstarted : (F.self app).started = true) :
    ∃ client, (F.holding app).On client := by
  have hfalse : (F.holding app).started ≠ false := by
    rw [show (F.holding app).started = true from hstarted]
    nofun
  rcases h.rest with (hoff | hon) | ⟨t, client, ht⟩
  · exact absurd hoff.started hfalse
  · exact hon
  · exact absurd (h.relies t _ ht).1 hfalse

end Fleet.Tended

theorem Shows.live_iff {F : Fleet} {app : Nat} {client : ClientId}
    (h : Shows state trace F) :
    ClientLive state trace app client ↔ (F.holding app).Live client := by
  simp only [ClientLive, Holding.Live, Fleet.holding, h.deeds]

/-- A task that runs, in its mode. -/
theorem Shows.mode_of_running {F : Fleet} {app : Nat} {t : Tid}
    {now loop : Py (Option Reply)} (h : Shows state trace F) (hserves : Serves state app t)
    (hrun : state.tasks t = .running now loop) :
    ∃ mode entry, F.tasks t = some (app, mode) ∧ Runs state entry t ∧
      (mode.stopping = true ↔ entry = .stopProducer app) ∧
      now.Follows (protocol app) entry.Leaves mode := by
  obtain ⟨arrival, ha, happ⟩ := hserves
  obtain ⟨mode, htask, hfollows⟩ := h.follows t now loop arrival app hrun ha happ
  obtain ⟨arrival', ha', -, hstop, -⟩ := h.tasks t app mode htask
  cases ha.symm.trans ha'
  exact ⟨mode, arrival.entry, htask, by rw [Runs, ha]; rfl, hstop, hfollows⟩

/-- Nothing can be done both here and there. -/
theorem not_follows_both {α : Type} {program : Py α} {app : Nat} {mode mode' : Mode}
    {post : Except PyExc α → Mode → Prop} (h : program.Follows (protocol app) post mode)
    (h' : program.Follows (protocol app) post mode')
    (hop : ∀ op, mode.allowed app op → ¬mode'.allowed app op)
    (hpost : ∀ outcome, post outcome mode → ¬post outcome mode') : False := by
  cases program with
  | ret value => exact hpost _ h h'
  | raise exc => exact hpost _ h h'
  | await op resume => exact hop op h.1 h'.1

theorem Entry.not_leaves {entry : Entry} {mode : Mode} (h : mode.done = false)
    (outcome : Except PyExc (Option Reply)) : ¬entry.Leaves outcome mode := by
  rcases outcome with exc | (_ | reply)
  · exact fun hdone => by cases h.symm.trans hdone
  · exact fun hleaves => by cases h.symm.trans (Mode.done_of_resting hleaves.2)
  · exact fun hdone => by cases h.symm.trans hdone

/-- Modes that two answers to one read lead to, and that have nothing in common. -/
theorem Mode.not_both {app : Nat} {mode mode' : Mode}
    (h : mode = .ready ∧ mode' = .asking ∨ mode = .closing true ∧ mode' = .unstarted ∨
      mode = .empty ∧ mode' = .chosen 0) (op : Op) (hallowed : mode.allowed app op) :
    ¬mode'.allowed app op := by
  rcases h with ⟨rfl, rfl⟩ | ⟨rfl, rfl⟩ | ⟨rfl, rfl⟩ <;>
    cases op with
    | setProducer a producer =>
        cases producer <;> simp [Mode.allowed] at hallowed
    | setStarted a started =>
        cases started <;> simp [Mode.allowed] at hallowed
    | _ => simp_all [Mode.allowed, Mode.reads, Mode.resting]

/-- Only a task to which `ensure_started` has returned comes to the guard. -/
theorem sure_of_guard {app : Nat} {mode : Mode} {entry : Entry} {photoId objectKey : Str}
    {createdAt : Time} {traceId : Str} {rest : Except PyExc Unit → Py (Option Reply)}
    (hstopping : mode.stopping = false)
    (h : ((KafkaEventProducer.publishAnalysisRequested app photoId objectKey createdAt
      traceId).attempt.bind rest).Follows (protocol app) entry.Leaves mode) :
    mode.sure := by
  have hraised : ∀ producer started, producer = none ∨ started = false →
      (rest (.error (.runtime (py "KafkaEventProducer.ensure_started() was not awaited")))
        ).Follows (protocol app) entry.Leaves (mode.read ⟨producer, started, none⟩) := by
    intro producer started hfields
    have hrest := h.2 (.ok ⟨producer, started, none⟩) _ rfl
    cases producer with
    | none => exact hrest
    | some client =>
        cases hfields.resolve_left nofun
        exact hrest
  have hnone := fun started => hraised none started (.inl rfl)
  have hreads : mode.reads := h.1.2
  -- `ensure_started` goes on differently after two of the answers that raise here
  cases mode with
  | ready | knows client | lost => rfl
  | away =>
      exact (not_follows_both (hnone true) (hnone false) (Mode.not_both (.inl ⟨rfl, rfl⟩))
        fun outcome _ => Entry.not_leaves rfl outcome).elim
  | inside =>
      exact (not_follows_both (hnone true) (hnone false)
        (Mode.not_both (.inr (.inl ⟨rfl, rfl⟩)))
        fun outcome _ => Entry.not_leaves rfl outcome).elim
  | unstarted =>
      exact (not_follows_both (hnone false) (hraised (some 0) false (.inr rfl))
        (Mode.not_both (.inr (.inr ⟨rfl, rfl⟩)))
        fun outcome _ => Entry.not_leaves rfl outcome).elim
  | standing => cases hstopping
  | _ => cases hreads

/-! ## After `stop` -/

theorem noted_cases (label : Label Entry Choice World.External) :
    (system settings).noted state trace label = trace ∨
      ∃ t op resume loop choice answer w, label = .step t choice ∧
        state.tasks t = .running (.await op resume) loop ∧
        World.perform t op choice state.world = some (answer, w) ∧
        (system settings).noted state trace label = (t, ⟨op, answer⟩) :: trace := by
  cases label with
  | step t choice =>
      simp only [Machine.noted]
      split
      next op resume loop hrun =>
        cases hperform : (system settings).perform t op choice state.world with
        | none => exact .inl rfl
        | some pair =>
            exact .inr ⟨t, op, resume, loop, choice, pair.1, pair.2, rfl, hrun, hperform,
              rfl⟩
      next => exact .inl rfl
  | _ => exact .inl rfl

/-- The producer is not started again before another task begins. -/
theorem not_live_of_stopped {app : Nat} (h : (system settings).Run start state trace)
    (hapart : StopsApart state app fun entry => entry.app = some app) {s : Tid}
    (hstopped : StoppedLast state trace app s) (c : ClientId) :
    ¬ClientLive state trace app c := by
  induction h with
  | start =>
      obtain ⟨client, hreturned⟩ := hstopped.returned
      cases hreturned
  | @next state state' trace label hrun hnext ih =>
      have hreach : Reachable settings state := hrun.leads
      have hgrows := grows_of_next hreach hnext
      have hbefore := hapart.before hreach hnext
      obtain ⟨F, hF, hshows⟩ := fleet_of_apart hrun hbefore
      have hcame : ∀ {t deed} {arrival : Arrival}, (t, deed) ∈ trace →
          state'.world.arrivals t = some arrival →
          state.world.arrivals t = some arrival := by
        intro t deed arrival hmem ha
        obtain ⟨arrival', ha'⟩ := hshows.came t deed hmem
        exact ha'.trans ((hgrows.arrivals t arrival' ha').symm.trans ha)
      have hserves : ∀ {t}, Serves state app t → Serves state' app t :=
        fun ⟨arrival, ha, happ⟩ => ⟨arrival, hgrows.arrivals _ arrival ha, happ⟩
      have hback : (∃ client, (s, ⟨.stopProducer app client, .ok ()⟩) ∈ trace) →
          ∀ {trace'}, StoppedLast state' trace' app s →
            StoppedLast state trace app s := by
        rintro ⟨client, hmem⟩ trace' hstopped'
        obtain ⟨arrival, ha, hentry⟩ := Option.map_eq_some_iff.mp hstopped'.runs
        refine ⟨by rw [Runs, hcame hmem ha]; exact congrArg some hentry,
          ⟨client, hmem⟩, ?_⟩
        exact fun arrival ha t ht =>
          hstopped'.last arrival (hgrows.arrivals s arrival ha) t (hserves ht)
      have hlive : ∀ {u}, Serves state' app u →
          (u, ⟨.startProducer c, .ok ()⟩) ∈ trace →
          (¬∃ v, Serves state' app v ∧
            (v, ⟨.stopProducer app (some c), .ok ()⟩) ∈ trace) →
          ClientLive state trace app c := by
        rintro u ⟨arrival, ha, happ⟩ hbegun hnot
        exact ⟨⟨u, ⟨arrival, hcame hbegun ha, happ⟩, hbegun⟩,
          fun ⟨v, hv, hhalted⟩ => hnot ⟨v, hserves hv, hhalted⟩⟩
      rcases noted_cases label with
        hsame | ⟨t, op, resume, loop, choice, answer, w, rfl, htask, hp, hnoted⟩
      · rw [hsame] at hstopped ⊢
        rintro ⟨⟨u, hu, hbegun⟩, hnot⟩
        exact ih hbefore (hback hstopped.returned hstopped) (hlive hu hbegun hnot)
      rw [hnoted] at hstopped ⊢
      obtain ⟨client, hreturned⟩ := hstopped.returned
      obtain ⟨own, hown, -⟩ := running_within hreach htask
      have harrival : state'.world.arrivals t = state.world.arrivals t :=
        (hgrows.arrivals t own hown).trans hown.symm
      rintro ⟨⟨u, hu, hbegun⟩, hnot⟩
      rcases mem_cons_deeds.mp hbegun with ⟨rfl, hdeed⟩ | hbegun
      · -- the task that starts the client would have to have ended already
        cases hdeed
        have hserve : Serves state app u := by
          rw [Serves, harrival] at hu
          exact hu
        obtain ⟨mode, entry, hmode, hentry, hstop, hallowed, -⟩ :=
          hshows.mode_of_running hserve htask
        cases (hallowed : mode = .placed c)
        by_cases hne : u = s
        · subst hne
          have hruns : Runs state (.stopProducer app) u := by
            rw [Runs, ← harrival]
            exact hstopped.runs
          cases hstop.mpr (Option.some.inj (hentry.symm.trans hruns))
        · have hreturned := (mem_cons_deeds.mp hreturned).resolve_left
            fun h => hne h.1.symm
          obtain ⟨stop, hs⟩ := hshows.came s _ hreturned
          have hended := ended_of_before hreach hs
            (hstopped.last stop (hgrows.arrivals s stop hs) u hu hne)
          rw [outcome_of_running hreach htask] at hended
          cases hended
      · have hold := hlive hu hbegun fun ⟨v, hv, hhalted⟩ => hnot ⟨v, hv, .tail _ hhalted⟩
        rcases mem_cons_deeds.mp hreturned with ⟨rfl, hdeed⟩ | hreturned
        · cases hdeed
          have hserve : Serves state' app s := serves_of_runs hstopped.runs rfl
          obtain ⟨mode, entry, hmode, -, -, hallowed, -⟩ :=
            hshows.mode_of_running (by rw [Serves, ← harrival]; exact hserve) htask
          cases hallowed.2
          cases Mode.eq_of_stops (hF.tended.relies s _ hmode) (hshows.live_iff.mp hold)
          exact hnot ⟨s, hserve, .head _⟩
        · exact ih hbefore (hback ⟨client, hreturned⟩ hstopped) hold

/-! ## All runs -/

/-! ### Runs that can be replayed -/

def startedTasks (schedule : Schedule) : List Tid :=
  schedule.filterMap fun
    | .start t _ => some t
    | _ => none

theorem started_of_arrival {schedule : Schedule} {t : Tid} {arrival : Arrival}
    (h : (system settings).replay start [] schedule = some (state, trace))
    (ha : state.world.arrivals t = some arrival) : t ∈ startedTasks schedule := by
  by_contra hnot
  have hfresh : state.tasks t = .fresh := by
    refine Machine.fresh_of_follow _ (Machine.follow_of_replay _ h) rfl
      fun entry hmem => ?_
    exact hnot (List.mem_filterMap.mpr ⟨_, hmem, rfl⟩)
  have hidle := (reachable_safe (Machine.Run.replay _ .start h).leads).tasks t
  rw [hfresh] at hidle
  cases (show state.world.arrivals t = none from hidle.arrival).symm.trans ha

def killed (state : State) (t : Tid) : Bool :=
  match state.world.outcomes t with
  | some none => true
  | _ => false

/-- `StopsApart`, as far as the tasks of a list go. -/
def stopsApart (state : State) (tasks : List Tid) (app : Nat) (others : Entry → Bool) :
    Bool :=
  tasks.all fun t => !killed state t && tasks.all fun s => decide (t = s) ||
    (state.world.arrivals s).all fun stop => (state.world.arrivals t).all fun other =>
      decide (stop.entry = .stopProducer app → others other.entry →
        t ∈ stop.before ∨ s ∈ other.before)

theorem stopsApart_of_replay {schedule : Schedule} {app : Nat} {others : Entry → Bool}
    (h : (system settings).replay start [] schedule = some (state, trace))
    (hchecks : stopsApart state (startedTasks schedule) app others) :
    StopsApart state app (others ·) := by
  simp only [stopsApart, List.all_eq_true, Bool.and_eq_true, Bool.or_eq_true,
    Bool.not_eq_true'] at hchecks
  refine ⟨fun s t stop other hs hstop ht hother hne => ?_,
    fun t ⟨arrival, ha, _⟩ hdead => ?_⟩
  · have hpair := (hchecks t (started_of_arrival h ht)).2 s (started_of_arrival h hs)
    have hall := hpair.resolve_left (by simpa using hne)
    rw [hs, ht] at hall
    exact of_decide_eq_true hall hstop hother
  · have hnot := (hchecks t (started_of_arrival h ha)).1
    rw [killed, hdead] at hnot
    cases hnot

/-- Task 0 starts the producer, and task 1 stops it. -/
def startsAndStops : Schedule :=
  [.start 0 (.startProducer 0)] ++ goes 0 9 ++ [.finish 0, .start 1 (.stopProducer 0)] ++
    goes 1 2 ++ [.finish 1]

def stopsProducer (deed : Deed) : Bool :=
  match deed with
  | ⟨.stopProducer 0 (some 0), .ok ()⟩ => true
  | _ => false

theorem eq_of_stopsProducer {deed : Deed} (h : stopsProducer deed) :
    deed = ⟨.stopProducer 0 (some 0), .ok ()⟩ := by
  unfold stopsProducer at h
  split at h
  next => rfl
  next => cases h

/--
When `stop` runs alone, at most one client is being started, at most one is live,
the publisher sends to that one, and none is left once `stop` has returned.
-/
theorem producer_safe {app : Nat} (h : (system settings).Run start state trace)
    (hapart : StopsApart state app fun entry => entry.app = some app) :
    ProducerSafe state trace app := by
  obtain ⟨F, hF, hshows⟩ := fleet_of_apart h hapart
  have htended := hF.tended
  have hstarting : ∀ {c t}, Starting state app c t →
      F.tasks t = some (app, .placed c) := by
    rintro c t ⟨hserves, resume, loop, hrun⟩
    obtain ⟨mode, entry, hmode, -, -, hallowed, -⟩ := hshows.mode_of_running hserves hrun
    cases (hallowed : mode = .placed c)
    exact hmode
  have hlive : ∀ {c}, (F.holding app).On c → ClientLive state trace app c :=
    fun hon => hshows.live_iff.mpr hon.2.live
  have hon : ∀ {c}, (F.holding app).On c →
      (state.world.producers app).started = true ∧
        ∃ c, (state.world.producers app).producer = some c ∧
          ClientLive state trace app c := by
    intro c hon
    rw [← hshows.self]
    exact ⟨hon.1, c, hon.2.field, hlive hon⟩
  refine ⟨fun c d t u ht hu => ?_, fun c t u ht hu hbegun => ?_, fun c d hc hd => ?_,
    fun hstarted => ?_, fun c t ht => ?_, fun t ht => ?_,
    fun s hs c => not_live_of_stopped h hapart hs c⟩
  · cases hF.sound.holder (hstarting ht) (hstarting hu) rfl rfl
    cases (hstarting ht).symm.trans (hstarting hu)
    exact ⟨rfl, rfl⟩
  · obtain ⟨hoff, hfield⟩ := htended.relies t _ (hstarting ht)
    exact hoff.unused c hfield ((hshows.deeds app _).mpr ⟨u, hu, hbegun⟩)
  · exact htended.live_unique (hshows.live_iff.mp hc) (hshows.live_iff.mp hd)
  · rw [← hshows.self] at hstarted
    exact (htended.on_of_started hstarted).elim fun c hc => (hon hc).2
  · obtain ⟨hruns, value, key, resume, loop, hrun⟩ := ht
    obtain ⟨mode, entry, hmode, -, -, hallowed, -⟩ :=
      hshows.mode_of_running (serves_of_runs hruns rfl) hrun
    rcases hallowed with rfl | rfl
    · exact hlive (htended.relies t _ hmode)
    · exact (htended.relies t _ hmode).elim
  · obtain ⟨hruns, photoId, objectKey, createdAt, traceId, rest, loop, hrun⟩ := ht
    obtain ⟨mode, entry, hmode, hentry, hstop, hfollows⟩ :=
      hshows.mode_of_running (serves_of_runs hruns rfl) hrun
    have hstopping : mode.stopping = false := by
      refine Bool.eq_false_iff.mpr fun hm => ?_
      cases (Option.some.inj (hruns.symm.trans hentry)).trans (hstop.mp hm)
    have hsure := sure_of_guard hstopping hfollows
    have hrelies := htended.relies t mode hmode
    cases mode with
    | ready => exact hrelies.elim fun c hc => hon hc
    | knows c => exact hon hrelies
    | lost => exact hrelies.elim
    | _ => cases hsure

theorem producer_safe_stopped : ∃ state trace,
    (system defaultSettings).Run start state trace ∧ StoppedLast state trace 0 1 ∧
      ProducerSafe state trace 0 := by
  obtain ⟨⟨state, trace⟩, hreplay, hchecks⟩ := (Option.any_eq_true _ _).mp
    (by decide +kernel : ((system defaultSettings).replay start [] startsAndStops).any
      (fun run => stopsApart run.1 (startedTasks startsAndStops) 0 (·.app = some 0) &&
        decide (Runs run.1 (.stopProducer 0) 1) &&
        (run.1.world.arrivals 1).all (fun arrival => (startedTasks startsAndStops).all
          fun t => decide (t ≠ 1 → t ∈ arrival.before)) &&
        run.2.any fun deed => deed.1 = 1 && stopsProducer deed.2) = true)
  simp only [Bool.and_eq_true, decide_eq_true_eq] at hchecks
  obtain ⟨⟨⟨hapart, hruns⟩, hlast⟩, hstops⟩ := hchecks
  obtain ⟨⟨t, deed⟩, hmem, hdeed⟩ := List.any_eq_true.mp hstops
  simp only [Bool.and_eq_true, decide_eq_true_eq] at hdeed
  obtain ⟨rfl, hstopped⟩ := hdeed
  cases eq_of_stopsProducer hstopped
  have hrun := Machine.Run.replay _ .start hreplay
  have horder := stopsApart_of_replay hreplay hapart
  simp only [decide_eq_true_eq] at horder
  refine ⟨state, trace, hrun, ⟨hruns, ⟨_, hmem⟩, fun arrival ha t ht hne => ?_⟩,
    producer_safe hrun horder⟩
  obtain ⟨own, hown, -⟩ := ht
  rw [ha] at hlast
  exact of_decide_eq_true
    (List.all_eq_true.mp hlast t (started_of_arrival hreplay hown)) hne

/-- Task 2 stops the producer while task 1 starts it; the publisher has ended. -/
def stopsAmidStart : Schedule :=
  [.external (.stop 0), .start 0 (.outboxPublisher 0)] ++ goes 0 1 ++
    [.finish 0, .start 1 (.startProducer 0)] ++ goes 1 6 ++
    [.start 2 (.stopProducer 0)] ++ goes 2 2 ++ [.finish 2] ++ goes 1 2

/-- The client that is being started as `stop` runs is live afterwards, in no field. -/
theorem producer_unsafe : ¬∀ (settings : Settings) (state : State)
    (trace : Trace Op Op.Ans PyExc) (app : Nat), (system settings).Run start state trace →
      StopsApart state app (· = .outboxPublisher app) → ProducerSafe state trace app := by
  intro h
  obtain ⟨⟨state, trace⟩, hreplay, hchecks⟩ := (Option.any_eq_true _ _).mp
    (by decide +kernel : ((system defaultSettings).replay start [] stopsAmidStart).any
      (fun run => stopsApart run.1 (startedTasks stopsAmidStart) 0
          (· = .outboxPublisher 0) &&
        (run.1.world.producers 0).started &&
        (run.1.world.producers 0).producer.isNone) = true)
  simp only [Bool.and_eq_true] at hchecks
  obtain ⟨⟨hapart, hstarted⟩, hnone⟩ := hchecks
  have horder := stopsApart_of_replay hreplay hapart
  simp only [decide_eq_true_eq] at horder
  have hsafe := h defaultSettings state trace 0 (Machine.Run.replay _ .start hreplay)
    horder
  obtain ⟨c, hc, -⟩ := hsafe.field hstarted
  rw [hc] at hnone
  cases hnone

end PhotoAnalysis

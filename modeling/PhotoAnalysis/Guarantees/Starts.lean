import PhotoAnalysis.Guarantees.Photos
import PhotoAnalysis.Refinement.Fleet

/-!
# Failed starts of the producer

A client whose `start()` raised an exception is taken out of its field before
anybody else can start it.  A cancellation is not caught, and leaves it there.
-/

namespace PhotoAnalysis

open Foundation Program

/-! ## One producer -/

namespace Fleet

/-- `start()` of the client has raised `exc` in process `app`. -/
def Failed (F : Fleet) (app : Nat) (client : ClientId) (exc : PyExc) : Prop :=
  (app, ⟨.startProducer client, .error exc⟩) ∈ F.deeds

/-- Some `start()` of the client has failed, but none was cancelled. -/
def Tainted (F : Fleet) (app : Nat) (client : ClientId) : Prop :=
  (∃ exc, F.Failed app client exc) ∧ ¬F.Failed app client .cancelled

/-- A tainted client is on its way out of the field, and nobody is about to start it. -/
structure Mending (F : Fleet) (app : Nat) : Prop where
  field : ∀ client, F.Tainted app client → (F.self app).producer = some client →
    ∃ t, F.tasks t = some (app, .broken client)
  chosen : ∀ t mode client, F.tasks t = some (app, mode) →
    (mode = .chosen client ∨ mode = .placed client) → ¬F.Tainted app client

variable {may : Fleet → Nat → Mode → Prop} {F : Fleet} {app : Nat}

theorem Mending.initial : Mending Fleet.initial app where
  field := fun client ⟨⟨exc, hfailed⟩, _⟩ => by cases hfailed
  chosen := fun t mode client htask => by cases htask

theorem Mending.put {t : Tid} {task : Option (Nat × Mode)} (h : F.Mending app)
    (hold : ∀ client, F.tasks t ≠ some (app, .broken client))
    (htask : ∀ mode, task = some (app, mode) → mode = .away ∨ mode = .standing) :
    (F.put t task).Mending app where
  field := fun client htainted hfield => by
    obtain ⟨u, hu⟩ := h.field client htainted hfield
    refine ⟨u, (Function.update_of_ne ?_ ..).trans hu⟩
    rintro rfl
    exact hold client hu
  chosen := fun u mode client hu hmode => by
    rcases tasks_put hu with ⟨-, heq⟩ | ⟨-, hu⟩
    · rcases htask mode heq with rfl | rfl <;> rcases hmode with hmode | hmode <;>
        cases hmode
    · exact h.chosen u mode client hu hmode

/-- A client is tainted by a start that fails, and by nothing else. -/
theorem tainted_act {t : Tid} {b : Nat} {mode' : Mode} {self' : KafkaEventProducer}
    {clients' : ClientId} {deed : Deed} {client : ClientId}
    (h : (F.act t b mode' self' clients' deed).Tainted app client) :
    F.Tainted app client ∨ app = b ∧ ∃ exc, exc ≠ .cancelled ∧
      deed = ⟨.startProducer client, .error exc⟩ := by
  obtain ⟨⟨exc, hfailed⟩, hnot⟩ := h
  have hold : ¬F.Failed app client .cancelled := fun h => hnot (mem_act.mpr (.inr h))
  rcases mem_act.mp hfailed with ⟨happ, hdeed⟩ | hfailed
  · refine .inr ⟨happ, exc, ?_, hdeed.symm⟩
    rintro rfl
    exact hnot (mem_act.mpr (.inl ⟨happ, hdeed⟩))
  · exact .inl ⟨⟨exc, hfailed⟩, hold⟩

theorem isException_of_ne {exc : PyExc} (h : exc ≠ .cancelled) : exc.isException := by
  cases exc with
  | cancelled => exact absurd rfl h
  | _ => rfl

/-- Who fails to start a client takes it out of the field next. -/
theorem broken_of_failed {t : Tid} {mode mode' : Mode} {self self' : KafkaEventProducer}
    {n n' : ClientId} {client : ClientId} {exc : PyExc} (hexc : exc ≠ .cancelled)
    (h : Passage t app mode self n ⟨.startProducer client, .error exc⟩ mode' self' n') :
    mode' = .broken client := by
  cases h with
  | failed => rw [if_pos (isException_of_ne hexc)]
  | aside _ _ _ _ _ hstart => exact absurd rfl (hstart client)

/-- A broken client is still in the field only as long as its task stays where it is. -/
theorem broken_of_passage {t : Tid} {mode' : Mode} {self self' : KafkaEventProducer}
    {n n' : ClientId} {client : ClientId} {deed : Deed}
    (h : Passage t app (.broken client) self n deed mode' self' n')
    (hfield : self'.producer = some client) : mode' = .broken client := by
  cases h with
  | look mode self n hreads => cases hreads
  | lock mode self n hmode | refused mode self n exc hmode =>
      rcases hmode with hmode | hmode <;> cases hmode
  | discard => cases hfield
  | aside => rfl

theorem Mending.act {t : Tid} {mode mode' : Mode} {self' : KafkaEventProducer}
    {clients' : ClientId} {deed : Deed} (h : F.Mending app) (hsound : F.Sound app)
    (htask : F.tasks t = some (app, mode))
    (hp : Passage t app mode (F.self app) F.clients deed mode' self' clients') :
    (F.act t app mode' self' clients' deed).Mending app where
  field := fun client htainted hfield => by
    rw [act_self] at hfield
    have hself : (F.act t app mode' self' clients' deed).tasks t = some (app, mode') :=
      Function.update_self ..
    rcases tainted_act htainted with htainted | ⟨-, exc, hexc, rfl⟩
    · rcases hp.producer_cases hfield with hbefore | rfl
      · obtain ⟨u, hu⟩ := h.field client htainted hbefore
        by_cases hsame : u = t
        · subst hsame
          cases htask.symm.trans hu
          exact ⟨u, hself.trans (by rw [broken_of_passage hp hfield])⟩
        · exact ⟨u, (Function.update_of_ne hsame ..).trans hu⟩
      · exact absurd htainted (h.chosen t _ client htask (.inl rfl))
    · exact ⟨t, hself.trans (by rw [broken_of_failed hexc hp])⟩
  chosen := fun u m client hu hmode htainted => by
    have hlocked : m.locked = true := by rcases hmode with rfl | rfl <;> rfl
    rcases tasks_act hu with ⟨rfl, heq⟩ | ⟨hne, hold⟩
    · cases heq
      -- the task that moved has come to hold a client that may be started
      cases hp with
      | look mode self n hreads =>
          have hfield : (F.self app).producer = some client ∧ mode = .unstarted := by
            generalize F.self app = self at hmode hlocked
            obtain ⟨producer, started, lock⟩ := self
            cases mode <;> cases hreads <;> cases producer <;> cases started <;>
              rcases hmode with hmode | hmode <;> cases hmode <;> exact ⟨rfl, rfl⟩
          obtain ⟨hfield, rfl⟩ := hfield
          rcases tainted_act htainted with htainted | ⟨-, exc, -, hdeed⟩
          · obtain ⟨v, hv⟩ := h.field client htainted hfield
            cases hsound.holder hv htask rfl rfl
            cases htask.symm.trans hv
          · cases hdeed
      | build =>
          rcases hmode with hmode | hmode <;> cases hmode
          rcases tainted_act htainted with ⟨⟨exc, hfailed⟩, -⟩ | ⟨-, exc, -, hdeed⟩
          · exact absurd (hsound.deed _ _ hfailed) (Nat.lt_irrefl _)
          · cases hdeed
      | place =>
          rcases hmode with hmode | hmode <;> cases hmode
          rcases tainted_act htainted with htainted | ⟨-, exc, -, hdeed⟩
          · exact h.chosen u _ client htask (.inl rfl) htainted
          · cases hdeed
      | failed c self n exc =>
          rcases hmode with hmode | hmode <;> cases exc <;> cases hmode
      | unlock started => rcases hmode with hmode | hmode <;> cases started <;> cases hmode
      | aside mode self n op answer hstart =>
          rcases tainted_act htainted with htainted | ⟨-, exc, -, hdeed⟩
          · exact h.chosen u _ client htask hmode htainted
          · cases hdeed
            exact hstart client rfl
      | lock | refused | started | mark | discard | stopped | unstopped =>
          rcases hmode with hmode | hmode <;> cases hmode
    · rcases tainted_act htainted with htainted | ⟨-, exc, -, rfl⟩
      · exact h.chosen u m client hold hmode htainted
      · have hplaced := hp.start_placed
        subst hplaced
        exact hne (hsound.holder hold htask hlocked rfl)

/-- What happens in another process. -/
theorem Mending.elsewhere {t : Tid} {b : Nat} {mode mode' : Mode}
    {self' : KafkaEventProducer} {clients' : ClientId} {deed : Deed}
    (h : F.Mending app) (htask : F.tasks t = some (b, mode)) (hb : app ≠ b) :
    (F.act t b mode' self' clients' deed).Mending app where
  field := fun client htainted hfield => by
    rw [act_self_of_ne hb] at hfield
    have htainted := (tainted_act htainted).resolve_right fun h => hb h.1
    obtain ⟨u, hu⟩ := h.field client htainted hfield
    exact ⟨u, (tasks_elsewhere htask hb).mpr hu⟩
  chosen := fun u m client hu hmode htainted =>
    h.chosen u m client ((tasks_elsewhere htask hb).mp hu) hmode
      ((tainted_act htainted).resolve_right fun h => hb h.1)

theorem Reach.mending (h : Reach may F) : F.Mending app := by
  refine h.induct (P := (Mending · app)) .initial
    (fun hreach ih htask hp => ih.act hreach.sound htask hp)
    (fun hb ih htask _ => ih.elsewhere htask hb) (fun ih hnew hmode _ => ?_)
    fun ih htask hdone => ?_
  · refine ih.put (fun client hold => ?_) fun m heq => by cases heq; exact hmode
    cases hnew.symm.trans hold
  · refine ih.put (fun client hold => ?_) fun m heq => by cases heq
    cases htask.symm.trans hold
    cases hdone

end Fleet

/-! ## All runs -/

/-- `start()` of the client has raised `exc` in a task of process `app`. -/
def StartFailed (state : State) (trace : Trace Op Op.Ans PyExc) (app : Nat)
    (client : ClientId) (exc : PyExc) : Prop :=
  ∃ t, Serves state app t ∧ (t, ⟨.startProducer client, .error exc⟩) ∈ trace

/-- Task `t` of process `app` calls `start()` of the client. -/
def Starting (state : State) (app : Nat) (client : ClientId) (t : Tid) : Prop :=
  Serves state app t ∧ ∃ resume loop,
    state.tasks t = .running (.await (.startProducer client) resume) loop

variable {settings : Settings} {state : State} {trace : Trace Op Op.Ans PyExc}

theorem fleet_of_any (h : (system settings).Run start state trace) :
    ∃ F, Fleet.Reach (fun _ _ _ => True) F ∧ Shows state trace F :=
  @fleet_of_run settings state trace (fun _ => True) (fun _ _ _ => True)
    (fun _ _ _ => trivial) (fun _ _ _ _ _ => trivial) h trivial

/-! ### Runs that can be replayed -/

def startFails (deed : Deed) (exc : PyExc) : Bool :=
  match deed with
  | ⟨.startProducer 0, .error raised⟩ => raised = exc
  | _ => false

theorem eq_of_startFails {deed : Deed} {exc : PyExc} (h : startFails deed exc) :
    deed = ⟨.startProducer 0, .error exc⟩ := by
  unfold startFails at h
  split at h
  next raised => rw [of_decide_eq_true h]
  next => cases h

def startsOther (deed : Deed) : Bool :=
  match deed with
  | ⟨.startProducer client, .error _⟩ => client = 0
  | _ => true

/-- Task `t` is about to call `start()` of client `client`. -/
def aboutToStart (state : State) (t : Tid) (client : ClientId) : Bool :=
  match state.tasks t with
  | .running (.await (.startProducer c) _) _ => c = client
  | _ => false

theorem running_of_aboutToStart {t : Tid} {client : ClientId}
    (h : aboutToStart state t client) : ∃ resume loop,
      state.tasks t = .running (.await (.startProducer client) resume) loop := by
  unfold aboutToStart at h
  split at h
  next c resume loop hrun =>
    cases of_decide_eq_true h
    exact ⟨resume, loop, hrun⟩
  next => cases h

def servesZero (state : State) (t : Tid) : Bool :=
  (state.world.arrivals t).any fun arrival => arrival.entry.app = some 0

theorem serves_of_servesZero {t : Tid} (h : servesZero state t) : Serves state 0 t := by
  obtain ⟨arrival, ha, happ⟩ := (Option.any_eq_true _ _).mp h
  exact ⟨arrival, ha, of_decide_eq_true happ⟩

/-- Task 0 starts the producer, which ends with `exc`. -/
def startEnds (exc : PyExc) : Schedule :=
  [.start 0 (.startProducer 0)] ++ goes 0 6 ++ [.step 0 (.fail exc true)]

/--
A client of which no start was cancelled is not started again once it has failed:
the next attempt builds another.
-/
theorem failed_not_retried (h : (system settings).Run start state trace) {app : Nat}
    {client : ClientId} (hcancelled : ¬StartFailed state trace app client .cancelled)
    {t : Tid} (hstarting : Starting state app client t) (exc : PyExc) :
    ¬StartFailed state trace app client exc := by
  rintro ⟨u, hserves, hmem⟩
  obtain ⟨F, hF, hshows⟩ := fleet_of_any h
  obtain ⟨⟨arrival, ha, happ⟩, resume, loop, hrun⟩ := hstarting
  obtain ⟨mode, htask, hallowed, -⟩ := hshows.follows t _ _ arrival app hrun ha happ
  have hfailed : F.Failed app client exc := (hshows.deeds app _).mpr ⟨u, hserves, hmem⟩
  refine hF.mending.chosen t mode client htask (.inr hallowed)
    ⟨⟨exc, hfailed⟩, fun hcancel => hcancelled ?_⟩
  exact (hshows.deeds app _).mp hcancel

/-- Task 1 then comes to start the producer. -/
def startsNext (operations : Nat) : Schedule :=
  [.start 1 (.outboxPublisher 0)] ++ goes 1 operations

theorem failed_not_retried_refused : ∃ state trace,
    (system defaultSettings).Run start state trace ∧ Starting state 0 1 1 ∧
      ∀ exc, ¬StartFailed state trace 0 1 exc := by
  obtain ⟨⟨state, trace⟩, hreplay, hchecks⟩ := (Option.any_eq_true _ _).mp
    (by decide +kernel : ((system defaultSettings).replay start []
      (startEnds (.kafka (py "refused")) ++ goes 0 2 ++ [.finish 0] ++
        startsNext 7)).any (fun run => servesZero run.1 1 && aboutToStart run.1 1 1 &&
          run.2.all fun deed => startsOther deed.2) = true)
  simp only [Bool.and_eq_true, List.all_eq_true] at hchecks
  obtain ⟨⟨hone, hstarting⟩, hothers⟩ := hchecks
  have hrun := Machine.Run.replay _ .start hreplay
  have hstarts : Starting state 0 1 1 :=
    ⟨serves_of_servesZero hone, running_of_aboutToStart hstarting⟩
  have hnone : ¬StartFailed state trace 0 1 .cancelled := by
    rintro ⟨t, -, hmem⟩
    exact absurd (hothers _ hmem) Bool.false_ne_true
  exact ⟨state, trace, hrun, hstarts, failed_not_retried hrun hnone hstarts⟩

/-- The start in `lifespan` is cancelled, and the publisher starts the same client. -/
theorem failed_retried : ¬∀ (settings : Settings) (state : State)
    (trace : Trace Op Op.Ans PyExc), (system settings).Run start state trace →
      ∀ app client t exc, Starting state app client t →
        ¬StartFailed state trace app client exc := by
  intro h
  obtain ⟨⟨state, trace⟩, hreplay, hchecks⟩ := (Option.any_eq_true _ _).mp
    (by decide +kernel : ((system defaultSettings).replay start []
      (startEnds .cancelled ++ goes 0 1 ++ [.finish 0] ++ startsNext 6)).any
        (fun run => servesZero run.1 0 && servesZero run.1 1 &&
          aboutToStart run.1 1 0 &&
          run.2.any fun deed => deed.1 = 0 && startFails deed.2 .cancelled) = true)
  simp only [Bool.and_eq_true] at hchecks
  obtain ⟨⟨⟨hzero, hone⟩, hstarting⟩, hfails⟩ := hchecks
  obtain ⟨⟨t, deed⟩, hmem, hdeed⟩ := List.any_eq_true.mp hfails
  simp only [Bool.and_eq_true, decide_eq_true_eq] at hdeed
  obtain ⟨rfl, hcancelled⟩ := hdeed
  cases eq_of_startFails hcancelled
  exact h defaultSettings state trace (Machine.Run.replay _ .start hreplay) 0 0 1
    .cancelled ⟨serves_of_servesZero hone, running_of_aboutToStart hstarting⟩
    ⟨0, serves_of_servesZero hzero, hmem⟩

end PhotoAnalysis

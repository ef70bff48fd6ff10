import PhotoAnalysis.Foundation.Pool

/-!
# Invariants of interleaved tasks

Rely and guarantee, for the programs of `Foundation.Program`.  A discipline
names a global invariant, what one task may do to the world, and what a task
may expect of all the others.  A task is `Safe` when each of its operations
keeps its guarantee, whatever the others do in between.  When every task is
safe from its start, the invariant holds in every pool any schedule reaches.
-/

namespace PhotoAnalysis.Foundation

variable {Op : Type} {Ans : Op → Type}
variable {Exc Entry Reply Choice External World α β : Type}

/--
`guar tid` bounds what task `tid` does in one step, `rely tid` what can happen
to it between two of its steps.
-/
structure Discipline (World : Type) where
  inv : World → Prop
  guar : Tid → World → World → Prop
  rely : Tid → World → World → Prop
  rely_refl : ∀ tid w, rely tid w w
  rely_trans : ∀ {tid a b c}, rely tid a b → rely tid b c → rely tid a c
  inv_of_guar : ∀ {tid w w'}, inv w → guar tid w w' → inv w'
  rely_of_guar : ∀ {tid other w w'}, inv w → guar tid w w' → other ≠ tid →
    rely other w w'

namespace Discipline

variable (d : Discipline World)

/-- An assertion that no other task can falsify. -/
def Steady (tid : Tid) (P : World → Prop) : Prop :=
  ∀ ⦃w w'⦄, d.rely tid w w' → d.inv w' → P w → P w'

/-- `P` holds now and after anything the other tasks do. -/
def Settles (tid : Tid) (P : World → Prop) (w : World) : Prop :=
  ∀ w', d.rely tid w w' → d.inv w' → P w'

theorem Settles.later {tid : Tid} {P : World → Prop} {w w' : World}
    (h : d.Settles tid P w) (hr : d.rely tid w w') : d.Settles tid P w' :=
  fun w'' hr' => h w'' (d.rely_trans hr hr')

theorem Settles.now {tid : Tid} {P : World → Prop} {w : World}
    (h : d.Settles tid P w) (hi : d.inv w) : P w :=
  h w (d.rely_refl tid w) hi

variable (perform : Tid → (op : Op) → Choice → World →
  Option (Except Exc (Ans op) × World))

/--
From `w`, task `tid` can run `program` to its end, each operation within its
guarantee, and `post` holds of the outcome.
-/
def Safe (tid : Tid) (post : Except Exc α → World → Prop) :
    Program Op Ans Exc α → World → Prop
  | .ret value, w => post (.ok value) w
  | .raise exc, w => post (.error exc) w
  | .await op resume, w =>
      ∀ choice answer w', perform tid op choice w = some (answer, w') →
        d.guar tid w w' ∧
          ∀ w'', d.rely tid w' w'' → d.inv w'' → Safe tid post (resume answer) w''

variable {perform}

theorem safe_mono {tid : Tid} {post post' : Except Exc α → World → Prop}
    (hpost : ∀ outcome w, post outcome w → post' outcome w)
    {program : Program Op Ans Exc α} {w : World}
    (h : d.Safe perform tid post program w) :
    d.Safe perform tid post' program w := by
  induction program generalizing w with
  | ret value => exact hpost _ _ h
  | raise exc => exact hpost _ _ h
  | await op resume ih =>
      intro choice answer w' hw
      obtain ⟨hguar, hrest⟩ := h choice answer w' hw
      exact ⟨hguar, fun w'' hr hi => ih answer (hrest w'' hr hi)⟩

theorem safe_congr {tid : Tid} {post post' : Except Exc α → World → Prop}
    (hpost : ∀ outcome w, post outcome w ↔ post' outcome w)
    {program : Program Op Ans Exc α} {w : World} :
    d.Safe perform tid post program w ↔ d.Safe perform tid post' program w :=
  ⟨d.safe_mono fun outcome w => (hpost outcome w).mp,
    d.safe_mono fun outcome w => (hpost outcome w).mpr⟩

theorem safe_bind {tid : Tid} {post : Except Exc β → World → Prop}
    {program : Program Op Ans Exc α} {next : α → Program Op Ans Exc β}
    {w : World} :
    d.Safe perform tid post (program.bind next) w ↔
      d.Safe perform tid
        (fun outcome w => match outcome with
          | .ok value => d.Safe perform tid post (next value) w
          | .error exc => post (.error exc) w) program w := by
  induction program generalizing w with
  | ret value => exact Iff.rfl
  | raise exc => exact Iff.rfl
  | await op resume ih =>
      simp only [Program.bind, Safe]
      exact forall₃_congr fun choice answer w' => imp_congr_right fun _ =>
        and_congr_right fun _ => forall₃_congr fun w'' _ _ => ih answer

theorem safe_attempt {tid : Tid}
    {post : Except Exc (Except Exc α) → World → Prop}
    {program : Program Op Ans Exc α} {w : World} :
    d.Safe perform tid post program.attempt w ↔
      d.Safe perform tid (fun outcome => post (.ok outcome)) program w := by
  induction program generalizing w with
  | ret value => exact Iff.rfl
  | raise exc => exact Iff.rfl
  | await op resume ih =>
      simp only [Program.attempt, Safe]
      exact forall₃_congr fun choice answer w' => imp_congr_right fun _ =>
        and_congr_right fun _ => forall₃_congr fun w'' _ _ => ih answer

theorem safe_call {tid : Tid} {op : Op}
    {post : Except Exc (Ans op) → World → Prop} {w : World} :
    d.Safe perform tid post (Program.call op) w ↔
      ∀ choice answer w', perform tid op choice w = some (answer, w') →
        d.guar tid w w' ∧ d.Settles tid (post answer) w' := by
  simp only [Program.call, Safe, Settles]
  refine forall₃_congr fun choice answer w' => imp_congr_right fun _ =>
    and_congr_right fun _ => forall₃_congr fun w'' _ _ => ?_
  cases answer <;> exact Iff.rfl

theorem safe_tryExcept {tid : Tid} {post : Except Exc α → World → Prop}
    {body : Program Op Ans Exc α} {catcher : Exc → Program Op Ans Exc α}
    {w : World} :
    d.Safe perform tid post (body.tryExcept catcher) w ↔
      d.Safe perform tid
        (fun outcome w => match outcome with
          | .ok value => post (.ok value) w
          | .error exc => d.Safe perform tid post (catcher exc) w) body w := by
  simp only [Program.tryExcept, safe_bind, safe_attempt]
  refine d.safe_congr fun outcome w => ?_
  cases outcome <;> exact Iff.rfl

theorem safe_ofExcept {tid : Tid} {post : Except Exc α → World → Prop}
    {outcome : Except Exc α} {w : World} :
    d.Safe perform tid post (Program.ofExcept outcome) w ↔ post outcome w := by
  cases outcome <;> exact Iff.rfl

theorem safe_tryFinally {tid : Tid} {post : Except Exc α → World → Prop}
    {body : Program Op Ans Exc α} {last : Program Op Ans Exc Unit} {w : World} :
    d.Safe perform tid post (body.tryFinally last) w ↔
      d.Safe perform tid
        (fun outcome => d.Safe perform tid
          (fun closing w => match closing with
            | .ok _ => post outcome w
            | .error exc => post (.error exc) w) last) body w := by
  simp only [Program.tryFinally, safe_bind, safe_attempt, safe_ofExcept]
  refine d.safe_congr fun outcome w => d.safe_congr fun closing w => ?_
  cases closing <;> exact Iff.rfl

/-! ## Soundness over schedules -/

variable (m : Machine Op Ans Exc Entry Reply Choice External World)

/-- What the end of one turn of a task's loop has to leave behind. -/
def TurnPost (tid : Tid) (L : World → Prop) :
    Except Exc (Option Reply) → World → Prop
  | .ok none, w => L w
  | .ok (some reply), w => d.guar tid w (m.closed tid (some (.ok reply)) w)
  | .error exc, w => d.guar tid w (m.closed tid (some (.error exc)) w)

/-- A running task: some assertion `L` holds whenever its loop starts again. -/
def SafeTask (tid : Tid) (now loop : Program Op Ans Exc (Option Reply))
    (w : World) : Prop :=
  ∃ L : World → Prop, d.Steady tid L ∧
    (∀ w, d.inv w → L w → d.Safe m.perform tid (d.TurnPost m tid L) loop w) ∧
    d.Settles tid (d.Safe m.perform tid (d.TurnPost m tid L) now) w

/--
The obligations on a machine.  `idle tid` is what holds of a world in which a
task has not started yet, `busy tid` what holds of one in which it runs.
-/
structure Upholds (idle busy : Tid → World → Prop) : Prop where
  idle_steady : ∀ tid, d.Steady tid (idle tid)
  busy_steady : ∀ tid, d.Steady tid (busy tid)
  busy_step : ∀ tid op choice w answer w', busy tid w →
    m.perform tid op choice w = some (answer, w') → busy tid w'
  start : ∀ tid entry w, d.inv w → idle tid w →
    d.guar tid w (m.opened tid entry w) ∧ busy tid (m.opened tid entry w) ∧
      d.SafeTask m tid (m.routine entry).first (m.routine entry).loop
        (m.opened tid entry w)
  crash : ∀ tid w, d.inv w → busy tid w → d.guar tid w (m.closed tid none w)
  external : ∀ event w, d.inv w → d.inv (m.external event w) ∧
    ∀ tid, d.rely tid w (m.external event w)

def SafeState (idle busy : Tid → World → Prop) (w : World) (tid : Tid) :
    TaskState Op Ans Exc Reply → Prop
  | .fresh => idle tid w
  | .running now loop => busy tid w ∧ d.SafeTask m tid now loop w
  | .ended => True

structure SafePool (idle busy : Tid → World → Prop)
    (pool : Pool Op Ans Exc Reply World) : Prop where
  inv : d.inv pool.world
  tasks : ∀ tid, d.SafeState m idle busy pool.world tid (pool.tasks tid)

/-- One step of a schedule: either some task's guarantee or an outside event. -/
inductive Motion : World → World → Prop
  | task {w w'} (tid : Tid) (h : d.guar tid w w') : Motion w w'
  | outside (event : External) (w) : Motion w (m.external event w)
  | still (w) : Motion w w

variable {d m} {idle busy : Tid → World → Prop}

theorem SafeTask.later {tid : Tid}
    {now loop : Program Op Ans Exc (Option Reply)} {w w' : World}
    (h : d.SafeTask m tid now loop w) (hr : d.rely tid w w') :
    d.SafeTask m tid now loop w' := by
  obtain ⟨L, hsteady, hloop, hnow⟩ := h
  exact ⟨L, hsteady, hloop, hnow.later d hr⟩

theorem SafeState.later (hm : d.Upholds m idle busy) {tid : Tid}
    {state : TaskState Op Ans Exc Reply} {w w' : World}
    (h : d.SafeState m idle busy w tid state) (hr : d.rely tid w w')
    (hi : d.inv w') : d.SafeState m idle busy w' tid state := by
  cases state with
  | fresh => exact hm.idle_steady tid hr hi h
  | running now loop =>
      exact ⟨hm.busy_steady tid hr hi h.1, SafeTask.later h.2 hr⟩
  | ended => trivial

/-- A step within the guarantee of `tid` leaves every other task safe. -/
theorem SafePool.move (hm : d.Upholds m idle busy)
    {pool : Pool Op Ans Exc Reply World} (h : d.SafePool m idle busy pool)
    {tid : Tid} {w' : World} {state : TaskState Op Ans Exc Reply}
    (hguar : d.guar tid pool.world w')
    (hstate : d.SafeState m idle busy w' tid state) :
    d.SafePool m idle busy (pool.set w' tid state) := by
  have hi : d.inv w' := d.inv_of_guar h.inv hguar
  refine ⟨hi, fun other => ?_⟩
  by_cases hne : other = tid
  · subst hne
    simpa using hstate
  · rw [Pool.set_tasks_of_ne _ _ _ hne, Pool.set_world]
    exact (h.tasks other).later hm (d.rely_of_guar h.inv hguar hne) hi

theorem SafePool.next (hm : d.Upholds m idle busy)
    {pool pool' : Pool Op Ans Exc Reply World}
    {label : Label Entry Choice External} (h : d.SafePool m idle busy pool)
    (hnext : m.next pool label = some pool') :
    d.SafePool m idle busy pool' ∧ d.Motion m pool.world pool'.world := by
  cases label with
  | start tid entry =>
      simp only [Machine.next] at hnext
      have ht := h.tasks tid
      split at hnext
      next hfresh =>
        cases hnext
        rw [hfresh] at ht
        obtain ⟨hguar, hbusy, htask⟩ := hm.start tid entry pool.world h.inv ht
        exact ⟨h.move hm hguar ⟨hbusy, htask⟩, .task tid hguar⟩
      next => cases hnext
  | step tid choice =>
      simp only [Machine.next] at hnext
      have ht := h.tasks tid
      split at hnext
      next op resume loop hrun =>
        split at hnext
        next answer w' hperform =>
          cases hnext
          rw [hrun] at ht
          obtain ⟨hbusy, L, hsteady, hloop, hnow⟩ := ht
          obtain ⟨hguar, hrest⟩ :=
            hnow.now d h.inv choice answer w' hperform
          have hbusy' := hm.busy_step _ _ _ _ _ _ hbusy hperform
          exact ⟨h.move hm hguar ⟨hbusy', L, hsteady, hloop, hrest⟩,
            .task tid hguar⟩
        next => cases hnext
      next => cases hnext
  | again tid =>
      simp only [Machine.next] at hnext
      have ht := h.tasks tid
      split at hnext
      next loop hrun =>
        cases hnext
        rw [hrun] at ht
        obtain ⟨hbusy, L, hsteady, hloop, hnow⟩ := ht
        refine ⟨⟨h.inv, fun other => ?_⟩, .still _⟩
        by_cases hne : other = tid
        · subst hne
          rw [Pool.set_tasks_self]
          exact ⟨hbusy, L, hsteady, hloop, fun w' hr hi =>
            hloop w' hi (hnow w' hr hi)⟩
        · rw [Pool.set_tasks_of_ne _ _ _ hne]
          exact h.tasks other
      next => cases hnext
  | finish tid =>
      simp only [Machine.next] at hnext
      have ht := h.tasks tid
      split at hnext
      next reply loop hrun =>
        cases hnext
        rw [hrun] at ht
        obtain ⟨-, L, -, -, hnow⟩ := ht
        have hguar := hnow.now d h.inv
        exact ⟨h.move hm hguar trivial, .task tid hguar⟩
      next exc loop hrun =>
        cases hnext
        rw [hrun] at ht
        obtain ⟨-, L, -, -, hnow⟩ := ht
        have hguar := hnow.now d h.inv
        exact ⟨h.move hm hguar trivial, .task tid hguar⟩
      next => cases hnext
  | crash tid =>
      simp only [Machine.next] at hnext
      have ht := h.tasks tid
      split at hnext
      next now loop hrun =>
        cases hnext
        rw [hrun] at ht
        have hguar := hm.crash tid pool.world h.inv ht.1
        exact ⟨h.move hm hguar trivial, .task tid hguar⟩
      next => cases hnext
  | external event =>
      simp only [Machine.next, Option.some.injEq] at hnext
      subst hnext
      obtain ⟨hi, hrely⟩ := hm.external event pool.world h.inv
      exact ⟨⟨hi, fun tid => (h.tasks tid).later hm (hrely tid) hi⟩,
        .outside event _⟩

theorem SafePool.initial {world : World} (hi : d.inv world)
    (hidle : ∀ tid, idle tid world) :
    d.SafePool m idle busy (Pool.initial world) :=
  ⟨hi, hidle⟩

theorem SafePool.leads (hm : d.Upholds m idle busy)
    {pool pool' : Pool Op Ans Exc Reply World} (h : d.SafePool m idle busy pool)
    (hlead : m.Leads pool pool') : d.SafePool m idle busy pool' :=
  hlead.induct m (P := d.SafePool m idle busy)
    (fun _ _ _ hp hn => (SafePool.next hm hp hn).1) h

/--
What every motion between two safe worlds preserves still holds at the end of
any schedule.
-/
theorem SafePool.preserve (hm : d.Upholds m idle busy) {P : World → Prop}
    (hP : ∀ w w', d.inv w → d.inv w' → d.Motion m w w' → P w → P w')
    {pool pool' : Pool Op Ans Exc Reply World} (h : d.SafePool m idle busy pool)
    (hlead : m.Leads pool pool') (hp : P pool.world) : P pool'.world := by
  have hboth : d.SafePool m idle busy pool' ∧ P pool'.world :=
    hlead.induct m (P := fun pool => d.SafePool m idle busy pool ∧ P pool.world)
      (fun a label b hab hn => by
        obtain ⟨hsafe, hmotion⟩ := SafePool.next hm hab.1 hn
        exact ⟨hsafe, hP _ _ hab.1.inv hsafe.inv hmotion hab.2⟩) ⟨h, hp⟩
  exact hboth.2

end Discipline

end PhotoAnalysis.Foundation

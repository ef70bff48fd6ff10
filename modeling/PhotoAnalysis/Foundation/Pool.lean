import Mathlib.Logic.Function.Basic
import PhotoAnalysis.Foundation.Program

/-!
# Pools of interleaved tasks

Any number of tasks run their programs over one shared world.  A schedule is a
list of labels: it says which task takes its next step, how the environment
resolves that step, which task starts, goes round its loop, ends or dies at
the operation it waits for.  Everything that can happen in a system of
concurrent tasks is some schedule.
-/

namespace PhotoAnalysis.Foundation

abbrev Tid := Nat

variable {Op : Type} {Ans : Op → Type}
variable {Exc Entry Reply Choice External World : Type}

/--
The code of a task.  A turn that ends with `none` goes round the task's loop
once more; one that ends with a reply ends the task.
-/
structure Routine (Op : Type) (Ans : Op → Type) (Exc Reply : Type) where
  first : Program Op Ans Exc (Option Reply)
  loop : Program Op Ans Exc (Option Reply)

/--
What the tasks run and what the world does with it.  `perform` is partial: an
operation that has to wait has no answer yet.  `opened` and `closed` record a
task's start and its end; a task that died has no outcome.
-/
structure Machine (Op : Type) (Ans : Op → Type)
    (Exc Entry Reply Choice External World : Type) where
  routine : Entry → Routine Op Ans Exc Reply
  perform : Tid → (op : Op) → Choice → World →
    Option (Except Exc (Ans op) × World)
  opened : Tid → Entry → World → World
  closed : Tid → Option (Except Exc Reply) → World → World
  external : External → World → World

inductive TaskState (Op : Type) (Ans : Op → Type) (Exc Reply : Type) where
  | fresh
  | running (now loop : Program Op Ans Exc (Option Reply))
  | ended

structure Pool (Op : Type) (Ans : Op → Type) (Exc Reply World : Type) where
  world : World
  tasks : Tid → TaskState Op Ans Exc Reply

inductive Label (Entry Choice External : Type) where
  | start (tid : Tid) (entry : Entry)
  | step (tid : Tid) (choice : Choice)
  | again (tid : Tid)
  | finish (tid : Tid)
  | crash (tid : Tid)
  | external (event : External)
  deriving Repr

namespace Pool

def initial (world : World) : Pool Op Ans Exc Reply World :=
  ⟨world, fun _ => .fresh⟩

def set (pool : Pool Op Ans Exc Reply World) (world : World) (tid : Tid)
    (state : TaskState Op Ans Exc Reply) : Pool Op Ans Exc Reply World :=
  ⟨world, Function.update pool.tasks tid state⟩

@[simp] theorem set_world (pool : Pool Op Ans Exc Reply World) (world : World)
    (tid : Tid) (state : TaskState Op Ans Exc Reply) :
    (pool.set world tid state).world = world := rfl

@[simp] theorem set_tasks_self (pool : Pool Op Ans Exc Reply World)
    (world : World) (tid : Tid) (state : TaskState Op Ans Exc Reply) :
    (pool.set world tid state).tasks tid = state := by
  simp [set]

theorem set_tasks_of_ne (pool : Pool Op Ans Exc Reply World) (world : World)
    {tid other : Tid} (state : TaskState Op Ans Exc Reply) (h : other ≠ tid) :
    (pool.set world tid state).tasks other = pool.tasks other := by
  simp [set, h]

/-- The task that moved, or one that stayed where it was. -/
theorem running_of_set {pool : Pool Op Ans Exc Reply World} {world : World}
    {tid other : Tid} {state : TaskState Op Ans Exc Reply}
    {now loop : Program Op Ans Exc (Option Reply)}
    (h : (pool.set world tid state).tasks other = .running now loop) :
    other = tid ∧ state = .running now loop ∨
      other ≠ tid ∧ pool.tasks other = .running now loop := by
  by_cases hother : other = tid
  · subst hother
    exact .inl ⟨rfl, (set_tasks_self ..).symm.trans h⟩
  · exact .inr ⟨hother, (set_tasks_of_ne _ _ _ hother).symm.trans h⟩

end Pool

namespace Machine

variable (m : Machine Op Ans Exc Entry Reply Choice External World)

def next (pool : Pool Op Ans Exc Reply World) :
    Label Entry Choice External → Option (Pool Op Ans Exc Reply World)
  | .start tid entry =>
      match pool.tasks tid with
      | .fresh => some (pool.set (m.opened tid entry pool.world) tid
          (.running (m.routine entry).first (m.routine entry).loop))
      | _ => none
  | .step tid choice =>
      match pool.tasks tid with
      | .running (.await op resume) loop =>
          match m.perform tid op choice pool.world with
          | some (answer, world) =>
              some (pool.set world tid (.running (resume answer) loop))
          | none => none
      | _ => none
  | .again tid =>
      match pool.tasks tid with
      | .running (.ret none) loop =>
          some (pool.set pool.world tid (.running loop loop))
      | _ => none
  | .finish tid =>
      match pool.tasks tid with
      | .running (.ret (some reply)) _ =>
          some (pool.set (m.closed tid (some (.ok reply)) pool.world) tid .ended)
      | .running (.raise exc) _ =>
          some (pool.set (m.closed tid (some (.error exc)) pool.world) tid .ended)
      | _ => none
  | .crash tid =>
      match pool.tasks tid with
      | .running _ _ => some (pool.set (m.closed tid none pool.world) tid .ended)
      | _ => none
  | .external event => some { pool with world := m.external event pool.world }

/-- What each label asks of the pool it is taken in, and where it leads. -/
inductive Goes (pool : Pool Op Ans Exc Reply World) :
    Label Entry Choice External → Pool Op Ans Exc Reply World → Prop where
  | start (tid : Tid) (entry : Entry) (htask : pool.tasks tid = .fresh) :
      Goes pool (.start tid entry) (pool.set (m.opened tid entry pool.world) tid
        (.running (m.routine entry).first (m.routine entry).loop))
  | step (tid : Tid) (choice : Choice) (op : Op)
      (resume : Except Exc (Ans op) → Program Op Ans Exc (Option Reply))
      (loop : Program Op Ans Exc (Option Reply)) (answer : Except Exc (Ans op))
      (world : World) (htask : pool.tasks tid = .running (.await op resume) loop)
      (hperform : m.perform tid op choice pool.world = some (answer, world)) :
      Goes pool (.step tid choice) (pool.set world tid (.running (resume answer) loop))
  | again (tid : Tid) (loop : Program Op Ans Exc (Option Reply))
      (htask : pool.tasks tid = .running (.ret none) loop) :
      Goes pool (.again tid) (pool.set pool.world tid (.running loop loop))
  | returned (tid : Tid) (reply : Reply) (loop : Program Op Ans Exc (Option Reply))
      (htask : pool.tasks tid = .running (.ret (some reply)) loop) :
      Goes pool (.finish tid)
        (pool.set (m.closed tid (some (.ok reply)) pool.world) tid .ended)
  | raised (tid : Tid) (exc : Exc) (loop : Program Op Ans Exc (Option Reply))
      (htask : pool.tasks tid = .running (.raise exc) loop) :
      Goes pool (.finish tid)
        (pool.set (m.closed tid (some (.error exc)) pool.world) tid .ended)
  | crash (tid : Tid) (now loop : Program Op Ans Exc (Option Reply))
      (htask : pool.tasks tid = .running now loop) :
      Goes pool (.crash tid) (pool.set (m.closed tid none pool.world) tid .ended)
  | external (event : External) :
      Goes pool (.external event) { pool with world := m.external event pool.world }

theorem goes_of_next {pool pool' : Pool Op Ans Exc Reply World}
    {label : Label Entry Choice External} (h : m.next pool label = some pool') :
    m.Goes pool label pool' := by
  cases label with
  | start tid entry =>
      simp only [next] at h
      split at h
      next htask =>
        cases h
        exact .start tid entry htask
      next => cases h
  | step tid choice =>
      simp only [next] at h
      split at h
      next op resume loop htask =>
        split at h
        next answer world hperform =>
          cases h
          exact .step tid choice op resume loop answer world htask hperform
        next => cases h
      next => cases h
  | again tid =>
      simp only [next] at h
      split at h
      next loop htask =>
        cases h
        exact .again tid loop htask
      next => cases h
  | finish tid =>
      simp only [next] at h
      split at h
      next reply loop htask =>
        cases h
        exact .returned tid reply loop htask
      next exc loop htask =>
        cases h
        exact .raised tid exc loop htask
      next => cases h
  | crash tid =>
      simp only [next] at h
      split at h
      next now loop htask =>
        cases h
        exact .crash tid now loop htask
      next => cases h
  | external event =>
      cases h
      exact .external event

/-- Follow a schedule; `none` when some label is not possible where it stands. -/
def follow (pool : Pool Op Ans Exc Reply World) :
    List (Label Entry Choice External) → Option (Pool Op Ans Exc Reply World)
  | [] => some pool
  | label :: schedule => (m.next pool label).bind fun pool' => follow pool' schedule

/-- Some schedule leads from one pool to another. -/
def Leads (pool pool' : Pool Op Ans Exc Reply World) : Prop :=
  ∃ schedule, m.follow pool schedule = some pool'

theorem follow_append (pool : Pool Op Ans Exc Reply World)
    (first last : List (Label Entry Choice External)) :
    m.follow pool (first ++ last) =
      (m.follow pool first).bind fun pool' => m.follow pool' last := by
  induction first generalizing pool with
  | nil => rfl
  | cons label schedule ih =>
      simp only [List.cons_append, follow]
      cases m.next pool label with
      | none => rfl
      | some pool' => exact ih pool'

theorem Leads.trans {a b c : Pool Op Ans Exc Reply World}
    (hab : m.Leads a b) (hbc : m.Leads b c) : m.Leads a c := by
  obtain ⟨first, hfirst⟩ := hab
  obtain ⟨last, hlast⟩ := hbc
  exact ⟨first ++ last, by rw [follow_append, hfirst]; exact hlast⟩

/-- What every single step of a schedule preserves, the whole schedule preserves. -/
theorem Leads.induct {P : Pool Op Ans Exc Reply World → Prop}
    (hstep : ∀ pool label pool', P pool → m.next pool label = some pool' → P pool')
    {a b : Pool Op Ans Exc Reply World} (h : m.Leads a b) (ha : P a) : P b := by
  obtain ⟨schedule, hfollow⟩ := h
  induction schedule generalizing a with
  | nil =>
      cases hfollow
      exact ha
  | cons label schedule ih =>
      simp only [follow, Option.bind_eq_some_iff] at hfollow
      obtain ⟨middle, hnext, hrest⟩ := hfollow
      exact ih (hstep a label middle ha hnext) hrest

/-! ## Fewer choices -/

/-- The machine whose operations go only in the ways that `admits` lets through. -/
def restrict (admits : Tid → Op → Choice → Bool) :
    Machine Op Ans Exc Entry Reply Choice External World :=
  { m with perform := fun tid op choice world =>
      if admits tid op choice then m.perform tid op choice world else none }

variable {m} {admits : Tid → Op → Choice → Bool}

theorem perform_of_restrict {tid : Tid} {op : Op} {choice : Choice} {world : World}
    {result : Except Exc (Ans op) × World}
    (h : (m.restrict admits).perform tid op choice world = some result) :
    admits tid op choice = true ∧ m.perform tid op choice world = some result := by
  simp only [restrict] at h
  split at h
  next hadmits => exact ⟨hadmits, h⟩
  next => cases h

theorem next_of_restrict {pool pool' : Pool Op Ans Exc Reply World}
    {label : Label Entry Choice External}
    (h : (m.restrict admits).next pool label = some pool') :
    m.next pool label = some pool' := by
  cases label with
  | step tid choice =>
      simp only [next] at h ⊢
      split at h
      next op resume loop htask =>
        split at h
        next answer world hperform =>
          cases h
          simp only [(perform_of_restrict hperform).2]
        next => cases h
      next => cases h
  | _ => exact h

end Machine

end PhotoAnalysis.Foundation

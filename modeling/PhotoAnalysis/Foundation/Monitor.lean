import PhotoAnalysis.Foundation.Protocol

/-!
# Monitored pools

Every task of a pool follows a protocol.  The mode it is in tells something about the
world that the other tasks leave true.
-/

namespace PhotoAnalysis.Foundation

variable {Op : Type} {Ans : Op → Type}
variable {Exc Entry Reply Choice External World Mode : Type}

/-- The task whose state a label changes. -/
def Label.task : Label Entry Choice External → Option Tid
  | .start tid _ | .step tid _ | .again tid | .finish tid | .crash tid => some tid
  | .external _ => none

/-- `between` tells in which modes a task may go round its loop. -/
structure Monitor (Op : Type) (Ans : Op → Type) (Exc Entry World Mode : Type) where
  protocol : Protocol Op Ans Exc Mode
  first : Entry → Mode
  between : Entry → Mode → Prop
  means : Tid → Mode → World → Prop

namespace Monitor

variable (monitor : Monitor Op Ans Exc Entry World Mode)

/-- How a turn may end. -/
def Leaves (entry : Entry) : Except Exc (Option Reply) → Mode → Prop
  | .ok none, mode => monitor.between entry mode
  | _, _ => True

/-- Where a task stands. -/
def Watches (world : World) (tid : Tid) : TaskState Op Ans Exc Reply → Prop
  | .running now loop => ∃ entry mode,
      now.Follows monitor.protocol (monitor.Leaves entry) mode ∧
      (∀ mode, monitor.between entry mode →
        loop.Follows monitor.protocol (monitor.Leaves entry) mode) ∧
      monitor.means tid mode world
  | _ => True

/--
The routines follow the protocol, and in `valid` pools what the modes tell is true.
-/
structure Sound (m : Machine Op Ans Exc Entry Reply Choice External World)
    (valid : Pool Op Ans Exc Reply World → Prop) : Prop where
  start : ∀ entry, (m.routine entry).first.Follows monitor.protocol
    (monitor.Leaves entry) (monitor.first entry)
  loop : ∀ entry mode, monitor.between entry mode →
    (m.routine entry).loop.Follows monitor.protocol (monitor.Leaves entry) mode
  opened : ∀ {pool tid entry}, valid pool → pool.tasks tid = .fresh →
    monitor.means tid (monitor.first entry) (m.opened tid entry pool.world)
  step : ∀ {pool tid mode op choice answer world}, valid pool →
    monitor.means tid mode pool.world → monitor.protocol.allowed mode op →
    m.perform tid op choice pool.world = some (answer, world) →
    ∃ mode', monitor.protocol.next mode op answer = some mode' ∧
      monitor.means tid mode' world
  aside : ∀ {pool label pool' tid mode}, valid pool → m.next pool label = some pool' →
    label.task ≠ some tid → monitor.means tid mode pool.world →
    monitor.means tid mode pool'.world

variable {monitor} {m : Machine Op Ans Exc Entry Reply Choice External World}
variable {valid : Pool Op Ans Exc Reply World → Prop}

theorem Sound.next (h : monitor.Sound m valid) {pool pool' : Pool Op Ans Exc Reply World}
    {label : Label Entry Choice External} (hvalid : valid pool)
    (hpool : ∀ tid, monitor.Watches pool.world tid (pool.tasks tid))
    (hnext : m.next pool label = some pool') (tid : Tid) :
    monitor.Watches pool'.world tid (pool'.tasks tid) := by
  have hother : label.task ≠ some tid → pool'.tasks tid = pool.tasks tid →
      monitor.Watches pool'.world tid (pool'.tasks tid) := by
    intro htask hsame
    have hold := hpool tid
    rw [hsame]
    cases hstate : pool.tasks tid with
    | fresh | ended => trivial
    | running now loop =>
        rw [hstate] at hold
        obtain ⟨entry, mode, hnow, hloop, hmeans⟩ := hold
        exact ⟨entry, mode, hnow, hloop, h.aside hvalid hnext htask hmeans⟩
  by_cases htask : label.task = some tid
  · cases m.goes_of_next hnext with
    | start t entry hfresh =>
        obtain rfl := Option.some.inj htask
        rw [Pool.set_tasks_self, Pool.set_world]
        exact ⟨entry, _, h.start entry, h.loop entry, h.opened hvalid hfresh⟩
    | step t choice op resume loop answer world hrunning hperform =>
        obtain rfl := Option.some.inj htask
        have hold := hpool t
        rw [hrunning] at hold
        obtain ⟨entry, mode, ⟨hallowed, hresume⟩, hloop, hmeans⟩ := hold
        obtain ⟨mode', hmode, hmeans'⟩ := h.step hvalid hmeans hallowed hperform
        rw [Pool.set_tasks_self, Pool.set_world]
        exact ⟨entry, mode', hresume answer mode' hmode, hloop, hmeans'⟩
    | again t loop hrunning =>
        obtain rfl := Option.some.inj htask
        have hold := hpool t
        rw [hrunning] at hold
        obtain ⟨entry, mode, hbetween, hloop, hmeans⟩ := hold
        rw [Pool.set_tasks_self, Pool.set_world]
        exact ⟨entry, mode, hloop mode hbetween, hloop, hmeans⟩
    | returned t reply loop hrunning | raised t exc loop hrunning
    | crash t now loop hrunning =>
        obtain rfl := Option.some.inj htask
        rw [Pool.set_tasks_self]
        trivial
    | external event => cases htask
  · refine hother htask ?_
    cases m.goes_of_next hnext with
    | external event => rfl
    | start t | step t | again t | returned t | raised t | crash t =>
        exact Pool.set_tasks_of_ne _ _ _ fun heq => htask (congrArg some heq.symm)

/-- In every pool a schedule leads to, what the modes tell is true. -/
theorem Sound.leads (h : monitor.Sound m valid) {pool pool' : Pool Op Ans Exc Reply World}
    (hvalid : ∀ middle, m.Leads pool middle → valid middle)
    (hpool : ∀ tid, monitor.Watches pool.world tid (pool.tasks tid))
    (hlead : m.Leads pool pool') (tid : Tid) :
    monitor.Watches pool'.world tid (pool'.tasks tid) := by
  refine (hlead.induct m (P := fun middle => m.Leads pool middle ∧
    ∀ tid, monitor.Watches middle.world tid (middle.tasks tid)) ?_
      ⟨⟨[], rfl⟩, hpool⟩).2 tid
  rintro middle label pool'' ⟨hreach, hwatch⟩ hnext
  exact ⟨hreach.trans m ⟨[label], by simp [Machine.follow, hnext]⟩,
    h.next (hvalid middle hreach) hwatch hnext⟩

end Monitor

end PhotoAnalysis.Foundation

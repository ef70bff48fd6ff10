import PhotoAnalysis.Foundation.Protocol

/-!
# Machines that carry their record

The record of a run as a part of the world, so that what holds of every pool of a
machine can also be about the answers it got.  The run itself is the same.
-/

namespace PhotoAnalysis.Foundation

variable {Op : Type} {Ans : Op → Type}
variable {Exc Entry Reply Choice External World : Type}

/-- A pool whose world carries a record. -/
def Pool.beside (pool : Pool Op Ans Exc Reply World) (trace : Trace Op Ans Exc) :
    Pool Op Ans Exc Reply (World × Trace Op Ans Exc) :=
  ⟨(pool.world, trace), pool.tasks⟩

namespace Machine

variable (m : Machine Op Ans Exc Entry Reply Choice External World)

def recorded :
    Machine Op Ans Exc Entry Reply Choice External (World × Trace Op Ans Exc) where
  routine := m.routine
  perform := fun tid op choice w =>
    (m.perform tid op choice w.1).map fun result =>
      (result.1, result.2, (tid, ⟨op, result.1⟩) :: w.2)
  opened := fun tid entry w => (m.opened tid entry w.1, w.2)
  closed := fun tid outcome w => (m.closed tid outcome w.1, w.2)
  external := fun event w => (m.external event w.1, w.2)

variable {m}

theorem perform_of_recorded {tid : Tid} {op : Op} {choice : Choice}
    {w w' : World × Trace Op Ans Exc} {answer : Except Exc (Ans op)}
    (h : m.recorded.perform tid op choice w = some (answer, w')) :
    m.perform tid op choice w.1 = some (answer, w'.1) ∧
      w'.2 = (tid, ⟨op, answer⟩) :: w.2 := by
  obtain ⟨⟨_, world⟩, hperform, heq⟩ := Option.map_eq_some_iff.mp h
  cases heq
  exact ⟨hperform, rfl⟩

theorem next_recorded {pool pool' : Pool Op Ans Exc Reply World}
    {label : Label Entry Choice External} (h : m.next pool label = some pool')
    (trace : Trace Op Ans Exc) :
    m.recorded.next (pool.beside trace) label =
      some (pool'.beside (m.noted pool trace label)) := by
  cases goes_of_next m h with
  | step tid choice op resume loop answer world htask hperform =>
      simp only [next, noted, Pool.beside, htask, hperform, recorded, Option.map_some]
      rfl
  | start tid entry htask | again tid loop htask | returned tid reply loop htask
  | raised tid exc loop htask | crash tid now loop htask =>
      simp only [next, noted, Pool.beside, htask, recorded]
      rfl
  | external event => rfl

/-- A run is one of the machine that carries its record. -/
theorem Run.recorded {first pool : Pool Op Ans Exc Reply World}
    {trace : Trace Op Ans Exc} (h : m.Run first pool trace) :
    m.recorded.Leads (first.beside []) (pool.beside trace) := by
  induction h with
  | start => exact ⟨[], rfl⟩
  | next label h hnext ih =>
      refine Leads.trans _ ih ⟨[label], ?_⟩
      simp only [follow, next_recorded hnext, Option.bind_some]

end Machine

end PhotoAnalysis.Foundation

import Mathlib.Logic.Relation
import Mathlib.Order.Basic
import PhotoAnalysis.Foundation.Pool

/-!
# Transactions with row locks

A store under READ COMMITTED isolation.  Each session holds the writes of its
open transaction and a lock on every key they touch, until it commits or is
rolled back; uncommitted writes are visible to their own session only.  That
every pending write is locked by its session is part of the structure, so two
sessions never hold writes to one key.
-/

namespace PhotoAnalysis.Foundation

structure TxStore (T W K : Type) (keys : W → List K) where
  committed : T
  writes : Tid → List W
  holder : K → Option Tid
  held : ∀ tid, ∀ w ∈ writes tid, ∀ k ∈ keys w, holder k = some tid

namespace TxStore

variable {T W K R : Type} {keys : W → List K} {apply : T → W → T}

def empty (tables : T) : TxStore T W K keys :=
  ⟨tables, fun _ => [], fun _ => none, by simp⟩

/-- No other session holds a lock on one of the keys. -/
def Free (db : TxStore T W K keys) (tid : Tid) (ks : List K) : Prop :=
  ∀ k ∈ ks, db.holder k = none ∨ db.holder k = some tid

instance (db : TxStore T W K keys) (tid : Tid) (ks : List K) :
    Decidable (db.Free tid ks) :=
  inferInstanceAs (Decidable (∀ k ∈ ks, _))

theorem not_free_iff {db : TxStore T W K keys} {tid : Tid} {ks : List K} :
    ¬db.Free tid ks ↔ ∃ k ∈ ks, ∃ other, db.holder k = some other ∧ other ≠ tid := by
  simp only [Free, not_forall, not_or]
  refine exists_congr fun k => exists_prop.trans (and_congr_right fun _ => ?_)
  cases db.holder k with
  | none => simp
  | some other => simp

/-- What a session sees: the committed tables under its own writes. -/
def view (apply : T → W → T) (db : TxStore T W K keys) (tid : Tid) : T :=
  (db.writes tid).foldl apply db.committed

/-- End a session's transaction, keeping or losing its writes. -/
def finish (db : TxStore T W K keys) (tid : Tid) (tables : T) :
    TxStore T W K keys where
  committed := tables
  writes := Function.update db.writes tid []
  holder := fun k => if db.holder k = some tid then none else db.holder k
  held := by
    intro other v hv k hk
    by_cases hne : other = tid
    · subst hne
      simp at hv
    · rw [Function.update_of_ne hne] at hv
      have hheld := db.held other v hv k hk
      rw [if_neg]
      · exact hheld
      · rw [hheld]
        simpa using hne

def commit (apply : T → W → T) (db : TxStore T W K keys) (tid : Tid) :
    TxStore T W K keys :=
  db.finish tid (db.view apply tid)

def rollback (db : TxStore T W K keys) (tid : Tid) : TxStore T W K keys :=
  db.finish tid db.committed

/-! ## What the other sessions see of a step -/

@[simp] theorem committed_rollback (db : TxStore T W K keys) (tid : Tid) :
    (db.rollback tid).committed = db.committed := rfl

@[simp] theorem committed_commit (db : TxStore T W K keys) (tid : Tid) :
    (db.commit apply tid).committed = db.view apply tid := rfl

@[simp] theorem writes_finish (db : TxStore T W K keys) (tid : Tid)
    (tables : T) : (db.finish tid tables).writes tid = [] := by
  simp [finish]

@[simp] theorem writes_commit (db : TxStore T W K keys) (tid : Tid) :
    (db.commit apply tid).writes tid = [] :=
  db.writes_finish tid _

@[simp] theorem writes_rollback (db : TxStore T W K keys) (tid : Tid) :
    (db.rollback tid).writes tid = [] :=
  db.writes_finish tid _

/-- The locks of a session end with its transaction, and no others. -/
theorem holder_finish {db : TxStore T W K keys} {tid other : Tid} {tables : T} {k : K} :
    (db.finish tid tables).holder k = some other ↔
      db.holder k = some other ∧ other ≠ tid := by
  simp only [finish]
  split
  next hmine =>
    refine ⟨fun h => (by cases h), fun h => absurd ?_ h.2⟩
    exact Option.some.inj (h.1.symm.trans hmine)
  next hothers =>
    refine ⟨fun h => ⟨h, ?_⟩, fun h => h.1⟩
    rintro rfl
    exact hothers h

theorem view_of_clean {db : TxStore T W K keys} {tid : Tid}
    (h : db.writes tid = []) : db.view apply tid = db.committed := by
  simp [view, h]

/--
From `other`'s point of view a store has kept its place: its own writes and
its locks are untouched.
-/
structure Kept (other : Tid) (db db' : TxStore T W K keys) : Prop where
  writes : db'.writes other = db.writes other
  holder : ∀ k, db.holder k = some other → db'.holder k = some other

theorem kept_finish (db : TxStore T W K keys) {tid other : Tid} (tables : T)
    (hne : other ≠ tid) : Kept other db (db.finish tid tables) := by
  refine ⟨by simp [finish, hne], fun k hk => ?_⟩
  simp only [finish, hk]
  rw [if_neg]
  simpa using hne

/-- A key is untouched by writes that do not name it. -/
theorem row_foldl {row : T → K → R}
    (hrow : ∀ tables w k, k ∉ keys w → row (apply tables w) k = row tables k)
    (ws : List W) (tables : T) (k : K) (hk : ∀ w ∈ ws, k ∉ keys w) :
    row (ws.foldl apply tables) k = row tables k := by
  induction ws generalizing tables with
  | nil => rfl
  | cons w ws ih =>
      rw [List.foldl_cons, ih _ fun v hv => hk v (List.mem_cons_of_mem _ hv)]
      exact hrow _ _ _ (hk w List.mem_cons_self)

/-- A commit changes no key that another session holds. -/
theorem row_commit {row : T → K → R}
    (hrow : ∀ tables w k, k ∉ keys w → row (apply tables w) k = row tables k)
    (db : TxStore T W K keys) {tid other : Tid} (hne : other ≠ tid) {k : K}
    (hk : db.holder k = some other) :
    row (db.commit apply tid).committed k = row db.committed k := by
  refine row_foldl hrow _ _ k fun w hw hmem => ?_
  rw [db.held tid w hw k hmem] at hk
  exact hne (Option.some.inj hk).symm

/-! ## Taking a lock and writing -/

variable [DecidableEq K]

def write (db : TxStore T W K keys) (tid : Tid) (w : W)
    (h : db.Free tid (keys w)) : TxStore T W K keys where
  committed := db.committed
  writes := Function.update db.writes tid (db.writes tid ++ [w])
  holder := fun k => if k ∈ keys w then some tid else db.holder k
  held := by
    intro other v hv k hk
    by_cases hmem : k ∈ keys w
    · rw [if_pos hmem]
      by_cases hne : other = tid
      · rw [hne]
      · rw [Function.update_of_ne hne] at hv
        have hheld := db.held other v hv k hk
        rcases h k hmem with hfree | hown
        · rw [hfree] at hheld
          cases hheld
        · exact hown.symm.trans hheld
    · rw [if_neg hmem]
      by_cases hne : other = tid
      · subst hne
        rw [Function.update_self, List.mem_append, List.mem_singleton] at hv
        rcases hv with hv | rfl
        · exact db.held other v hv k hk
        · exact absurd hk hmem
      · rw [Function.update_of_ne hne] at hv
        exact db.held other v hv k hk

@[simp] theorem committed_write (db : TxStore T W K keys) (tid : Tid) (w : W)
    (h : db.Free tid (keys w)) : (db.write tid w h).committed = db.committed :=
  rfl

@[simp] theorem writes_write (db : TxStore T W K keys) (tid : Tid) (w : W)
    (h : db.Free tid (keys w)) :
    (db.write tid w h).writes tid = db.writes tid ++ [w] := by
  simp [write]

/-- A write takes the locks that it needs. -/
theorem holder_write {db : TxStore T W K keys} {tid other : Tid} {w : W}
    {h : db.Free tid (keys w)} {k : K} (hk : (db.write tid w h).holder k = some other) :
    db.holder k = some other ∨ other = tid ∧ k ∈ keys w := by
  simp only [write] at hk
  split at hk
  next hmem => exact .inr ⟨(Option.some.inj hk).symm, hmem⟩
  next => exact .inl hk

theorem kept_write (db : TxStore T W K keys) {tid other : Tid} (w : W)
    (h : db.Free tid (keys w)) (hne : other ≠ tid) :
    Kept other db (db.write tid w h) := by
  refine ⟨by simp [write, hne], fun k hk => ?_⟩
  by_cases hmem : k ∈ keys w
  · rcases h k hmem with hfree | hown
    · rw [hfree] at hk
      cases hk
    · rw [hown] at hk
      exact absurd (Option.some.inj hk).symm hne
  · simpa [write, hmem] using hk

end TxStore

/-! ## Waiting in a circle -/

section

open Relation

variable {Task Rank : Type} [PartialOrder Rank] {waitsFor : Task → Task → Prop}
variable {rank : Task → Rank}

/-- What never falls from a task to the one it waits for is the same all around a circle. -/
theorem rank_eq_of_circle
    (hstep : ∀ a b, waitsFor a b → ReflTransGen waitsFor b a → rank a ≤ rank b)
    {a b : Task} (hab : waitsFor a b) (hback : ReflTransGen waitsFor b a) :
    rank a = rank b := by
  refine le_antisymm (hstep a b hab hback) ?_
  have hrest : ∀ c, ReflTransGen waitsFor b c → ReflTransGen waitsFor c a →
      rank b ≤ rank c := by
    intro c hbc hca
    induction hbc with
    | refl => exact le_rfl
    | tail hbm hmc ih =>
        exact (ih (.head hmc hca)).trans (hstep _ _ hmc ((hca.tail hab).trans hbm))
  exact hrest a hback .refl

end

end PhotoAnalysis.Foundation

import PhotoAnalysis.Foundation.Triple
import PhotoAnalysis.Ledger.Preservation

/-!
# The world as a ledger and private parts

A task's step makes at most one move on the ledger and otherwise changes what
belongs to the task alone: its open transaction with its locks, its place in
the topic and its trace id.  This is the guarantee the tasks give each other.
-/

namespace PhotoAnalysis

open Foundation

/-- What a task keeps to itself. -/
structure Own where
  writes : List Write
  position : Nat
  traceId : Json

def Own.locks (own : Own) (k : RowKey) : Prop :=
  ∃ write ∈ own.writes, k ∈ write.keys

def World.own (w : World) (t : Tid) : Own :=
  ⟨w.db.writes t, w.position t, w.traceId t⟩

/-- A step as the other tasks see it, but for the ledger. -/
structure Frame (t : Tid) (w w' : World) : Prop where
  own : ∀ other, other ≠ t → w'.own other = w.own other
  locks : ∀ other, other ≠ t → ∀ k, w.db.holder k = some other →
    w'.db.holder k = some other

namespace Frame

variable {t : Tid} {w w' w'' : World}

theorem trans (h : Frame t w w') (h' : Frame t w' w'') : Frame t w w'' where
  own := fun other hne => (h'.own other hne).trans (h.own other hne)
  locks := fun other hne k hk => h'.locks other hne k (h.locks other hne k hk)

/-- Only the part of the world that is nobody's own has changed. -/
theorem of_eq (hdb : w'.db = w.db) (hposition : w'.position = w.position)
    (htrace : w'.traceId = w.traceId) : Frame t w w' where
  own := fun other _ => by simp only [World.own, hdb, hposition, htrace]
  locks := fun other _ k hk => hdb ▸ hk

theorem of_kept (hkept : ∀ other, other ≠ t → TxStore.Kept other w.db w'.db)
    (hposition : w'.position = w.position) (htrace : w'.traceId = w.traceId) :
    Frame t w w' where
  own := fun other hne => by
    simp only [World.own, (hkept other hne).writes, hposition, htrace]
  locks := fun other hne => (hkept other hne).holder

theorem rollback (t : Tid) (w : World) : Frame t w (w.rollback t) :=
  of_kept (fun _ hne => w.db.kept_finish _ hne) rfl rfl

theorem commit (t : Tid) (w : World) : Frame t w (w.commit t) :=
  of_kept (fun _ hne => w.db.kept_finish _ hne) rfl rfl

theorem note (t : Tid) (w : World) (event : Event) : Frame t w (w.note event) :=
  of_eq rfl rfl rfl

theorem setPosition (t : Tid) (w : World) (position : Nat) :
    Frame t w (w.setPosition t position) where
  own := fun other hne => by
    simp [World.own, World.setPosition, Function.update_of_ne hne]
  locks := fun _ _ _ hk => hk

theorem setTraceId (t : Tid) (w : World) (value : Json) :
    Frame t w { w with traceId := Function.update w.traceId t value } where
  own := fun other hne => by simp [World.own, Function.update_of_ne hne]
  locks := fun _ _ _ hk => hk

theorem write (t : Tid) (w : World) (write : Write)
    (h : w.db.Free t write.keys) :
    Frame t w { w.begin t with db := w.db.write t write h } :=
  of_kept (fun _ hne => w.db.kept_write write h hne) rfl rfl

theorem execute {stmt : Stmt} {answer : Except PyExc Nat}
    (h : w.execute t stmt = some (answer, w')) : Frame t w w' := by
  simp only [World.execute] at h
  split at h
  · cases h
    exact (rollback t w).trans (note t _ _)
  · cases h
    exact of_eq rfl rfl rfl
  · split at h
    next hfree =>
      cases h
      exact (write t w _ hfree).trans (note t _ _)
    next => cases h

theorem answer {op : Op} {choice : Choice} {answer : Except PyExc op.Ans}
    (h : w.answer t op choice = some (answer, w')) : Frame t w w' := by
  cases op with
  | execute stmt =>
      cases choice <;> first | exact execute h | cases h
  | select query =>
      cases choice <;> try cases h
      obtain ⟨rows, -, heq⟩ := Option.map_eq_some_iff.mp h
      cases heq
      exact of_eq rfl rfl rfl
  | commit =>
      cases choice <;> cases h
      exact commit t w
  | rollback =>
      cases choice <;> cases h
      exact rollback t w
  | close =>
      cases choice <;> cases h
      exact rollback t w
  | setTraceId value =>
      cases choice <;> cases h
      exact setTraceId t w value
  | startConsumer =>
      cases choice <;> cases h
      exact setPosition t w _
  | getone =>
      cases choice <;> try cases h
      simp only [World.answer] at h
      split at h <;> cases h
      exact setPosition t w _
  | uuid4 =>
      cases choice <;> try cases h
      simp only [World.answer] at h
      split at h <;> cases h
      exact of_eq rfl rfl rfl
  | getObject name =>
      cases choice <;> try cases h
      simp only [World.answer] at h
      split at h <;> cases h <;> exact of_eq rfl rfl rfl
  | acquireStartLock app =>
      cases choice <;> try cases h
      simp only [World.answer] at h
      split at h <;> cases h
      exact of_eq rfl rfl rfl
  | waitStop =>
      cases choice <;> try cases h
      simp only [World.answer] at h
      split at h <;> cases h
      exact of_eq rfl rfl rfl
  | sleep seconds =>
      cases choice <;> try cases h
      simp only [World.answer] at h
      split at h <;> cases h
      exact of_eq rfl rfl rfl
  | _ =>
      cases choice <;> cases h
      exact of_eq rfl rfl rfl

theorem halfDone {op : Op} (h : w.halfDone t op = some w') : Frame t w w' := by
  cases op with
  | commit =>
      cases h
      exact commit t w
  | _ => first
      | cases h
        exact of_eq rfl rfl rfl
      | cases h

end Frame

/-- The three ways an operation can go. -/
theorem World.perform_cases {t : Tid} {op : Op} {choice : Choice} {w w' : World}
    {answer : Except PyExc op.Ans}
    (h : World.perform t op choice w = some (answer, w')) :
    (∃ exc kept, op.canFail exc kept ∧ answer = .error exc ∧
      w' = (if kept then w else w.rollback t).note
        (.raised t op (w.db.writes t) exc)) ∨
    (∃ exc w₁, w.halfDone t op = some w₁ ∧ answer = .error exc ∧
      w' = w₁.note (.raised t op (w.db.writes t) exc)) ∨
    w.answer t op choice = some (answer, w') := by
  cases choice with
  | fail exc kept =>
      simp only [World.perform] at h
      split at h
      next hcan =>
        cases h
        exact .inl ⟨exc, kept, hcan, rfl, rfl⟩
      next => cases h
  | failAfter exc =>
      obtain ⟨w₁, hw₁, heq⟩ := Option.map_eq_some_iff.mp h
      cases heq
      exact .inr (.inl ⟨exc, w₁, hw₁, rfl, rfl⟩)
  | _ => exact .inr (.inr h)

theorem execute_cases {t : Tid} {w w' : World} {stmt : Stmt}
    {answer : Except PyExc Nat} (h : w.execute t stmt = some (answer, w')) :
    w'.counters = w.counters ∧
      ((∃ pending exc, answer = .error exc ∧
          w'.events = .raised t (.execute stmt) pending exc :: w.events) ∨
        (answer = .ok 0 ∧ stmt.resolve (w.now t) (w.view t) = .ok none ∧
          w'.db.writes t = w.db.writes t ∧
          w'.events = .executed t stmt 0 :: w.events) ∨
        ∃ write, answer = .ok 1 ∧
          stmt.resolve (w.now t) (w.view t) = .ok (some write) ∧
          w'.db.writes t = w.db.writes t ++ [write] ∧
          w'.events = .executed t stmt 1 :: w.events) := by
  simp only [World.execute] at h
  split at h
  next exc hresolve =>
    cases h
    exact ⟨rfl, .inl ⟨_, exc, rfl, rfl⟩⟩
  next hresolve =>
    cases h
    exact ⟨rfl, .inr (.inl ⟨rfl, hresolve, rfl, rfl⟩)⟩
  next write hresolve =>
    split at h <;> cases h
    next hfree =>
      exact ⟨rfl, .inr (.inr ⟨write, rfl, hresolve,
        TxStore.writes_write w.db t write hfree, rfl⟩)⟩

/-- An update that matches leaves its own values in the transaction. -/
theorem resolve_update {id : UUID} {status : Option PhotoStatus} {values : PhotoValues}
    {now : Time} {T : Tables} {write : Write}
    (h : (Stmt.updatePhoto id status values).resolve now T = .ok (some write)) :
    write = .setPhoto id values := by
  simp only [Stmt.resolve] at h
  split at h
  · cases h
  split at h
  · cases h
  split at h
  · split at h <;> cases h
    rfl
  · cases h

/-- An update without a condition on the status matches a photo that is there. -/
theorem resolve_matches {id : UUID} {values : PhotoValues} {now : Time} {T : Tables}
    (h : (Stmt.updatePhoto id none values).resolve now T = .ok none) :
    T.photo id = none := by
  simp only [Stmt.resolve] at h
  split at h
  · cases h
  split at h
  next hnone => exact hnone
  next =>
    simp only [Option.all_none, if_true] at h
    split at h <;> cases h

theorem Frame.perform {t : Tid} {op : Op} {choice : Choice} {w w' : World}
    {answer : Except PyExc op.Ans}
    (h : World.perform t op choice w = some (answer, w')) : Frame t w w' := by
  rcases World.perform_cases h with ⟨exc, kept, -, -, rfl⟩ |
    ⟨exc, w₁, hw₁, -, rfl⟩ | h
  · cases kept
    · exact (Frame.rollback t w).trans (.note t _ _)
    · exact .note t _ _
  · exact (Frame.halfDone hw₁).trans (.note t _ _)
  · exact .answer h

theorem World.answer_tasks {t : Tid} {op : Op} {choice : Choice} {w w' : World}
    {answer : Except PyExc op.Ans}
    (h : w.answer t op choice = some (answer, w')) :
    w'.arrivals = w.arrivals ∧ w'.outcomes = w.outcomes := by
  cases op with
  | execute stmt =>
      cases choice <;> try cases h
      simp only [World.answer, World.execute] at h
      split at h
      · cases h
        exact ⟨rfl, rfl⟩
      · cases h
        exact ⟨rfl, rfl⟩
      · split at h <;> cases h
        exact ⟨rfl, rfl⟩
  | select query =>
      cases choice <;> try cases h
      obtain ⟨rows, -, heq⟩ := Option.map_eq_some_iff.mp h
      cases heq
      exact ⟨rfl, rfl⟩
  | getone =>
      cases choice <;> try cases h
      simp only [World.answer] at h
      split at h <;> cases h
      exact ⟨rfl, rfl⟩
  | uuid4 =>
      cases choice <;> try cases h
      simp only [World.answer] at h
      split at h <;> cases h
      exact ⟨rfl, rfl⟩
  | getObject name =>
      cases choice <;> try cases h
      simp only [World.answer] at h
      split at h <;> cases h <;> exact ⟨rfl, rfl⟩
  | acquireStartLock app =>
      cases choice <;> try cases h
      simp only [World.answer] at h
      split at h <;> cases h
      exact ⟨rfl, rfl⟩
  | waitStop =>
      cases choice <;> try cases h
      simp only [World.answer] at h
      split at h <;> cases h
      exact ⟨rfl, rfl⟩
  | sleep seconds =>
      cases choice <;> try cases h
      simp only [World.answer] at h
      split at h <;> cases h
      exact ⟨rfl, rfl⟩
  | _ =>
      cases choice <;> cases h
      exact ⟨rfl, rfl⟩

/-- No operation starts or ends a task. -/
theorem World.perform_tasks {t : Tid} {op : Op} {choice : Choice} {w w' : World}
    {answer : Except PyExc op.Ans}
    (h : World.perform t op choice w = some (answer, w')) :
    w'.arrivals = w.arrivals ∧ w'.outcomes = w.outcomes := by
  rcases World.perform_cases h with ⟨exc, kept, -, -, rfl⟩ |
    ⟨exc, w₁, hw₁, -, rfl⟩ | h
  · cases kept <;> exact ⟨rfl, rfl⟩
  · cases op <;> first
      | (cases hw₁; exact ⟨rfl, rfl⟩)
      | cases hw₁
  · exact World.answer_tasks h

/-! ## The conduct of the tasks -/

/-- What the others hold locked while task `t` takes a step. -/
def World.lockedFrom (w : World) (t : Tid) (k : RowKey) : Prop :=
  ∃ other, other ≠ t ∧ w.db.holder k = some other

structure Guar (M : Nat) (t : Tid) (w w' : World) : Prop where
  frame : Frame t w w'
  move : Move M (w.lockedFrom t) t w.ledger w'.ledger

def conduct (M : Nat) : Conduct World where
  inv := fun w => Inv M w.ledger
  guar := Guar M
  inv_of_guar := fun hI h => hI.move h.move

abbrev discipline (M : Nat) : Discipline World := (conduct M).discipline

/-- A triple about one task's program, among tasks of this conduct. -/
abbrev Spec (M : Nat) (t : Tid) {α : Type} (P : World → Prop) (program : Py α)
    (Q : Except PyExc α → World → Prop) : Prop :=
  (discipline M).Triple World.perform t P program Q

/-! ## Assertions -/

/-- A step of the acting task that touches neither the tables nor the objects. -/
inductive Quiet (t : Tid) (L : Ledger) : Ledger → Prop
  | same : Quiet t L L
  | note (event : Event) (h : event.Note t) : Quiet t L (L.note event)
  | mint {id : UUID} (h : L.minted id = none) :
      Quiet t L { L with minted := Function.update L.minted id (some t) }

/--
A fact about the ledger that lasts: no move of another task ends it while the
task holds its locks, nor does a quiet step of its own.
-/
structure Lasting (M : Nat) (t : Tid) (locks : RowKey → Prop)
    (K : Ledger → Prop) : Prop where
  others : ∀ L L' other, other ≠ t → Inv M L → Move M locks other L L' →
    K L → K L'
  quiet : ∀ L L', Inv M L → Quiet t L L' → K L → K L'

/-- A fact that nothing ends. -/
def Growing (M : Nat) (K : Ledger → Prop) : Prop :=
  ∀ L L', Inv M L → Grows L L' → K L → K L'

theorem Growing.and {M : Nat} {K K' : Ledger → Prop} (h : Growing M K)
    (h' : Growing M K') : Growing M fun L => K L ∧ K' L :=
  fun L L' hI hg hk => ⟨h L L' hI hg hk.1, h' L L' hI hg hk.2⟩

theorem Growing.imp {M : Nat} (p : Prop) {K : Ledger → Prop}
    (h : Growing M K) : Growing M fun L => p → K L :=
  fun L L' hI hg hk hp => h L L' hI hg (hk hp)

theorem Quiet.grows {M : Nat} {t : Tid} {L L' : Ledger} (hI : Inv M L)
    (h : Quiet t L L') : Grows L L' := by
  cases h with
  | same => exact .refl L
  | note event h => exact .note L event
  | mint h => exact (Act.mint h).grows hI

namespace Lasting

variable {M : Nat} {t : Tid} {locks locks' : RowKey → Prop}
variable {K K' : Ledger → Prop}

theorem of_growing (h : Growing M K) : Lasting M t locks K where
  others := fun L L' _ _ hI hmove => h L L' hI (hmove.grows hI)
  quiet := fun L L' hI hquiet => h L L' hI (hquiet.grows hI)

theorem weaken (h : Lasting M t locks K) (hlocks : ∀ k, locks k → locks' k) :
    Lasting M t locks' K where
  others := by
    rintro L L' other hne hI ⟨L₁, hact, hnote, hrows⟩
    exact h.others L L' other hne hI
      ⟨L₁, hact, hnote, fun k hk => hrows k (hlocks k hk)⟩
  quiet := h.quiet

/-- A fact no lock is needed for lasts under any locks. -/
theorem anyLocks (h : Lasting M t (fun _ => False) K) : Lasting M t locks K :=
  h.weaken fun _ hk => hk.elim

theorem and (h : Lasting M t locks K) (h' : Lasting M t locks K') :
    Lasting M t locks fun L => K L ∧ K' L where
  others := fun L L' other hne hI hmove hk =>
    ⟨h.others L L' other hne hI hmove hk.1, h'.others L L' other hne hI hmove hk.2⟩
  quiet := fun L L' hI hquiet hk =>
    ⟨h.quiet L L' hI hquiet hk.1, h'.quiet L L' hI hquiet hk.2⟩

theorem or (h : Lasting M t locks K) (h' : Lasting M t locks K') :
    Lasting M t locks fun L => K L ∨ K' L where
  others := fun L L' other hne hI hmove hk =>
    hk.imp (h.others L L' other hne hI hmove) (h'.others L L' other hne hI hmove)
  quiet := fun L L' hI hquiet hk =>
    hk.imp (h.quiet L L' hI hquiet) (h'.quiet L L' hI hquiet)

theorem exists_ {ι : Type} {K : ι → Ledger → Prop}
    (h : ∀ i, Lasting M t locks (K i)) :
    Lasting M t locks fun L => ∃ i, K i L where
  others := fun L L' other hne hI hmove ⟨i, hk⟩ =>
    ⟨i, (h i).others L L' other hne hI hmove hk⟩
  quiet := fun L L' hI hquiet ⟨i, hk⟩ => ⟨i, (h i).quiet L L' hI hquiet hk⟩

theorem const (p : Prop) : Lasting M t locks fun _ => p :=
  of_growing fun _ _ _ _ h => h

theorem imp (p : Prop) (h : Lasting M t locks K) :
    Lasting M t locks fun L => p → K L where
  others := fun L L' other hne hI hmove hk hp =>
    h.others L L' other hne hI hmove (hk hp)
  quiet := fun L L' hI hquiet hk hp => h.quiet L L' hI hquiet (hk hp)

theorem guarded {p : Prop} (h : p → Lasting M t locks K) :
    Lasting M t locks fun L => p ∧ K L where
  others := fun L L' other hne hI hmove hk =>
    ⟨hk.1, (h hk.1).others L L' other hne hI hmove hk.2⟩
  quiet := fun L L' hI hquiet hk => ⟨hk.1, (h hk.1).quiet L L' hI hquiet hk.2⟩

end Lasting

/--
Task `t` is in its call `arrival` with exactly this of its own, and `K` holds of
the ledger.
-/
structure At (t : Tid) (arrival : Arrival) (own : Own) (K : Ledger → Prop)
    (w : World) : Prop where
  own : w.own t = own
  arrival : w.ledger.arrivals t = some arrival
  live : w.ledger.outcomes t = none
  fact : K w.ledger

/-- As `At`, when an exception has left the transaction in an unknown state. -/
def Adrift (t : Tid) (arrival : Arrival) (position : Nat) (K : Ledger → Prop)
    (w : World) : Prop :=
  ∃ own, own.position = position ∧ At t arrival own K w

section

variable {M : Nat} {t : Tid} {arrival : Arrival} {own : Own}
variable {K K' : Ledger → Prop}

theorem At.mono {w : World} (h : At t arrival own K w)
    (hk : K w.ledger → K' w.ledger) : At t arrival own K' w :=
  { h with fact := hk h.fact }

theorem Adrift.mono {position : Nat} {w : World}
    (h : Adrift t arrival position K w) (hk : K w.ledger → K' w.ledger) :
    Adrift t arrival position K' w := by
  obtain ⟨own, hposition, hat⟩ := h
  exact ⟨own, hposition, hat.mono hk⟩

/-- The moves of others keep a call's arrival and leave it without outcome. -/
theorem Move.keeps {other : Tid} {locked : RowKey → Prop} {L L' : Ledger}
    (h : Move M locked other L L') (hne : other ≠ t)
    (ha : L.arrivals t = some arrival) (hlive : L.outcomes t = none) :
    L'.arrivals t = some arrival ∧ L'.outcomes t = none := by
  obtain ⟨L₁, hact, hnote, -⟩ := h
  have h₁ : L₁.arrivals t = some arrival ∧ L₁.outcomes t = none := by
    rcases hact with rfl | hact
    · exact ⟨ha, hlive⟩
    · cases hact with
      | arrive h hl => exact ⟨by simpa [hne.symm] using ha, hlive⟩
      | reply h hl he => exact ⟨ha, by simpa [hne.symm] using hlive⟩
      | _ => exact ⟨ha, hlive⟩
  rcases hnote with rfl | ⟨event, -, rfl⟩
  · exact h₁
  · exact h₁

theorem At.steady (hK : Lasting M t own.locks K) :
    (discipline M).Steady t (At t arrival own K) := by
  refine (conduct M).steady ?_
  rintro w w' other hne hI ⟨hframe, hmove⟩ ⟨hown, ha, hlive, hfact⟩
  obtain ⟨ha', hlive'⟩ := hmove.keeps hne ha hlive
  refine ⟨(hframe.own t (Ne.symm hne)).trans hown, ha', hlive', ?_⟩
  obtain ⟨L₁, hact, hnote, hrows⟩ := hmove
  refine hK.others _ _ other hne hI ⟨L₁, hact, hnote, fun k hk => ?_⟩ hfact
  obtain ⟨write, hwrite, hkey⟩ := hk
  refine hrows k ⟨t, Ne.symm hne, ?_⟩
  exact w.db.held t write (by rw [← hown] at hwrite; exact hwrite) k hkey

theorem Adrift.steady {position : Nat} (hK : Lasting M t (fun _ => False) K) :
    (discipline M).Steady t (Adrift t arrival position K) := by
  rintro w w' hrely hI ⟨own, hposition, hat⟩
  exact ⟨own, hposition, At.steady (hK.weaken fun _ h => h.elim) hrely hI hat⟩

end

end PhotoAnalysis

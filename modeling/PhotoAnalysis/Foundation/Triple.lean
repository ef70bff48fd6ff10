import Mathlib.Logic.Relation
import PhotoAnalysis.Foundation.Interference

/-!
# Triples

Pre- and postconditions of a program that runs among other tasks, with one rule
for each way programs are put together.  The assertion after an operation has
to survive the other tasks; within a computation it need not.  What the other
tasks do can be read off their guarantees, so a discipline is given by an
invariant and a guarantee.
-/

namespace PhotoAnalysis.Foundation

variable {Op : Type} {Ans : Op → Type} {Exc Choice World α β : Type}

/-- An invariant, and what a task may do to a world in which it holds. -/
structure Conduct (World : Type) where
  inv : World → Prop
  guar : Tid → World → World → Prop
  inv_of_guar : ∀ {tid w w'}, inv w → guar tid w w' → inv w'

namespace Conduct

variable (c : Conduct World)

/-- One step of a task other than `tid`. -/
def Elsewhere (tid : Tid) (w w' : World) : Prop :=
  c.inv w ∧ ∃ other, other ≠ tid ∧ c.guar other w w'

def discipline : Discipline World where
  inv := c.inv
  guar := c.guar
  rely := fun tid => Relation.ReflTransGen (c.Elsewhere tid)
  rely_refl := fun _ _ => .refl
  rely_trans := fun h h' => h.trans h'
  inv_of_guar := c.inv_of_guar
  rely_of_guar := fun hi h hne => .single ⟨hi, _, Ne.symm hne, h⟩

theorem steady {tid : Tid} {P : World → Prop}
    (h : ∀ w w' other, other ≠ tid → c.inv w → c.guar other w w' → P w → P w') :
    c.discipline.Steady tid P := by
  intro w w' hrely _ hp
  induction hrely with
  | refl => exact hp
  | tail _ hstep ih =>
      obtain ⟨hi, other, hne, hguar⟩ := hstep
      exact h _ _ other hne hi hguar (ih hi)

end Conduct

namespace Discipline

variable (d : Discipline World)
variable (perform : Tid → (op : Op) → Choice → World →
  Option (Except Exc (Ans op) × World))

/-- From a world that satisfies `P`, `program` is safe and ends in `Q`. -/
def Triple (tid : Tid) (P : World → Prop) (program : Program Op Ans Exc α)
    (Q : Except Exc α → World → Prop) : Prop :=
  ∀ w, d.inv w → P w → d.Safe perform tid Q program w

variable {perform}

theorem Safe.withInv {tid : Tid} {post : Except Exc α → World → Prop}
    {program : Program Op Ans Exc α} {w : World} (hi : d.inv w)
    (h : d.Safe perform tid post program w) :
    d.Safe perform tid (fun outcome w => d.inv w ∧ post outcome w) program w := by
  induction program generalizing w with
  | ret value => exact ⟨hi, h⟩
  | raise exc => exact ⟨hi, h⟩
  | await op resume ih =>
      intro choice answer w' hw
      obtain ⟨hguar, hrest⟩ := h choice answer w' hw
      exact ⟨hguar, fun w'' hr hi' => ih answer hi' (hrest w'' hr hi')⟩

variable {d} {tid : Tid} {P P' : World → Prop}

namespace Triple

theorem conseq {Q Q' : Except Exc α → World → Prop}
    {program : Program Op Ans Exc α}
    (h : d.Triple perform tid P program Q)
    (hp : ∀ w, d.inv w → P' w → P w)
    (hq : ∀ outcome w, d.inv w → Q outcome w → Q' outcome w) :
    d.Triple perform tid P' program Q' := by
  intro w hi hw
  exact d.safe_mono (fun outcome w hq' => hq outcome w hq'.1 hq'.2)
    (Safe.withInv d hi (h w hi (hp w hi hw)))

theorem post {Q Q' : Except Exc α → World → Prop}
    {program : Program Op Ans Exc α}
    (h : d.Triple perform tid P program Q)
    (hq : ∀ outcome w, d.inv w → Q outcome w → Q' outcome w) :
    d.Triple perform tid P program Q' :=
  h.conseq (fun _ _ hp => hp) hq

theorem ret {value : α} {Q : Except Exc α → World → Prop}
    (h : ∀ w, d.inv w → P w → Q (.ok value) w) :
    d.Triple perform tid P (.ret value : Program Op Ans Exc α) Q :=
  h

theorem raise {exc : Exc} {Q : Except Exc α → World → Prop}
    (h : ∀ w, d.inv w → P w → Q (.error exc) w) :
    d.Triple perform tid P (.raise exc : Program Op Ans Exc α) Q :=
  h

theorem bind {program : Program Op Ans Exc α} {next : α → Program Op Ans Exc β}
    {Q : Except Exc β → World → Prop} (mid : α → World → Prop)
    (h : d.Triple perform tid P program fun outcome w => match outcome with
      | .ok value => mid value w
      | .error exc => Q (.error exc) w)
    (hnext : ∀ value, d.Triple perform tid (mid value) (next value) Q) :
    d.Triple perform tid P (program.bind next) Q := by
  intro w hi hw
  rw [d.safe_bind]
  refine d.safe_mono ?_ (Safe.withInv d hi (h w hi hw))
  intro outcome w ho
  cases outcome with
  | ok value => exact hnext value w ho.1 ho.2
  | error exc => exact ho.2

/-- A first program that ends in the same assertion however it ends. -/
theorem seq {program : Program Op Ans Exc α} {next : α → Program Op Ans Exc β}
    {Q : Except Exc β → World → Prop} (mid : World → Prop)
    (h : d.Triple perform tid P program fun _ => mid)
    (hnext : ∀ value, d.Triple perform tid mid (next value) Q)
    (herror : ∀ exc w, d.inv w → mid w → Q (.error exc) w) :
    d.Triple perform tid P (program.bind next) Q := by
  refine bind (fun _ => mid) (h.post ?_) hnext
  rintro (exc | value) w hi hw
  · exact herror exc w hi hw
  · exact hw

theorem attempt {program : Program Op Ans Exc α}
    {Q : Except Exc (Except Exc α) → World → Prop}
    (h : d.Triple perform tid P program fun outcome => Q (.ok outcome)) :
    d.Triple perform tid P program.attempt Q :=
  fun w hi hw => d.safe_attempt.mpr (h w hi hw)

theorem tryExcept {body : Program Op Ans Exc α}
    {catcher : Exc → Program Op Ans Exc α} {Q : Except Exc α → World → Prop}
    (mid : Exc → World → Prop)
    (h : d.Triple perform tid P body fun outcome w => match outcome with
      | .ok value => Q (.ok value) w
      | .error exc => mid exc w)
    (hcatch : ∀ exc, d.Triple perform tid (mid exc) (catcher exc) Q) :
    d.Triple perform tid P (body.tryExcept catcher) Q := by
  intro w hi hw
  rw [d.safe_tryExcept]
  refine d.safe_mono ?_ (Safe.withInv d hi (h w hi hw))
  intro outcome w ho
  cases outcome with
  | ok value => exact ho.2
  | error exc => exact hcatch exc w ho.1 ho.2

theorem tryFinally {body : Program Op Ans Exc α}
    {last : Program Op Ans Exc Unit} {Q : Except Exc α → World → Prop}
    (mid : Except Exc α → World → Prop)
    (h : d.Triple perform tid P body mid)
    (hlast : ∀ outcome, d.Triple perform tid (mid outcome) last
      fun closing w => match closing with
        | .ok _ => Q outcome w
        | .error exc => Q (.error exc) w) :
    d.Triple perform tid P (body.tryFinally last) Q := by
  intro w hi hw
  rw [d.safe_tryFinally]
  exact d.safe_mono (fun outcome w ho => hlast outcome w ho.1 ho.2)
    (Safe.withInv d hi (h w hi hw))

theorem ofExcept {outcome : Except Exc α} {Q : Except Exc α → World → Prop}
    (h : ∀ w, d.inv w → P w → Q outcome w) :
    d.Triple perform tid P (Program.ofExcept outcome) Q :=
  fun w hi hw => d.safe_ofExcept.mpr (h w hi hw)

theorem call {op : Op} {Q : Except Exc (Ans op) → World → Prop}
    (hsteady : ∀ answer, d.Steady tid (Q answer))
    (hstep : ∀ w choice answer w', d.inv w → P w →
      perform tid op choice w = some (answer, w') →
      d.guar tid w w' ∧ Q answer w') :
    d.Triple perform tid P (Program.call op) Q := by
  intro w hi hw
  rw [d.safe_call]
  intro choice answer w' hperform
  obtain ⟨hguar, hq⟩ := hstep w choice answer w' hi hw hperform
  exact ⟨hguar, fun w'' hr hi'' => hsteady answer hr hi'' hq⟩

/-- A program all of whose operations keep an assertion keeps it. -/
theorem uses {p : Op → Prop} {program : Program Op Ans Exc α}
    (h : program.Uses p) (hop : ∀ op, p op →
      d.Triple perform tid P (Program.call op) fun _ => P) :
    d.Triple perform tid P program fun _ => P := by
  induction program with
  | ret value => exact ret fun _ _ hp => hp
  | raise exc => exact raise fun _ _ hp => hp
  | await op resume ih =>
      intro w hi hw choice answer w' hperform
      obtain ⟨hguar, hsettles⟩ :=
        d.safe_call.mp (hop op h.1 w hi hw) choice answer w' hperform
      exact ⟨hguar, fun w'' hr hi'' =>
        ih answer (h.2 answer) w'' hi'' (hsettles w'' hr hi'')⟩

/-- What every task keeps can be added to both sides. -/
theorem frame {R : World → Prop} {program : Program Op Ans Exc α}
    {Q : Except Exc α → World → Prop} (hsteady : d.Steady tid R)
    (hguar : ∀ w w', d.inv w → d.guar tid w w' → R w → R w')
    (h : d.Triple perform tid P program Q) :
    d.Triple perform tid (fun w => P w ∧ R w) program
      fun outcome w => Q outcome w ∧ R w := by
  rintro w hi ⟨hp, hr⟩
  have hsafe := h w hi hp
  clear h hp
  induction program generalizing w with
  | ret value => exact ⟨hsafe, hr⟩
  | raise exc => exact ⟨hsafe, hr⟩
  | await op resume ih =>
      intro choice answer w' hperform
      obtain ⟨hg, hrest⟩ := hsafe choice answer w' hperform
      have hr' := hguar w w' hi hg hr
      exact ⟨hg, fun w'' hrely hi'' =>
        ih answer w'' hi'' (hsteady hrely hi'' hr') (hrest w'' hrely hi'')⟩

theorem assume {p : Prop} {program : Program Op Ans Exc α}
    {Q : Except Exc α → World → Prop}
    (h : p → d.Triple perform tid P program Q) :
    d.Triple perform tid (fun w => p ∧ P w) program Q :=
  fun w hi hw => h hw.1 w hi hw.2

theorem exists_ {ι : Type} {P : ι → World → Prop}
    {program : Program Op Ans Exc α} {Q : Except Exc α → World → Prop}
    (h : ∀ i, d.Triple perform tid (P i) program Q) :
    d.Triple perform tid (fun w => ∃ i, P i w) program Q := by
  rintro w hi ⟨i, hw⟩
  exact h i w hi hw

end Triple

end Discipline

end PhotoAnalysis.Foundation

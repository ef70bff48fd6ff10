import PhotoAnalysis.Foundation.Pool

/-!
# One program among others

How a program goes to its end while other tasks change the world between its
operations: every operation with the world it found and the world it left.  The
ways a program is put together are the ways its executions fall apart, and each
turn of a task in a pool is an execution.
-/

namespace PhotoAnalysis.Foundation

variable {Op : Type} {Ans : Op → Type} {Exc Choice World α β : Type}

/-- An operation with its answer, and the world before and after it. -/
structure Moment (Op : Type) (Ans : Op → Type) (Exc World : Type) where
  before : World
  op : Op
  answer : Except Exc (Ans op)
  after : World

/-- What an operation does, and what the others can do meanwhile. -/
structure Scene (Op : Type) (Ans : Op → Type) (Exc Choice World : Type) where
  perform : (op : Op) → Choice → World → Option (Except Exc (Ans op) × World)
  rely : World → World → Prop

inductive Executes (scene : Scene Op Ans Exc Choice World) :
    Program Op Ans Exc α → World → List (Moment Op Ans Exc World) → Except Exc α →
      World → Prop where
  | ret (value : α) (w : World) : Executes scene (.ret value) w [] (.ok value) w
  | raise (exc : Exc) (w : World) : Executes scene (.raise exc) w [] (.error exc) w
  | await {op : Op} {resume : Except Exc (Ans op) → Program Op Ans Exc α}
      {w before after w' : World} {choice : Choice} {answer : Except Exc (Ans op)}
      {moments : List (Moment Op Ans Exc World)} {outcome : Except Exc α}
      (hrely : scene.rely w before)
      (hperform : scene.perform op choice before = some (answer, after))
      (hrest : Executes scene (resume answer) after moments outcome w') :
      Executes scene (.await op resume) w (⟨before, op, answer, after⟩ :: moments)
        outcome w'

namespace Executes

variable {scene : Scene Op Ans Exc Choice World} {program : Program Op Ans Exc α}
variable {w w' : World} {moments : List (Moment Op Ans Exc World)}

theorem of_ret {value : α} {outcome : Except Exc α}
    (h : Executes scene (.ret value) w moments outcome w') :
    moments = [] ∧ outcome = .ok value ∧ w' = w := by
  cases h
  exact ⟨rfl, rfl, rfl⟩

theorem of_raise {exc : Exc} {outcome : Except Exc α}
    (h : Executes scene (.raise exc : Program Op Ans Exc α) w moments outcome w') :
    moments = [] ∧ outcome = .error exc ∧ w' = w := by
  cases h
  exact ⟨rfl, rfl, rfl⟩

theorem of_bind {next : α → Program Op Ans Exc β} {outcome : Except Exc β}
    (h : Executes scene (program.bind next) w moments outcome w') :
    (∃ value first middle last, Executes scene program w first (.ok value) middle ∧
      Executes scene (next value) middle last outcome w' ∧ moments = first ++ last) ∨
    ∃ exc, outcome = .error exc ∧ Executes scene program w moments (.error exc) w' := by
  induction program generalizing w moments with
  | ret value => exact .inl ⟨value, [], w, moments, .ret value w, h, rfl⟩
  | raise exc =>
      obtain ⟨rfl, rfl, rfl⟩ := of_raise h
      exact .inr ⟨exc, rfl, .raise exc _⟩
  | await op resume ih =>
      cases h with
      | await hrely hperform hrest =>
          rcases ih _ hrest with ⟨value, first, middle, last, hfirst, hlast, rfl⟩ |
            ⟨exc, rfl, herror⟩
          · exact .inl ⟨value, _ :: first, middle, last, .await hrely hperform hfirst,
              hlast, rfl⟩
          · exact .inr ⟨exc, rfl, .await hrely hperform herror⟩

theorem of_attempt {outcome : Except Exc (Except Exc α)}
    (h : Executes scene program.attempt w moments outcome w') :
    ∃ inner, outcome = .ok inner ∧ Executes scene program w moments inner w' := by
  induction program generalizing w moments with
  | ret value =>
      obtain ⟨rfl, rfl, rfl⟩ := of_ret h
      exact ⟨_, rfl, .ret value _⟩
  | raise exc =>
      obtain ⟨rfl, rfl, rfl⟩ := of_ret h
      exact ⟨_, rfl, .raise exc _⟩
  | await op resume ih =>
      cases h with
      | await hrely hperform hrest =>
          obtain ⟨inner, rfl, hinner⟩ := ih _ hrest
          exact ⟨inner, rfl, .await hrely hperform hinner⟩

theorem of_call {op : Op} {outcome : Except Exc (Ans op)}
    (h : Executes scene (.call op) w moments outcome w') :
    ∃ before choice, moments = [⟨before, op, outcome, w'⟩] ∧ scene.rely w before ∧
      scene.perform op choice before = some (outcome, w') := by
  cases h with
  | @await _ _ _ before after _ choice answer rest _ hrely hperform hrest =>
      cases answer with
      | ok value =>
          obtain ⟨rfl, rfl, rfl⟩ := of_ret hrest
          exact ⟨before, choice, rfl, hrely, hperform⟩
      | error exc =>
          obtain ⟨rfl, rfl, rfl⟩ := of_raise hrest
          exact ⟨before, choice, rfl, hrely, hperform⟩

/-- A program whose first part has been attempted. -/
theorem of_attempt_bind {next : Except Exc α → Program Op Ans Exc β}
    {outcome : Except Exc β}
    (h : Executes scene (program.attempt.bind next) w moments outcome w') :
    ∃ inner first middle last, Executes scene program w first inner middle ∧
      Executes scene (next inner) middle last outcome w' ∧ moments = first ++ last := by
  rcases of_bind h with ⟨inner, first, middle, last, hfirst, hlast, heq⟩ |
    ⟨exc, -, herror⟩
  · obtain ⟨_, heq', hinner⟩ := of_attempt hfirst
    cases heq'
    exact ⟨inner, first, middle, last, hinner, hlast, heq⟩
  · obtain ⟨_, heq', -⟩ := of_attempt herror
    cases heq'

theorem of_tryExcept {catcher : Exc → Program Op Ans Exc α} {outcome : Except Exc α}
    (h : Executes scene (program.tryExcept catcher) w moments outcome w') :
    (∃ value, outcome = .ok value ∧ Executes scene program w moments (.ok value) w') ∨
    ∃ exc first middle last, Executes scene program w first (.error exc) middle ∧
      Executes scene (catcher exc) middle last outcome w' ∧ moments = first ++ last := by
  obtain ⟨inner, first, middle, last, hfirst, hlast, rfl⟩ := of_attempt_bind h
  cases inner with
  | ok value =>
      obtain ⟨rfl, rfl, rfl⟩ := of_ret hlast
      exact .inl ⟨value, rfl, by simpa using hfirst⟩
  | error exc => exact .inr ⟨exc, first, middle, last, hfirst, hlast, rfl⟩

/-- The last part has run, and the outcome is the body's unless that part raised. -/
theorem of_tryFinally {last : Program Op Ans Exc Unit} {outcome : Except Exc α}
    (h : Executes scene (program.tryFinally last) w moments outcome w') :
    ∃ inner first middle closing ended, Executes scene program w first inner middle ∧
      Executes scene last middle closing ended w' ∧ moments = first ++ closing ∧
        match ended with
        | .ok _ => outcome = inner
        | .error exc => outcome = .error exc := by
  obtain ⟨inner, first, middle, rest, hfirst, hrest, rfl⟩ := of_attempt_bind h
  rcases of_bind hrest with ⟨value, closing, after, none, hclosing, hnone, rfl⟩ |
    ⟨exc, rfl, hclosing⟩
  · have hended : none = [] ∧ outcome = inner ∧ w' = after := by
      cases inner with
      | ok value => exact of_ret hnone
      | error exc => exact of_raise hnone
    obtain ⟨rfl, rfl, rfl⟩ := hended
    exact ⟨_, first, middle, closing, .ok value, hfirst, hclosing, by simp, rfl⟩
  · exact ⟨inner, first, middle, rest, .error exc, hfirst, hclosing, rfl, rfl⟩

/-- What the others and the operations of a program preserve. -/
theorem preserve {P : World → Prop} {p : Op → Prop} {outcome : Except Exc α}
    (huses : program.Uses p) (hrely : ∀ {a b}, scene.rely a b → P a → P b)
    (hperform : ∀ {op choice a answer b}, p op →
      scene.perform op choice a = some (answer, b) → P a → P b)
    (h : Executes scene program w moments outcome w') (hw : P w) : P w' := by
  induction h with
  | ret | raise => exact hw
  | await hbetween hstep hrest ih =>
      exact ih (huses.2 _) (hperform huses.1 hstep (hrely hbetween hw))

/-- Fewer things can happen where more is known of the others. -/
theorem mono {rely : World → World → Prop} {outcome : Except Exc α}
    (hrely : ∀ a b, scene.rely a b → rely a b)
    (h : Executes scene program w moments outcome w') :
    Executes ⟨scene.perform, rely⟩ program w moments outcome w' := by
  induction h with
  | ret value => exact .ret value _
  | raise exc => exact .raise exc _
  | await hbetween hstep hrest ih => exact .await (hrely _ _ hbetween) hstep ih

/-- What the others do and what every operation does add up. -/
theorem spans {R : World → World → Prop} (hrefl : ∀ w, R w w)
    (htrans : ∀ {a b c}, R a b → R b c → R a c) (hrely : ∀ {a b}, scene.rely a b → R a b)
    (hperform : ∀ {op choice a answer b}, scene.perform op choice a = some (answer, b) →
      R a b) {outcome : Except Exc α} (h : Executes scene program w moments outcome w') :
    R w w' ∧ ∀ moment ∈ moments, R w moment.before ∧ R moment.after w' := by
  induction h with
  | ret | raise => exact ⟨hrefl _, nofun⟩
  | await hbetween hstep hrest ih =>
      have hbefore := hrely hbetween
      have hafter := htrans hbefore (hperform hstep)
      refine ⟨htrans hafter ih.1, fun moment hmem => ?_⟩
      rcases List.mem_cons.mp hmem with rfl | hmem
      · exact ⟨hbefore, ih.1⟩
      · exact ⟨htrans hafter (ih.2 moment hmem).1, (ih.2 moment hmem).2⟩

/-- The answers of the moments are those the operations have given. -/
theorem performed {outcome : Except Exc α}
    (h : Executes scene program w moments outcome w') : ∀ moment ∈ moments,
      ∃ choice, scene.perform moment.op choice moment.before =
        some (moment.answer, moment.after) := by
  induction h with
  | ret | raise => exact nofun
  | await hrely hperform hrest ih =>
      intro moment hmem
      rcases List.mem_cons.mp hmem with rfl | hmem
      · exact ⟨_, hperform⟩
      · exact ih moment hmem

end Executes

/-- The execution that a list of choices makes when nobody else does anything. -/
def Scene.drive (scene : Scene Op Ans Exc Choice World) :
    Program Op Ans Exc α → List Choice → World →
      Option (List (Moment Op Ans Exc World) × Except Exc α × World)
  | .ret value, _, w => some ([], .ok value, w)
  | .raise exc, _, w => some ([], .error exc, w)
  | .await op resume, choice :: choices, w =>
      (scene.perform op choice w).bind fun (answer, after) =>
        (scene.drive (resume answer) choices after).map fun (moments, result) =>
          (⟨w, op, answer, after⟩ :: moments, result)
  | .await _ _, [], _ => none

theorem Executes.of_drive {scene : Scene Op Ans Exc Choice World}
    (hrefl : ∀ w, scene.rely w w) {program : Program Op Ans Exc α}
    {choices : List Choice} {w w' : World} {moments : List (Moment Op Ans Exc World)}
    {outcome : Except Exc α}
    (h : scene.drive program choices w = some (moments, outcome, w')) :
    Executes scene program w moments outcome w' := by
  induction program generalizing choices w moments with
  | ret value =>
      cases h
      exact .ret value _
  | raise exc =>
      cases h
      exact .raise exc _
  | await op resume ih =>
      cases choices with
      | nil => cases h
      | cons choice choices =>
          simp only [Scene.drive, Option.bind_eq_some_iff, Option.map_eq_some_iff] at h
          obtain ⟨⟨answer, after⟩, hperform, ⟨rest, result⟩, hrest, heq⟩ := h
          cases heq
          exact .await (hrefl w) hperform (ih answer hrest)

/-! ## Halfway -/

/-- A program has come as far as `now`, and the others have gone on since. -/
inductive Partway (scene : Scene Op Ans Exc Choice World) :
    Program Op Ans Exc α → World → List (Moment Op Ans Exc World) →
      Program Op Ans Exc α → World → Prop where
  | here (program : Program Op Ans Exc α) {w w' : World} (hrely : scene.rely w w') :
      Partway scene program w [] program w'
  | await {op : Op} {resume : Except Exc (Ans op) → Program Op Ans Exc α}
      {w before after w' : World} {choice : Choice} {answer : Except Exc (Ans op)}
      {moments : List (Moment Op Ans Exc World)} {now : Program Op Ans Exc α}
      (hrely : scene.rely w before)
      (hperform : scene.perform op choice before = some (answer, after))
      (hrest : Partway scene (resume answer) after moments now w') :
      Partway scene (.await op resume) w (⟨before, op, answer, after⟩ :: moments)
        now w'

namespace Partway

variable {scene : Scene Op Ans Exc Choice World} {program now : Program Op Ans Exc α}
variable {w w' w'' : World} {moments : List (Moment Op Ans Exc World)}

theorem later (htrans : ∀ {a b c}, scene.rely a b → scene.rely b c → scene.rely a c)
    (h : Partway scene program w moments now w') (hrely : scene.rely w' w'') :
    Partway scene program w moments now w'' := by
  induction h with
  | here program hbetween => exact .here program (htrans hbetween hrely)
  | await hbetween hperform _ ih => exact .await hbetween hperform (ih hrely)

theorem perform (hrefl : ∀ w, scene.rely w w) {op : Op}
    {resume : Except Exc (Ans op) → Program Op Ans Exc α} {choice : Choice}
    {answer : Except Exc (Ans op)}
    (h : Partway scene program w moments (.await op resume) w')
    (hperform : scene.perform op choice w' = some (answer, w'')) :
    Partway scene program w (moments ++ [⟨w', op, answer, w''⟩]) (resume answer) w'' := by
  generalize hnow : Program.await op resume = now at h
  induction h with
  | here program hbetween =>
      subst hnow
      exact .await hbetween hperform (.here _ (hrefl _))
  | await hbetween hbefore _ ih => exact .await hbetween hbefore (ih hperform hnow)

/-- A program that has come to its end has been executed. -/
theorem executes {outcome : Except Exc α}
    (h : Partway scene program w moments (.ofExcept outcome) w') :
    ∃ w'', Executes scene program w moments outcome w'' ∧ scene.rely w'' w' := by
  generalize hnow : Program.ofExcept outcome = now at h
  induction h with
  | @here program w w' hrely =>
      subst hnow
      cases outcome with
      | ok value => exact ⟨w, .ret value w, hrely⟩
      | error exc => exact ⟨w, .raise exc w, hrely⟩
  | await hbetween hperform _ ih =>
      obtain ⟨w'', hexecutes, hrely⟩ := ih hnow
      exact ⟨w'', .await hbetween hperform hexecutes, hrely⟩

end Partway

/-! ## Turns of a task -/

namespace Machine

variable {Entry Reply External : Type}
variable (m : Machine Op Ans Exc Entry Reply Choice External World)

/-- Task `t` as the others let it run. -/
def scene (t : Tid) (rely : World → World → Prop) : Scene Op Ans Exc Choice World :=
  ⟨m.perform t, rely⟩

/--
The obligations that make every turn an execution: `idle` holds before a task's
start, and `ready` at the beginning of each of its turns.
-/
structure TakesTurns (rely : Tid → World → World → Prop) (idle : Tid → World → Prop)
    (ready : Tid → Entry → World → Prop) : Prop where
  refl : ∀ t w, rely t w w
  trans : ∀ {t a b c}, rely t a b → rely t b c → rely t a c
  idle_rely : ∀ {t w w'}, rely t w w' → idle t w → idle t w'
  opens : ∀ {t w} entry, idle t w → ready t entry (m.opened t entry w)
  again : ∀ {t entry w w' turn moments},
    turn = (m.routine entry).first ∨ turn = (m.routine entry).loop → ready t entry w →
      Executes (m.scene t (rely t)) turn w moments (.ok none) w' → ready t entry w'
  performs : ∀ {t u op choice w answer w'}, t ≠ u →
    m.perform u op choice w = some (answer, w') → rely t w w'
  opened : ∀ {t u} entry w, t ≠ u → rely t w (m.opened u entry w)
  closed : ∀ {t u} outcome w, t ≠ u → rely t w (m.closed u outcome w)
  external : ∀ t event w, rely t w (m.external event w)

/-- A task that runs is somewhere in a turn. -/
def InTurn (rely : Tid → World → World → Prop) (idle : Tid → World → Prop)
    (ready : Tid → Entry → World → Prop) (w : World) (t : Tid) :
    TaskState Op Ans Exc Reply → Prop
  | .fresh => idle t w
  | .running now loop => ∃ entry turn begun moments, loop = (m.routine entry).loop ∧
      (turn = (m.routine entry).first ∨ turn = (m.routine entry).loop) ∧
      ready t entry begun ∧ Partway (m.scene t (rely t)) turn begun moments now w
  | .ended => True

variable {m} {rely : Tid → World → World → Prop} {idle : Tid → World → Prop}
variable {ready : Tid → Entry → World → Prop}

theorem InTurn.later (hm : m.TakesTurns rely idle ready) {t : Tid}
    {state : TaskState Op Ans Exc Reply} {w w' : World} (hrely : rely t w w')
    (h : m.InTurn rely idle ready w t state) : m.InTurn rely idle ready w' t state := by
  cases state with
  | fresh => exact hm.idle_rely hrely h
  | running now loop =>
      obtain ⟨entry, turn, begun, moments, hloop, hturn, hready, hpart⟩ := h
      exact ⟨entry, turn, begun, moments, hloop, hturn, hready,
        hpart.later hm.trans hrely⟩
  | ended => trivial

/-- A task moves, and the others wait where they are. -/
theorem inTurn_set (hm : m.TakesTurns rely idle ready)
    {pool : Pool Op Ans Exc Reply World} {u : Tid} {w : World}
    {state : TaskState Op Ans Exc Reply}
    (h : ∀ t, m.InTurn rely idle ready pool.world t (pool.tasks t))
    (hrely : ∀ t, t ≠ u → rely t pool.world w)
    (hstate : m.InTurn rely idle ready w u state) (t : Tid) :
    m.InTurn rely idle ready w t ((pool.set w u state).tasks t) := by
  by_cases hsame : t = u
  · subst hsame
    rwa [Pool.set_tasks_self]
  · rw [Pool.set_tasks_of_ne _ _ _ hsame]
    exact (h t).later hm (hrely t hsame)

theorem inTurn_next (hm : m.TakesTurns rely idle ready)
    {pool pool' : Pool Op Ans Exc Reply World} {label : Label Entry Choice External}
    (h : ∀ t, m.InTurn rely idle ready pool.world t (pool.tasks t))
    (hnext : m.next pool label = some pool') :
    ∀ t, m.InTurn rely idle ready pool'.world t (pool'.tasks t) := by
  cases goes_of_next m hnext with
  | start u entry htask =>
      refine inTurn_set hm h (fun t hne => hm.opened entry _ hne) ?_
      have hidle := h u
      rw [htask] at hidle
      exact ⟨entry, _, _, [], rfl, .inl rfl, hm.opens entry hidle,
        .here _ (hm.refl ..)⟩
  | step u choice op resume loop answer world htask hperform =>
      refine inTurn_set hm h (fun t hne => hm.performs hne hperform) ?_
      have hrun := h u
      rw [htask] at hrun
      obtain ⟨entry, turn, begun, moments, hloop, hturn, hready, hpart⟩ := hrun
      exact ⟨entry, turn, begun, _, hloop, hturn, hready,
        hpart.perform (hm.refl u) hperform⟩
  | again u loop htask =>
      refine inTurn_set hm h (fun t _ => hm.refl t _) ?_
      have hrun := h u
      rw [htask] at hrun
      obtain ⟨entry, turn, begun, moments, hloop, hturn, hready, hpart⟩ := hrun
      have hend : Partway (m.scene u (rely u)) turn begun moments
        (.ofExcept (.ok none)) pool.world := hpart
      obtain ⟨w', hexecutes, hrely⟩ := hend.executes
      exact ⟨entry, loop, w', [], hloop, .inr hloop,
        hm.again hturn hready hexecutes, .here _ hrely⟩
  | returned u reply loop htask | raised u exc loop htask | crash u now loop htask =>
      exact inTurn_set hm h (fun t hne => hm.closed _ _ hne) trivial
  | external event => exact fun t => (h t).later hm (hm.external t event _)

/-- Whatever the schedule, a task that runs has executed its turn up to where it is. -/
theorem inTurn_of_leads (hm : m.TakesTurns rely idle ready)
    {pool pool' : Pool Op Ans Exc Reply World}
    (h : ∀ t, m.InTurn rely idle ready pool.world t (pool.tasks t))
    (hlead : m.Leads pool pool') :
    ∀ t, m.InTurn rely idle ready pool'.world t (pool'.tasks t) :=
  hlead.induct m
    (P := fun pool => ∀ t, m.InTurn rely idle ready pool.world t (pool.tasks t))
    (fun _ _ _ h hnext => inTurn_next hm h hnext) h

end Machine

end PhotoAnalysis.Foundation

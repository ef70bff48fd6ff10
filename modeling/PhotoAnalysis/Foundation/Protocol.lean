import PhotoAnalysis.Foundation.Pool

/-!
# Protocols

An automaton over operations says which of them a program may wait for in each
mode, and to which mode an answer leads.  A program that follows it tells by its
mode alone how far it has come.  A record of what the tasks of a pool have
performed is kept beside their run.
-/

namespace PhotoAnalysis.Foundation

variable {Op : Type} {Ans : Op → Type} {Exc α β Mode : Type}

/-- `next` is `none` for an answer that cannot come. -/
structure Protocol (Op : Type) (Ans : Op → Type) (Exc Mode : Type) where
  allowed : Mode → Op → Prop
  next : Mode → (op : Op) → Except Exc (Ans op) → Option Mode

namespace Program

def Follows (p : Protocol Op Ans Exc Mode) (post : Except Exc α → Mode → Prop) :
    Program Op Ans Exc α → Mode → Prop
  | .ret value, mode => post (.ok value) mode
  | .raise exc, mode => post (.error exc) mode
  | .await op resume, mode => p.allowed mode op ∧
      ∀ answer mode', p.next mode op answer = some mode' →
        (resume answer).Follows p post mode'

namespace Follows

variable {p : Protocol Op Ans Exc Mode} {post : Except Exc α → Mode → Prop}

theorem mono {post' : Except Exc α → Mode → Prop} {program : Program Op Ans Exc α}
    {mode : Mode} (h : program.Follows p post mode)
    (hpost : ∀ outcome mode, post outcome mode → post' outcome mode) :
    program.Follows p post' mode := by
  induction program generalizing mode with
  | ret value => exact hpost _ _ h
  | raise exc => exact hpost _ _ h
  | await op resume ih =>
      exact ⟨h.1, fun answer mode' hnext => ih answer (h.2 answer mode' hnext)⟩

theorem bind {program : Program Op Ans Exc α} {next : α → Program Op Ans Exc β}
    {mode : Mode} (mid : α → Mode → Prop) {post : Except Exc β → Mode → Prop}
    (h : program.Follows p (fun outcome mode =>
      match outcome with
      | .ok value => mid value mode
      | .error exc => post (.error exc) mode) mode)
    (hnext : ∀ value mode, mid value mode → (next value).Follows p post mode) :
    (program.bind next).Follows p post mode := by
  induction program generalizing mode with
  | ret value => exact hnext value mode h
  | raise exc => exact h
  | await op resume ih =>
      exact ⟨h.1, fun answer mode' hmode => ih answer (h.2 answer mode' hmode)⟩

theorem attempt {program : Program Op Ans Exc α} {mode : Mode}
    {post : Except Exc (Except Exc α) → Mode → Prop}
    (h : program.Follows p (fun outcome mode => post (.ok outcome) mode) mode) :
    program.attempt.Follows p post mode := by
  induction program generalizing mode with
  | ret value => exact h
  | raise exc => exact h
  | await op resume ih =>
      exact ⟨h.1, fun answer mode' hmode => ih answer (h.2 answer mode' hmode)⟩

theorem tryExcept {body : Program Op Ans Exc α}
    {handler : Exc → Program Op Ans Exc α} {mode : Mode} (fail : Exc → Mode → Prop)
    (h : body.Follows p (fun outcome mode =>
      match outcome with
      | .ok value => post (.ok value) mode
      | .error exc => fail exc mode) mode)
    (hhandler : ∀ exc mode, fail exc mode → (handler exc).Follows p post mode) :
    (body.tryExcept handler).Follows p post mode := by
  refine bind _ (attempt h) fun outcome mode hmode => ?_
  cases outcome with
  | ok value => exact hmode
  | error exc => exact hhandler exc mode hmode

theorem tryFinally {body : Program Op Ans Exc α} {last : Program Op Ans Exc Unit}
    {mode : Mode} (mid : Except Exc α → Mode → Prop) (h : body.Follows p mid mode)
    (hlast : ∀ outcome mode, mid outcome mode → last.Follows p (fun ended mode =>
      match ended with
      | .ok _ => post outcome mode
      | .error exc => post (.error exc) mode) mode) :
    (body.tryFinally last).Follows p post mode := by
  refine bind mid (attempt h) fun outcome mode hmode => ?_
  refine bind (fun _ => post outcome) ((hlast outcome mode hmode).mono ?_)
    fun _ mode hpost => ?_
  · rintro (exc | value) mode h <;> exact h
  · cases outcome with
    | ok value => exact hpost
    | error exc => exact hpost

theorem ofExcept {outcome : Except Exc α} {mode : Mode} (h : post outcome mode) :
    (ofExcept outcome : Program Op Ans Exc α).Follows p post mode := by
  cases outcome with
  | ok value => exact h
  | error exc => exact h

theorem call {op : Op} {mode : Mode} {post : Except Exc (Ans op) → Mode → Prop}
    (hallowed : p.allowed mode op)
    (h : ∀ answer mode', p.next mode op answer = some mode' → post answer mode') :
    (call op).Follows p post mode := by
  refine ⟨hallowed, fun answer mode' hnext => ?_⟩
  cases answer with
  | ok value => exact h _ _ hnext
  | error exc => exact h _ _ hnext

end Follows

/-- The program keeps to a set of modes, however it ends. -/
def Stays (p : Protocol Op Ans Exc Mode) (within : Mode → Prop)
    (program : Program Op Ans Exc α) : Prop :=
  ∀ mode, within mode → program.Follows p (fun _ mode' => within mode') mode

namespace Stays

variable {p : Protocol Op Ans Exc Mode} {within : Mode → Prop}

theorem ret (value : α) : Stays p within (ret value : Program Op Ans Exc α) :=
  fun _ h => h

theorem raise (exc : Exc) : Stays p within (raise exc : Program Op Ans Exc α) :=
  fun _ h => h

theorem bind {program : Program Op Ans Exc α} {next : α → Program Op Ans Exc β}
    (h : Stays p within program) (hnext : ∀ value, Stays p within (next value)) :
    Stays p within (program.bind next) := by
  refine fun mode hmode => Follows.bind (fun _ => within) ((h mode hmode).mono ?_)
    fun value mode' => hnext value mode'
  rintro (exc | value) mode' hmode' <;> exact hmode'

theorem attempt {program : Program Op Ans Exc α} (h : Stays p within program) :
    Stays p within program.attempt :=
  fun mode hmode => Follows.attempt (h mode hmode)

theorem tryExcept {body : Program Op Ans Exc α} {handler : Exc → Program Op Ans Exc α}
    (h : Stays p within body) (hhandler : ∀ exc, Stays p within (handler exc)) :
    Stays p within (body.tryExcept handler) := by
  refine h.attempt.bind fun outcome => ?_
  cases outcome with
  | ok value => exact ret value
  | error exc => exact hhandler exc

theorem tryFinally {body : Program Op Ans Exc α} {last : Program Op Ans Exc Unit}
    (h : Stays p within body) (hlast : Stays p within last) :
    Stays p within (body.tryFinally last) := by
  refine h.attempt.bind fun outcome => hlast.bind fun _ => ?_
  cases outcome with
  | ok value => exact ret value
  | error exc => exact raise exc

/-- Operations that the protocol allows in all of them and that change no mode. -/
theorem uses {q : Op → Prop} {program : Program Op Ans Exc α} (h : program.Uses q)
    (hq : ∀ op mode, within mode → q op → p.allowed mode op ∧
      ∀ answer mode', p.next mode op answer = some mode' → mode' = mode) :
    Stays p within program := by
  induction program with
  | ret value => exact ret value
  | raise exc => exact raise exc
  | await op resume ih =>
      intro mode hmode
      obtain ⟨hallowed, hstays⟩ := hq op mode hmode h.1
      refine ⟨hallowed, fun answer mode' hnext => ?_⟩
      cases hstays answer mode' hnext
      exact ih answer (h.2 answer) mode hmode

end Stays

end Program

/-! ## The record of a run -/

/-- What the tasks have performed, the latest first. -/
abbrev Trace (Op : Type) (Ans : Op → Type) (Exc : Type) :=
  List (Tid × Program.Performed Op Ans Exc)

namespace Machine

variable {Entry Reply Choice External World : Type}
variable (m : Machine Op Ans Exc Entry Reply Choice External World)

/-- The record after one more label. -/
def noted (pool : Pool Op Ans Exc Reply World) (trace : Trace Op Ans Exc) :
    Label Entry Choice External → Trace Op Ans Exc
  | .step tid choice =>
      match pool.tasks tid with
      | .running (.await op _) _ =>
          match m.perform tid op choice pool.world with
          | some (answer, _) => (tid, ⟨op, answer⟩) :: trace
          | none => trace
      | _ => trace
  | _ => trace

/-- A run from `first` with its record. -/
inductive Run (first : Pool Op Ans Exc Reply World) :
    Pool Op Ans Exc Reply World → Trace Op Ans Exc → Prop where
  | start : Run first first []
  | next {pool pool' : Pool Op Ans Exc Reply World} {trace : Trace Op Ans Exc}
      (label : Label Entry Choice External) (h : Run first pool trace)
      (hnext : m.next pool label = some pool') :
      Run first pool' (m.noted pool trace label)

theorem Run.leads {first pool : Pool Op Ans Exc Reply World} {trace : Trace Op Ans Exc}
    (h : m.Run first pool trace) : m.Leads first pool := by
  induction h with
  | start => exact ⟨[], rfl⟩
  | next label h hnext ih => exact Leads.trans m ih ⟨[label], by simp [follow, hnext]⟩

/-- Follow a schedule and keep the record. -/
def replay (pool : Pool Op Ans Exc Reply World) (trace : Trace Op Ans Exc) :
    List (Label Entry Choice External) →
      Option (Pool Op Ans Exc Reply World × Trace Op Ans Exc)
  | [] => some (pool, trace)
  | label :: schedule =>
      (m.next pool label).bind fun pool' =>
        replay pool' (m.noted pool trace label) schedule

theorem Run.replay {first pool pool' : Pool Op Ans Exc Reply World}
    {trace trace' : Trace Op Ans Exc} (h : m.Run first pool trace)
    {schedule : List (Label Entry Choice External)}
    (hreplay : m.replay pool trace schedule = some (pool', trace')) :
    m.Run first pool' trace' := by
  induction schedule generalizing pool trace with
  | nil =>
      cases hreplay
      exact h
  | cons label schedule ih =>
      simp only [Machine.replay, Option.bind_eq_some_iff] at hreplay
      obtain ⟨middle, hnext, hrest⟩ := hreplay
      exact ih (h.next label hnext) hrest

theorem follow_of_replay {pool pool' : Pool Op Ans Exc Reply World}
    {trace trace' : Trace Op Ans Exc}
    {schedule : List (Label Entry Choice External)}
    (h : m.replay pool trace schedule = some (pool', trace')) :
    m.follow pool schedule = some pool' := by
  induction schedule generalizing pool trace with
  | nil =>
      cases h
      rfl
  | cons label schedule ih =>
      simp only [Machine.replay, Option.bind_eq_some_iff] at h
      obtain ⟨middle, hnext, hrest⟩ := h
      simp only [follow, hnext, Option.bind_some]
      exact ih hrest

/-- A task that no label of a schedule starts has not begun. -/
theorem fresh_of_follow {pool pool' : Pool Op Ans Exc Reply World}
    {schedule : List (Label Entry Choice External)}
    (h : m.follow pool schedule = some pool') {tid : Tid}
    (hfresh : pool.tasks tid = .fresh) (hnone : ∀ entry, .start tid entry ∉ schedule) :
    pool'.tasks tid = .fresh := by
  induction schedule generalizing pool with
  | nil =>
      cases h
      exact hfresh
  | cons label schedule ih =>
      simp only [follow, Option.bind_eq_some_iff] at h
      obtain ⟨middle, hnext, hrest⟩ := h
      refine ih hrest ?_ fun entry hmem => hnone entry (.tail _ hmem)
      have hother : ∀ {other : Tid} {world : World} {task : TaskState Op Ans Exc Reply},
          tid ≠ other → (pool.set world other task).tasks tid = .fresh :=
        fun hne => (Pool.set_tasks_of_ne _ _ _ hne).trans hfresh
      cases goes_of_next m hnext with
      | start other entry htask =>
          refine hother fun heq => hnone entry ?_
          exact heq ▸ List.mem_cons_self
      | step other choice op resume loop answer world htask
      | again other loop htask | returned other reply loop htask
      | raised other exc loop htask | crash other now loop htask =>
          refine hother fun heq => ?_
          rw [← heq, hfresh] at htask
          cases htask
      | external event => exact hfresh

end Machine

end PhotoAnalysis.Foundation

import Mathlib.Data.List.Basic

/-!
# Programs that wait on their environment

A program is a tree of the operations it waits for.  Each operation is answered
by the environment, either with a value or with an exception, and the program
goes on from the answer.  Between two operations a program only computes, so
every point at which another task may run, or the process may die, is an
`await` node.
-/

namespace PhotoAnalysis.Foundation

inductive Program (Op : Type) (Ans : Op → Type) (Exc : Type) (α : Type) where
  | ret (value : α)
  | raise (exc : Exc)
  | await (op : Op) (resume : Except Exc (Ans op) → Program Op Ans Exc α)

namespace Program

variable {Op : Type} {Ans : Op → Type} {Exc α β σ : Type}

def bind : Program Op Ans Exc α → (α → Program Op Ans Exc β) →
    Program Op Ans Exc β
  | .ret value, next => next value
  | .raise exc, _ => .raise exc
  | .await op resume, next => .await op fun answer => (resume answer).bind next

instance : Monad (Program Op Ans Exc) where
  pure := .ret
  bind := bind

/-- Wait for one operation and pass its answer on. -/
def call (op : Op) : Program Op Ans Exc (Ans op) :=
  .await op fun
    | .ok value => .ret value
    | .error exc => .raise exc

/-- Run a program to its end and hand over how it ended. -/
def attempt : Program Op Ans Exc α → Program Op Ans Exc (Except Exc α)
  | .ret value => .ret (.ok value)
  | .raise exc => .ret (.error exc)
  | .await op resume => .await op fun answer => (resume answer).attempt

def ofExcept : Except Exc α → Program Op Ans Exc α
  | .ok value => .ret value
  | .error exc => .raise exc

/-- `try: body except ...`: the handler re-raises what it does not catch. -/
def tryExcept (body : Program Op Ans Exc α)
    (handler : Exc → Program Op Ans Exc α) : Program Op Ans Exc α :=
  body.attempt.bind fun
    | .ok value => .ret value
    | .error exc => handler exc

/-- `try: body finally: last`: an exception of `last` replaces the outcome. -/
def tryFinally (body : Program Op Ans Exc α)
    (last : Program Op Ans Exc Unit) : Program Op Ans Exc α :=
  body.attempt.bind fun outcome => last.bind fun _ => ofExcept outcome

@[simp] theorem pure_eq_ret (value : α) :
    (pure value : Program Op Ans Exc α) = .ret value := rfl

@[simp] theorem bind_eq (program : Program Op Ans Exc α)
    (next : α → Program Op Ans Exc β) :
    program >>= next = program.bind next := rfl

@[simp] theorem ret_bind (value : α) (next : α → Program Op Ans Exc β) :
    (ret value : Program Op Ans Exc α).bind next = next value := rfl

@[simp] theorem raise_bind (exc : Exc) (next : α → Program Op Ans Exc β) :
    (raise exc : Program Op Ans Exc α).bind next = .raise exc := rfl

theorem bind_assoc {γ : Type} (program : Program Op Ans Exc α)
    (next : α → Program Op Ans Exc β) (last : β → Program Op Ans Exc γ) :
    (program.bind next).bind last =
      program.bind fun value => (next value).bind last := by
  induction program with
  | ret value => rfl
  | raise exc => rfl
  | await op resume ih => exact congrArg (await op) (funext ih)

/-- What is caught of a sequence is caught of its first part or of its second. -/
theorem attempt_bind {γ : Type} (program : Program Op Ans Exc α)
    (next : α → Program Op Ans Exc β) (last : Except Exc β → Program Op Ans Exc γ) :
    (program.bind next).attempt.bind last = program.attempt.bind fun
      | .ok value => (next value).attempt.bind last
      | .error exc => last (.error exc) := by
  induction program with
  | ret value => rfl
  | raise exc => rfl
  | await op resume ih => exact congrArg (await op) (funext ih)

/-! ## The operations a program can wait for -/

def Uses (p : Op → Prop) : Program Op Ans Exc α → Prop
  | .ret _ => True
  | .raise _ => True
  | .await op resume => p op ∧ ∀ answer, (resume answer).Uses p

section

variable {p : Op → Prop}

@[simp] theorem uses_ret (value : α) :
    (ret value : Program Op Ans Exc α).Uses p := trivial

@[simp] theorem uses_raise (exc : Exc) :
    (raise exc : Program Op Ans Exc α).Uses p := trivial

@[simp] theorem uses_call {op : Op} :
    (call op : Program Op Ans Exc _).Uses p ↔ p op := by
  refine ⟨fun h => h.1, fun h => ⟨h, fun answer => ?_⟩⟩
  cases answer <;> trivial

@[simp] theorem uses_ofExcept (outcome : Except Exc α) :
    (ofExcept outcome : Program Op Ans Exc α).Uses p := by
  cases outcome <;> trivial

theorem Uses.mono {p' : Op → Prop} {program : Program Op Ans Exc α}
    (h : program.Uses p) (hp : ∀ op, p op → p' op) : program.Uses p' := by
  induction program with
  | ret value => trivial
  | raise exc => trivial
  | await op resume ih => exact ⟨hp op h.1, fun answer => ih answer (h.2 answer)⟩

theorem Uses.bind {program : Program Op Ans Exc α}
    {next : α → Program Op Ans Exc β} (h : program.Uses p)
    (hnext : ∀ value, (next value).Uses p) : (program.bind next).Uses p := by
  induction program with
  | ret value => exact hnext value
  | raise exc => trivial
  | await op resume ih => exact ⟨h.1, fun answer => ih answer (h.2 answer)⟩

theorem Uses.attempt {program : Program Op Ans Exc α} (h : program.Uses p) :
    program.attempt.Uses p := by
  induction program with
  | ret value => trivial
  | raise exc => trivial
  | await op resume ih => exact ⟨h.1, fun answer => ih answer (h.2 answer)⟩

theorem Uses.tryExcept {body : Program Op Ans Exc α}
    {handler : Exc → Program Op Ans Exc α} (h : body.Uses p)
    (hhandler : ∀ exc, (handler exc).Uses p) :
    (body.tryExcept handler).Uses p := by
  refine h.attempt.bind fun outcome => ?_
  cases outcome with
  | ok value => trivial
  | error exc => exact hhandler exc

theorem Uses.tryFinally {body : Program Op Ans Exc α}
    {last : Program Op Ans Exc Unit} (h : body.Uses p) (hlast : last.Uses p) :
    (body.tryFinally last).Uses p :=
  h.attempt.bind fun outcome => hlast.bind fun _ => uses_ofExcept outcome

end

/-! ## Running a program against a scripted environment -/

/--
A handler answers every operation at once, from a state of its own.  It is how
a single call is examined by itself: against a database that is up, or against
a fixed assignment of an outcome to each operation.
-/
abbrev Handler (Op : Type) (Ans : Op → Type) (Exc σ : Type) :=
  (op : Op) → σ → Except Exc (Ans op) × σ

def run (handler : Handler Op Ans Exc σ) :
    Program Op Ans Exc α → σ → Except Exc α × σ
  | .ret value, s => (.ok value, s)
  | .raise exc, s => (.error exc, s)
  | .await op resume, s =>
      (resume (handler op s).1).run handler (handler op s).2

variable (handler : Handler Op Ans Exc σ)

@[simp] theorem run_ret (value : α) (s : σ) :
    (ret value : Program Op Ans Exc α).run handler s = (.ok value, s) := rfl

@[simp] theorem run_raise (exc : Exc) (s : σ) :
    (raise exc : Program Op Ans Exc α).run handler s = (.error exc, s) := rfl

theorem run_await (op : Op)
    (resume : Except Exc (Ans op) → Program Op Ans Exc α) (s : σ) :
    (await op resume).run handler s =
      (resume (handler op s).1).run handler (handler op s).2 := rfl

theorem run_bind (program : Program Op Ans Exc α)
    (next : α → Program Op Ans Exc β) (s : σ) :
    (program.bind next).run handler s =
      match program.run handler s with
      | (.ok value, s') => (next value).run handler s'
      | (.error exc, s') => (.error exc, s') := by
  induction program generalizing s with
  | ret value => rfl
  | raise exc => rfl
  | await op resume ih => exact ih _ _

theorem run_call (op : Op) (s : σ) :
    (call op : Program Op Ans Exc _).run handler s = handler op s := by
  simp only [call, run_await]
  rcases h : handler op s with ⟨answer | answer, s'⟩ <;> rfl

theorem run_attempt (program : Program Op Ans Exc α) (s : σ) :
    program.attempt.run handler s =
      (.ok (program.run handler s).1, (program.run handler s).2) := by
  induction program generalizing s with
  | ret value => rfl
  | raise exc => rfl
  | await op resume ih => exact ih _ _

theorem run_tryExcept (body : Program Op Ans Exc α)
    (catcher : Exc → Program Op Ans Exc α) (s : σ) :
    (body.tryExcept catcher).run handler s =
      match body.run handler s with
      | (.ok value, s') => (.ok value, s')
      | (.error exc, s') => (catcher exc).run handler s' := by
  simp only [tryExcept, run_bind, run_attempt]
  rcases body.run handler s with ⟨answer | answer, s'⟩ <;> rfl

theorem run_ofExcept (outcome : Except Exc α) (s : σ) :
    (ofExcept outcome : Program Op Ans Exc α).run handler s = (outcome, s) := by
  cases outcome <;> rfl

theorem run_tryFinally (body : Program Op Ans Exc α)
    (last : Program Op Ans Exc Unit) (s : σ) :
    (body.tryFinally last).run handler s =
      match last.run handler (body.run handler s).2 with
      | (.ok _, s') => ((body.run handler s).1, s')
      | (.error exc, s') => (.error exc, s') := by
  simp only [tryFinally, run_bind, run_attempt, run_ofExcept]
  rcases last.run handler (body.run handler s).2 with ⟨answer | answer, s'⟩ <;> rfl

/-! ## The exceptions a program lets through -/

/-- Whatever the program raises, from wherever it starts, satisfies `p`. -/
def RaisesOnly (p : Exc → Prop) (program : Program Op Ans Exc α) : Prop :=
  ∀ s exc, (program.run handler s).1 = .error exc → p exc

namespace RaisesOnly

variable {handler} {p : Exc → Prop}

theorem ret (value : α) :
    (ret value : Program Op Ans Exc α).RaisesOnly handler p :=
  fun _ _ h => nomatch h

theorem raise {exc : Exc} (h : p exc) :
    (raise exc : Program Op Ans Exc α).RaisesOnly handler p :=
  fun _ _ heq => Except.error.inj heq ▸ h

theorem call {op : Op} (h : ∀ s exc, (handler op s).1 = .error exc → p exc) :
    (call op : Program Op Ans Exc _).RaisesOnly handler p := by
  intro s exc heq
  rw [run_call] at heq
  exact h s exc heq

theorem bind {program : Program Op Ans Exc α} {next : α → Program Op Ans Exc β}
    (h : program.RaisesOnly handler p)
    (hnext : ∀ value, (next value).RaisesOnly handler p) :
    (program.bind next).RaisesOnly handler p := by
  intro s exc heq
  rw [run_bind] at heq
  cases hrun : program.run handler s with
  | mk outcome s' =>
      rw [hrun] at heq
      cases outcome with
      | ok value => exact hnext value s' exc heq
      | error exc' =>
          have hexc : exc' = exc := Except.error.inj heq
          exact h s exc (by rw [hrun, hexc])

theorem tryFinally {body : Program Op Ans Exc α} {last : Program Op Ans Exc Unit}
    (h : body.RaisesOnly handler p) (hlast : last.RaisesOnly handler p) :
    (body.tryFinally last).RaisesOnly handler p := by
  intro s exc heq
  rw [run_tryFinally] at heq
  cases hrun : last.run handler (body.run handler s).2 with
  | mk outcome s' =>
      rw [hrun] at heq
      cases outcome with
      | ok value => exact h s exc heq
      | error exc' =>
          have hexc : exc' = exc := Except.error.inj heq
          exact hlast _ exc (by rw [hrun, hexc])

/-- A program that lets no exception through returns. -/
theorem returns {program : Program Op Ans Exc Unit}
    (h : program.RaisesOnly handler fun _ => False) (s : σ) :
    (program.run handler s).1 = .ok () := by
  cases hrun : (program.run handler s).1 with
  | ok value => rfl
  | error exc => exact (h s exc hrun).elim

/-- A last step that always returns leaves the outcome of the body. -/
theorem outcome_tryFinally {body : Program Op Ans Exc α} {last : Program Op Ans Exc Unit}
    (h : last.RaisesOnly handler fun _ => False) (s : σ) :
    ((body.tryFinally last).run handler s).1 = (body.run handler s).1 := by
  have hreturns := h.returns (body.run handler s).2
  rw [run_tryFinally]
  rcases hrun : last.run handler (body.run handler s).2 with ⟨answer | answer, s'⟩
  · rw [hrun] at hreturns
    cases hreturns
  · rfl

end RaisesOnly

/-! ## What a run ends in -/

/-- From every state that satisfies `P` the run ends in `Q`. -/
def Ends (handler : Handler Op Ans Exc σ) (P : σ → Prop)
    (program : Program Op Ans Exc α) (Q : Except Exc α → σ → Prop) : Prop :=
  ∀ s, P s → Q (program.run handler s).1 (program.run handler s).2

namespace Ends

variable {handler} {P : σ → Prop}

theorem ret {value : α} {Q : Except Exc α → σ → Prop}
    (h : ∀ s, P s → Q (.ok value) s) :
    Ends handler P (.ret value : Program Op Ans Exc α) Q :=
  h

theorem raise {exc : Exc} {Q : Except Exc α → σ → Prop}
    (h : ∀ s, P s → Q (.error exc) s) :
    Ends handler P (.raise exc : Program Op Ans Exc α) Q :=
  h

theorem call {op : Op} {Q : Except Exc (Ans op) → σ → Prop}
    (h : ∀ s, P s → Q (handler op s).1 (handler op s).2) :
    Ends handler P (Program.call op : Program Op Ans Exc _) Q := by
  intro s hs
  rw [run_call]
  exact h s hs

theorem given {fact : Prop} {program : Program Op Ans Exc α}
    {Q : Except Exc α → σ → Prop} (h : fact → Ends handler P program Q) :
    Ends handler (fun s => fact ∧ P s) program Q :=
  fun s hs => h hs.1 s hs.2

theorem pre {P' : σ → Prop} {program : Program Op Ans Exc α}
    {Q : Except Exc α → σ → Prop} (h : Ends handler P program Q)
    (hp : ∀ s, P' s → P s) : Ends handler P' program Q :=
  fun s hs => h s (hp s hs)

theorem post {program : Program Op Ans Exc α} {Q Q' : Except Exc α → σ → Prop}
    (h : Ends handler P program Q) (hq : ∀ outcome s, Q outcome s → Q' outcome s) :
    Ends handler P program Q' :=
  fun s hs => hq _ _ (h s hs)

theorem bind {program : Program Op Ans Exc α} {next : α → Program Op Ans Exc β}
    {Q : Except Exc β → σ → Prop} (mid : α → σ → Prop)
    (h : Ends handler P program fun outcome s => match outcome with
      | .ok value => mid value s
      | .error exc => Q (.error exc) s)
    (hnext : ∀ value, Ends handler (mid value) (next value) Q) :
    Ends handler P (program.bind next) Q := by
  intro s hs
  have hprogram := h s hs
  rw [run_bind]
  cases hrun : program.run handler s with
  | mk outcome s' =>
      rw [hrun] at hprogram
      cases outcome with
      | ok value => exact hnext value s' hprogram
      | error exc => exact hprogram

theorem attempt {program : Program Op Ans Exc α}
    {Q : Except Exc (Except Exc α) → σ → Prop}
    (h : Ends handler P program fun outcome => Q (.ok outcome)) :
    Ends handler P program.attempt Q := by
  intro s hs
  rw [run_attempt]
  exact h s hs

theorem tryExcept {body : Program Op Ans Exc α}
    {catcher : Exc → Program Op Ans Exc α} {Q : Except Exc α → σ → Prop}
    (mid : Exc → σ → Prop)
    (h : Ends handler P body fun outcome s => match outcome with
      | .ok value => Q (.ok value) s
      | .error exc => mid exc s)
    (hcatch : ∀ exc, Ends handler (mid exc) (catcher exc) Q) :
    Ends handler P (body.tryExcept catcher) Q := by
  intro s hs
  have hbody := h s hs
  rw [run_tryExcept]
  cases hrun : body.run handler s with
  | mk outcome s' =>
      rw [hrun] at hbody
      cases outcome with
      | ok value => exact hbody
      | error exc => exact hcatch exc s' hbody

/-- The run returns into `post` or raises into `fail`. -/
def Exits (post : α → σ → Prop) (fail : Exc → σ → Prop) :
    Except Exc α → σ → Prop
  | .ok value => post value
  | .error exc => fail exc

section

variable {fail' : Exc → σ → Prop}

theorem exits_bind {program : Program Op Ans Exc α}
    {next : α → Program Op Ans Exc β} {post : β → σ → Prop} (mid : α → σ → Prop)
    (fail : Exc → σ → Prop) (h : Ends handler P program (Exits mid fail))
    (hnext : ∀ value, Ends handler (mid value) (next value) (Exits post fail'))
    (hfail : ∀ exc s, fail exc s → fail' exc s) :
    Ends handler P (program.bind next) (Exits post fail') := by
  refine .bind mid (h.post ?_) hnext
  rintro (exc | value) s hs
  · exact hfail exc s hs
  · exact hs

theorem exits_tryExcept {body : Program Op Ans Exc α}
    {catcher : Exc → Program Op Ans Exc α} {post : α → σ → Prop}
    (fail : Exc → σ → Prop) (h : Ends handler P body (Exits post fail))
    (hcatch : ∀ exc, Ends handler (fail exc) (catcher exc) (Exits post fail')) :
    Ends handler P (body.tryExcept catcher) (Exits post fail') := by
  refine .tryExcept fail (h.post ?_) hcatch
  rintro (exc | value) s hs <;> exact hs

end

end Ends

/-! ## Keeping a log -/

/-- An operation with its answer. -/
abbrev Performed (Op : Type) (Ans : Op → Type) (Exc : Type) :=
  (op : Op) × Except Exc (Ans op)

/-- The handler that also keeps a log of what was performed, oldest first. -/
def logged (handler : Handler Op Ans Exc σ) :
    Handler Op Ans Exc (σ × List (Performed Op Ans Exc)) :=
  fun op s =>
    ((handler op s.1).1, (handler op s.1).2, s.2 ++ [⟨op, (handler op s.1).1⟩])

/-! ## One answer at a time -/

open Classical in
/-- What is left of a program that waits for `op` when it is answered. -/
noncomputable def after (op : Op) (answer : Except Exc (Ans op)) :
    Program Op Ans Exc α → Program Op Ans Exc α
  | .await op' resume => if h : op = op' then resume (h ▸ answer) else .await op' resume
  | program => program

@[simp] theorem after_await (op : Op) (answer : Except Exc (Ans op))
    (resume : Except Exc (Ans op) → Program Op Ans Exc α) :
    (await op resume).after op answer = resume answer := by
  simp [after]

end Program

end PhotoAnalysis.Foundation

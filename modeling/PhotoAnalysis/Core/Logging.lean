import PhotoAnalysis.Foundation.Json

/-!
# The interpreter and its log

A value can be nested too deep for a library call that walks through it, which
then raises a `RecursionError`.  How deep that is depends on the interpreter, on
the call and on what it is called from.  A log handler passes this error on and
keeps every other one to itself.
-/

namespace PhotoAnalysis

open Foundation

/-- The levels at which the consumer loop logs. -/
inductive LogLevel where
  | warning
  | error
  deriving DecidableEq, Repr

/-- What the interpreter and the set-up of its log can deal with. -/
structure Interpreter where
  /-- how many arrays and objects `json.loads` can have open at once -/
  nesting : Nat
  /-- whether `str(value)` returns -/
  shows : Json → Bool
  /-- whether a log call returns that has the value among its fields; below the
  level of the log every call does -/
  logs : LogLevel → Json → Bool
  nesting_pos : 0 < nesting
  logs_str : ∀ level text, logs level (.str text) = true

/-- An interpreter that goes `limit` arrays and objects deep, and into one at least. -/
def Interpreter.ofLimit (limit : Nat) : Interpreter where
  nesting := max 1 limit
  shows := fun value => value.depth ≤ max 1 limit
  logs := fun _ value => value.depth ≤ max 1 limit
  nesting_pos := Nat.le_max_left 1 limit
  logs_str := fun _ _ => decide_eq_true (Nat.zero_le _)

end PhotoAnalysis

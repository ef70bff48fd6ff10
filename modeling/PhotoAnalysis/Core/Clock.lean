import PhotoAnalysis.Db.Models

/-!
# Timestamps as text

`datetime.isoformat()` of a time zone aware timestamp in UTC.
-/

namespace PhotoAnalysis.Time

open Foundation Text

/-- Year, month and day of a day of the proleptic Gregorian calendar. -/
def civil (days : Nat) : Nat × Nat × Nat :=
  let z := days + 719468
  let era := z / 146097
  let doe := z % 146097
  let yoe := (doe - doe / 1460 + doe / 36524 - doe / 146096) / 365
  let doy := doe - (365 * yoe + yoe / 4 - yoe / 100)
  let mp := (5 * doy + 2) / 153
  let month := if mp < 10 then mp + 3 else mp - 9
  let year := yoe + era * 400 + if month ≤ 2 then 1 else 0
  (year, month, doy - (153 * mp + 2) / 5 + 1)

/-- The fraction of a second is left out when it is zero. -/
def isoformat (t : Time) : Str :=
  let seconds := t / 1000000
  let (year, month, day) := civil (seconds / 86400)
  decimalDigits 4 year ++ 45 :: decimalDigits 2 month ++
    45 :: decimalDigits 2 day ++ 84 :: decimalDigits 2 (seconds / 3600 % 24) ++
    58 :: decimalDigits 2 (seconds / 60 % 60) ++
    58 :: decimalDigits 2 (seconds % 60) ++
    (if t % 1000000 = 0 then [] else 46 :: decimalDigits 6 (t % 1000000)) ++
    py "+00:00"

example : isoformat 1784246400250000 = py "2026-07-17T00:00:00.250000+00:00" := by
  decide

theorem mem_isoformat {t : Time} {c : Nat} (h : c ∈ isoformat t) :
    43 ≤ c ∧ c ≤ 84 := by
  have hdigits : ∀ {width n : Nat}, c ∈ decimalDigits width n →
      43 ≤ c ∧ c ≤ 84 := by
    intro width n hc
    have := mem_decimalDigits hc
    omega
  have hzone : c ∈ py "+00:00" → 43 ≤ c ∧ c ≤ 84 := by
    have : ∀ d ∈ py "+00:00", 43 ≤ d ∧ d ≤ 84 := by decide
    exact this c
  simp only [isoformat, List.mem_append, List.mem_cons] at h
  split at h <;> grind

end PhotoAnalysis.Time

import PhotoAnalysis.Foundation.Sha256
import PhotoAnalysis.World

/-!
# The analyzer stub

The server that stands in for the analyzer: its answer is a function of the object
key alone.
-/

namespace PhotoAnalysis

open Foundation

namespace Double

/-- The integer next to `m / n`, the even one of two. -/
def nearest (m n : Nat) : Nat :=
  let rest := 2 * (m % n)
  if rest < n ∨ rest = n ∧ m / n % 2 = 0 then m / n else m / n + 1

/-- The exponent `e` with `2 ^ e ≤ m / n < 2 ^ (e + 1)`. -/
def exponent (m n : Nat) : Int :=
  let e : Int := m.log2 - n.log2
  if n * 2 ^ e.toNat ≤ m * 2 ^ (-e).toNat then e else e - 1

/-- The double next to `m / n`, where that is zero or a normal number. -/
def quotient (m n : Nat) : Double :=
  if m = 0 then 0
  else
    let e := exponent m n
    let significand := nearest (m * 2 ^ (52 - e).toNat) (n * 2 ^ (e - 52).toNat)
    BitVec.ofNat 64 ((e + 1023).toNat * 2 ^ 52 + significand - 2 ^ 52)

end Double

namespace AnalyzerStub

/-- `digest.hex()` -/
def hex (bytes : Bytes) : Str := bytes.flatMap fun byte => Text.hexDigits 2 byte.toNat

/-- `int.from_bytes(digest[1:3], "big") % 1001` -/
def blurStep (digest : Bytes) : Nat := Sha256.number ((digest.drop 1).take 2) % 1001

/-- `_analyze`, from the digest on. -/
def answer (digest : Bytes) : AnalyzePhotoResponse where
  facesCount := ((digest.getD 0 0).toNat % 6 : Nat)
  isBlurred := Double.lt (Double.quotient 6 10) (Double.quotient (blurStep digest) 1000)
  blurScore := Double.quotient (blurStep digest) 1000
  perceptualHash := (hex digest).take 16

def analyze (objectKey : Str) : Except PyExc AnalyzePhotoResponse :=
  match Text.utf8Encode objectKey with
  | some bytes => .ok (answer (Sha256.digest bytes))
  | none => .error (.value (py "surrogates not allowed"))

/-! ## What it answers -/

theorem blurStep_le (digest : Bytes) : blurStep digest ≤ 1000 :=
  Nat.le_of_lt_succ (Nat.mod_lt _ (by decide))

/-- The scores 0.000, 0.001, .. 1.000 are in order as doubles, and none is NaN. -/
theorem lt_score {j k : Nat} (hj : j ≤ 1000) (hk : k ≤ 1000) :
    Double.lt (Double.quotient j 1000) (Double.quotient k 1000) = decide (j < k) := by
  have hstep : ∀ i < 1000, Double.rank (Double.quotient i 1000) <
      Double.rank (Double.quotient (i + 1) 1000) := by decide +kernel
  have hnumber : ∀ i ≤ 1000, Double.isNaN (Double.quotient i 1000) = false := by
    decide +kernel
  have hmono : ∀ d i, i + d ≤ 1000 → 0 < d → Double.rank (Double.quotient i 1000) <
      Double.rank (Double.quotient (i + d) 1000) := by
    intro d i hle hpos
    induction d with
    | zero => cases hpos
    | succ d ih =>
        have hlast := hstep (i + d) (by omega)
        cases d with
        | zero => exact hlast
        | succ d => exact (ih (by omega) (Nat.succ_pos d)).trans hlast
  simp only [Double.lt, hnumber j hj, hnumber k hk, Bool.not_false, Bool.true_and]
  refine decide_eq_decide.mpr ⟨fun hrank => ?_, fun hlt => ?_⟩
  · by_contra hge
    rcases Nat.lt_or_eq_of_le (Nat.le_of_not_lt hge) with hlt | rfl
    · have hlt' := hmono (j - k) k (by omega) (by omega)
      rw [Nat.add_sub_cancel' hlt.le] at hlt'
      omega
    · exact absurd hrank (Int.lt_irrefl _)
  · have hlt' := hmono (k - j) j (by omega) (by omega)
    rwa [Nat.add_sub_cancel' hlt.le] at hlt'

/-- `blur_score > 0.6` exactly from 0.601 on. -/
theorem isBlurred_answer (digest : Bytes) :
    (answer digest).isBlurred = decide (600 < blurStep digest) := by
  have hlimit : Double.quotient 6 10 = Double.quotient 600 1000 := by decide +kernel
  rw [answer, hlimit]
  exact lt_score (by decide) (blurStep_le digest)

end AnalyzerStub

end PhotoAnalysis

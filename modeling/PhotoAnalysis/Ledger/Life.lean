import PhotoAnalysis.Repositories
import PhotoAnalysis.Services.BatchService

/-!
# The life of a photo

What the status, attempt, error and result columns of a photo mean together.
`Life M` is the abstract state of one photo when at most `M` attempts are made:
its constructors carry the bounds, so that a value outside them cannot be
written down.  `Shows` connects a life to the rows that represent it.
-/

namespace PhotoAnalysis

open Foundation

inductive Life (M : Nat) where
  | pending
  | claimed
  | retrying (n : Nat) (code message : Str) (h : 1 ≤ n ∧ n ≤ M)
  | done (n : Nat) (result : AnalyzePhotoResponse) (h : 1 ≤ n ∧ n ≤ M)
  | failed (n : Nat) (code message : Str) (h : min 1 M ≤ n ∧ n ≤ M)

namespace Life

variable {M : Nat}

def status : Life M → PhotoStatus
  | pending => .pending
  | claimed => .processing
  | retrying _ _ _ _ => .processing
  | done _ _ _ => .done
  | failed _ _ _ _ => .failed

def attempts : Life M → Nat
  | pending => 0
  | claimed => 0
  | retrying n _ _ _ => n
  | done n _ _ => n
  | failed n _ _ _ => n

def error : Life M → Option (Str × Str)
  | retrying _ code message _ => some (code, message)
  | failed _ code message _ => some (code, message)
  | _ => none

def result : Life M → Option AnalyzePhotoResponse
  | done _ result _ => some result
  | _ => none

/-- How many attempts have failed, for a photo that is being processed. -/
def tried : Life M → Option Nat
  | claimed => some 0
  | retrying n _ _ _ => some n
  | _ => none

/-- What one committed transaction of a worker can do. -/
inductive Next : Life M → Life M → Prop
  | claim : Next pending claimed
  | attempt {life : Life M} {n code message h} (ht : life.tried = some n) :
      Next life (retrying (n + 1) code message h)
  | done {life : Life M} {n result h} (ht : life.tried = some n) :
      Next life (done (n + 1) result h)
  | fail {life : Life M} {n code message h} (ht : life.tried = some n) :
      Next life (failed n code message h)

theorem status_of_tried {life : Life M} {n : Nat} (h : life.tried = some n) :
    life.status = .processing ∧ life.attempts = n ∧ life.result = none := by
  cases life <;> simp_all [tried, status, attempts, result]

theorem le_of_tried {life : Life M} {n : Nat} (h : life.tried = some n) : n ≤ M := by
  cases life with
  | pending => simp [tried] at h
  | claimed =>
      cases h
      exact Nat.zero_le M
  | retrying m code message hm =>
      cases h
      exact hm.2
  | done m result hm => simp [tried] at h
  | failed m code message hm => simp [tried] at h

theorem eq_pending {life : Life M} (h : life.status = .pending) :
    life = pending := by
  cases life <;> simp_all [status]

end Life

/-! ## Rows that show a life -/

def AnalysisResult.response (row : AnalysisResult) : AnalyzePhotoResponse :=
  ⟨row.facesCount, row.isBlurred, row.blurScore, row.perceptualHash⟩

/-- What the columns keep of an answer. -/
def AnalyzePhotoResponse.stored (response : AnalyzePhotoResponse) :
    AnalyzePhotoResponse :=
  { response with perceptualHash := Column.cut 64 response.perceptualHash }

/-- The columns the worker writes. -/
def Photo.progress (photo : Photo) :
    PhotoStatus × Nat × Option Str × Option Str :=
  (photo.status, photo.attempts, photo.lastErrorCode, photo.lastErrorMessage)

/-- The columns nobody writes after the insert. -/
def Photo.identity (photo : Photo) :
    UUID × Str × Str × Time × Option Str × Option UUID :=
  (photo.photoId, photo.filename, photo.objectKey, photo.createdAt,
    photo.traceId, photo.batchId)

def Life.progress {M : Nat} (life : Life M) :
    PhotoStatus × Nat × Option Str × Option Str :=
  (life.status, life.attempts, life.error.map Prod.fst, life.error.map Prod.snd)

structure Life.Shows {M : Nat} (life : Life M) (loaded : LoadedPhoto) : Prop where
  progress : loaded.photo.progress = life.progress
  result : loaded.analysis.map AnalysisResult.response = life.result

theorem Life.Shows.status {M : Nat} {life : Life M} {loaded : LoadedPhoto}
    (h : life.Shows loaded) : loaded.photo.status = life.status :=
  congrArg Prod.fst h.progress

theorem Photo.identity_eq {p q : Photo} (h : p.identity = q.identity) :
    p.photoId = q.photoId ∧ p.filename = q.filename ∧
      p.objectKey = q.objectKey ∧ p.createdAt = q.createdAt ∧
      p.traceId = q.traceId ∧ p.batchId = q.batchId := by
  simpa [identity] using h

@[simp] theorem Photo.identity_set (values : PhotoValues) (photo : Photo) :
    (photo.set values).identity = photo.identity := rfl

/-! ## Later states of a photo -/

namespace PhotoStatus

/-- The edges of pending → processing → (done | failed). -/
inductive Step : PhotoStatus → PhotoStatus → Prop
  | claim : Step pending processing
  | done : Step processing done
  | fail : Step processing failed

def terminal (status : PhotoStatus) : Prop := status = .done ∨ status = .failed

instance (status : PhotoStatus) : Decidable status.terminal :=
  inferInstanceAs (Decidable (_ ∨ _))

theorem terminal_iff {status : PhotoStatus} :
    BatchService.terminal status = true ↔ status.terminal := by
  simp [BatchService.terminal, terminal]

end PhotoStatus

/-- What a photo that is `a` at some time can be at a later time. -/
structure LoadedPhoto.Later (a b : LoadedPhoto) : Prop where
  identity : b.photo.identity = a.photo.identity
  sent : a.photo.publishStatus = .sent → b.photo.publishStatus = .sent
  claimed : a.photo.status ≠ .pending → b.photo.status ≠ .pending
  final : a.photo.status.terminal →
    b.photo.progress = a.photo.progress ∧ b.analysis = a.analysis

namespace LoadedPhoto.Later

variable {a b c : LoadedPhoto}

theorem refl (a : LoadedPhoto) : Later a a := ⟨rfl, id, id, fun _ => ⟨rfl, rfl⟩⟩

theorem trans (hab : Later a b) (hbc : Later b c) : Later a c where
  identity := hbc.identity.trans hab.identity
  sent := hbc.sent ∘ hab.sent
  claimed := hbc.claimed ∘ hab.claimed
  final := by
    intro ha
    obtain ⟨hprogress, hanalysis⟩ := hab.final ha
    have hb : b.photo.status.terminal := by
      rw [show b.photo.status = a.photo.status from congrArg Prod.fst hprogress]
      exact ha
    obtain ⟨hprogress', hanalysis'⟩ := hbc.final hb
    exact ⟨hprogress'.trans hprogress, hanalysis'.trans hanalysis⟩

theorem photoId (h : Later a b) : b.photo.photoId = a.photo.photoId :=
  (Photo.identity_eq h.identity).1

end LoadedPhoto.Later

/--
What a reader got as `a` and what is `b` now: the same photo, and the same in
all a reader is told if it was terminal.
-/
structure LoadedPhoto.ReadOf (a b : LoadedPhoto) : Prop where
  identity : b.photo.identity = a.photo.identity
  final : a.photo.status.terminal →
    b.photo.progress = a.photo.progress ∧ b.analysis = a.analysis

namespace LoadedPhoto.ReadOf

variable {a b c : LoadedPhoto}

theorem of_later (h : Later a b) : ReadOf a b := ⟨h.identity, h.final⟩

theorem trans (hab : ReadOf a b) (hbc : Later b c) : ReadOf a c where
  identity := hbc.identity.trans hab.identity
  final := by
    intro ha
    obtain ⟨hprogress, hanalysis⟩ := hab.final ha
    have hb : b.photo.status.terminal := by
      rw [show b.photo.status = a.photo.status from congrArg Prod.fst hprogress]
      exact ha
    obtain ⟨hprogress', hanalysis'⟩ := hbc.final hb
    exact ⟨hprogress'.trans hprogress, hanalysis'.trans hanalysis⟩

end LoadedPhoto.ReadOf

namespace Life

variable {M : Nat} {life life' : Life M}

theorem Next.status (h : Next life life') :
    life'.status = life.status ∨ life.status.Step life'.status := by
  cases h with
  | claim => exact .inr .claim
  | attempt ht => exact .inl (status_of_tried ht).1.symm
  | done ht => exact .inr (by rw [(status_of_tried ht).1]; exact .done)
  | fail ht => exact .inr (by rw [(status_of_tried ht).1]; exact .fail)

theorem Next.not_terminal (h : Next life life') : ¬life.status.terminal := by
  cases h with
  | claim => simp [Life.status, PhotoStatus.terminal]
  | attempt ht => simp [(status_of_tried ht).1, PhotoStatus.terminal]
  | done ht => simp [(status_of_tried ht).1, PhotoStatus.terminal]
  | fail ht => simp [(status_of_tried ht).1, PhotoStatus.terminal]

theorem Next.ne_pending (h : Next life life') : life'.status ≠ .pending := by
  cases h <;> simp [Life.status]

theorem Next.later (h : Next life life') {a b : LoadedPhoto}
    (ha : life.Shows a) (hb : life'.Shows b)
    (hidentity : b.photo.identity = a.photo.identity)
    (hpublish : b.photo.publishStatus = a.photo.publishStatus) :
    LoadedPhoto.Later a b where
  identity := hidentity
  sent := fun hs => hpublish.trans hs
  claimed := fun _ => by
    rw [hb.status]
    exact h.ne_pending
  final := fun hfinal => absurd (ha.status ▸ hfinal) h.not_terminal

end Life

end PhotoAnalysis

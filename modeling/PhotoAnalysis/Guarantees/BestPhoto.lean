import Mathlib
import PhotoAnalysis.Services.BatchService

/-!
# The best photo of a batch

The comparisons that `min` makes follow a linear order on keys as long as no
blur score is NaN, so `minByKey` is the `argmin` of that key.  With pairwise
distinct photo ids no two candidates have one key: the best photo is the only
candidate ahead of all others, wherever it stands in the list.
-/

namespace PhotoAnalysis.BatchService

open Foundation

/-- The first of the five components that differ decides. -/
def Ahead (a b : Candidate) : Prop :=
  (a.2.isBlurred = false ∧ b.2.isBlurred = true) ∨ a.2.isBlurred = b.2.isBlurred ∧
    (Double.lt a.2.blurScore b.2.blurScore ∨ Double.eq a.2.blurScore b.2.blurScore ∧
      (a.2.facesCount > b.2.facesCount ∨ a.2.facesCount = b.2.facesCount ∧
        (a.1.createdAt < b.1.createdAt ∨ a.1.createdAt = b.1.createdAt ∧
          a.1.photoId < b.1.photoId)))

/-- A photo that is done, and its analysis. -/
def Done (loaded : LoadedPhoto) (analysis : AnalysisResult) : Prop :=
  loaded.photo.status = .done ∧ loaded.analysis = some analysis

abbrev Key := Bool ×ₗ Int ×ₗ Int ×ₗ Nat ×ₗ Nat

def key (c : Candidate) : Key :=
  toLex (c.2.isBlurred, toLex (Double.rank c.2.blurScore,
    toLex (-c.2.facesCount, toLex (c.1.createdAt, c.1.photoId.toNat))))

/-! ## The order of the keys -/

section Numbers

variable {a b : Candidate}
  (ha : Double.isNaN a.2.blurScore = false) (hb : Double.isNaN b.2.blurScore = false)

include ha hb

theorem key_lt_iff : key a < key b ↔ Ahead a b := by
  have score : Double.lt a.2.blurScore b.2.blurScore ↔
      Double.rank a.2.blurScore < Double.rank b.2.blurScore := by
    simp [Double.lt, ha, hb]
  have tie : Double.eq a.2.blurScore b.2.blurScore ↔
      Double.rank a.2.blurScore = Double.rank b.2.blurScore := by
    simp [Double.eq, ha, hb]
  simp only [Ahead, score, tie, key, Prod.Lex.toLex_lt_toLex, Bool.lt_iff,
    neg_lt_neg_iff, neg_inj, BitVec.lt_def, gt_iff_lt]

theorem keyLess_iff : keyLess a b = true ↔ key a < key b := by
  have tie : Double.eq a.2.blurScore b.2.blurScore = true →
      Double.lt a.2.blurScore b.2.blurScore = false := by
    simp only [Double.eq, Double.lt, ha, hb, decide_eq_true_eq, Bool.not_false,
      Bool.true_and, decide_eq_false_iff_not]
    omega
  rw [key_lt_iff ha hb]
  unfold keyLess Ahead
  by_cases blurred : a.2.isBlurred = b.2.isBlurred
  · by_cases score : Double.eq a.2.blurScore b.2.blurScore = true
    · by_cases faces : a.2.facesCount = b.2.facesCount
      · by_cases created : a.1.createdAt = b.1.createdAt
        · simp [blurred, score, tie score, faces, created]
        · simp [blurred, score, tie score, faces, created]
      · simp [blurred, score, tie score, faces]
    · simp [blurred, score]
  · cases hx : a.2.isBlurred <;> cases hy : b.2.isBlurred <;> simp_all

end Numbers

/-! ## The least candidate -/

theorem foldl_argAux_eq (best : Candidate) (rest : List Candidate)
    (numbers : ∀ c ∈ best :: rest, Double.isNaN c.2.blurScore = false) :
    rest.foldl (List.argAux fun b c => key b < key c) (some best) =
      some (minByKey best rest) := by
  induction rest generalizing best with
  | nil => rfl
  | cons next rest ih =>
      have hnext := numbers next (by simp)
      have less := keyLess_iff hnext (numbers best (by simp))
      simp only [List.foldl_cons, minByKey, List.argAux]
      by_cases h : key next < key best
      · rw [if_pos h, if_pos (less.mpr h)]
        exact ih next fun c hc => numbers c (List.mem_cons_of_mem _ hc)
      · rw [if_neg h, if_neg (mt less.mp h)]
        refine ih best fun c hc => numbers c ?_
        rcases List.mem_cons.mp hc with rfl | hc
        · exact List.mem_cons_self
        · exact List.mem_cons_of_mem _ (List.mem_cons_of_mem _ hc)

theorem mem_candidates {photos : List LoadedPhoto} {c : Candidate} :
    c ∈ photos.filterMap candidate ↔
      ∃ loaded ∈ photos, loaded.photo = c.1 ∧ Done loaded c.2 := by
  simp only [List.mem_filterMap, candidate, Done]
  constructor
  · rintro ⟨loaded, hmem, h⟩
    split_ifs at h with done
    obtain ⟨analysis, hanalysis, rfl⟩ := Option.map_eq_some_iff.mp h
    exact ⟨loaded, hmem, rfl, done, hanalysis⟩
  · rintro ⟨loaded, hmem, hphoto, done, hanalysis⟩
    exact ⟨loaded, hmem, by simp [hphoto ▸ done, hanalysis, hphoto]⟩

theorem candidates_of_done (photos : List LoadedPhoto) :
    (photos.filter fun loaded => loaded.photo.status = .done).filterMap candidate =
      photos.filterMap candidate := by
  rw [List.filterMap_filter]
  refine List.filterMap_congr fun loaded _ => ?_
  by_cases done : loaded.photo.status = .done <;> simp [candidate, done]

theorem select_of_done (photos : List LoadedPhoto) :
    selectBestPhoto (photos.filter fun loaded => loaded.photo.status = .done) =
      selectBestPhoto photos := by
  unfold selectBestPhoto
  rw [candidates_of_done]

/-- The blur scores that are compared are numbers. -/
def Numbers (photos : List LoadedPhoto) : Prop :=
  ∀ loaded ∈ photos, ∀ analysis, Done loaded analysis →
    Double.isNaN analysis.blurScore = false

theorem select_eq_argmin {photos : List LoadedPhoto} (numbers : Numbers photos) :
    selectBestPhoto photos =
      ((photos.filterMap candidate).argmin key).map fun best => best.1.photoId := by
  have hnumbers : ∀ c ∈ photos.filterMap candidate,
      Double.isNaN c.2.blurScore = false := by
    intro c hc
    obtain ⟨loaded, hmem, -, done⟩ := mem_candidates.mp hc
    exact numbers loaded hmem c.2 done
  unfold selectBestPhoto
  cases hlist : photos.filterMap candidate with
  | nil => rfl
  | cons first rest =>
      have least := foldl_argAux_eq first rest (hlist ▸ hnumbers)
      rw [List.argmin, List.foldl_cons]
      exact (congrArg (Option.map fun best => best.1.photoId) least).symm

theorem photo_of_id {photos : List LoadedPhoto}
    (distinct : (photos.map fun loaded => loaded.photo.photoId).Nodup)
    {a b : LoadedPhoto} (ha : a ∈ photos) (hb : b ∈ photos)
    (same : a.photo.photoId = b.photo.photoId) : a = b :=
  List.inj_on_of_nodup_map distinct ha hb same

theorem photoId_of_key {a b : Candidate} (same : key a = key b) :
    a.1.photoId = b.1.photoId := by
  simp only [key, EmbeddingLike.apply_eq_iff_eq, Prod.mk.injEq] at same
  exact BitVec.eq_of_toNat_eq same.2.2.2.2

theorem select_eq_none_iff (photos : List LoadedPhoto) :
    selectBestPhoto photos = none ↔
      ∀ loaded ∈ photos, ∀ analysis, ¬Done loaded analysis := by
  have empty : selectBestPhoto photos = none ↔ photos.filterMap candidate = [] := by
    unfold selectBestPhoto
    cases photos.filterMap candidate <;> simp
  rw [empty, List.eq_nil_iff_forall_not_mem]
  constructor
  · intro h loaded hmem analysis done
    exact h (loaded.photo, analysis) (mem_candidates.mpr ⟨loaded, hmem, rfl, done⟩)
  · intro h c hc
    obtain ⟨loaded, hmem, -, done⟩ := mem_candidates.mp hc
    exact h loaded hmem c.2 done

/-- `best` is ahead of all the other photos that are done. -/
def Best (photos : List LoadedPhoto) (best : LoadedPhoto) : Prop :=
  ∃ analysis, Done best analysis ∧
    ∀ other ∈ photos, ∀ otherAnalysis, Done other otherAnalysis → other ≠ best →
      Ahead (best.photo, analysis) (other.photo, otherAnalysis)

section Distinct

variable {photos : List LoadedPhoto}
  (distinct : (photos.map fun loaded => loaded.photo.photoId).Nodup)
  (numbers : Numbers photos)

include distinct numbers

theorem best_of_select {id : UUID} (h : selectBestPhoto photos = some id) :
    ∃ best ∈ photos, best.photo.photoId = id ∧ Best photos best := by
  rw [select_eq_argmin numbers] at h
  obtain ⟨c, least, rfl⟩ := Option.map_eq_some_iff.mp h
  obtain ⟨best, hmem, hphoto, done⟩ := mem_candidates.mp (List.argmin_mem least)
  refine ⟨best, hmem, by rw [hphoto], c.2, done, ?_⟩
  intro other hother analysis hdone hne
  have hle : key c ≤ key (other.photo, analysis) :=
    List.le_of_mem_argmin (mem_candidates.mpr ⟨other, hother, rfl, hdone⟩) least
  have hne' : key c ≠ key (other.photo, analysis) := by
    intro same
    have ids := photoId_of_key same
    exact hne (photo_of_id distinct hother hmem (by rw [hphoto, ids]))
  rw [hphoto, ← key_lt_iff (numbers best hmem c.2 done)
    (numbers other hother analysis hdone)]
  exact lt_of_le_of_ne hle hne'

omit distinct in
theorem select_of_best {best : LoadedPhoto} (hmem : best ∈ photos)
    (hbest : Best photos best) : selectBestPhoto photos = some best.photo.photoId := by
  obtain ⟨analysis, done, ahead⟩ := hbest
  cases h : selectBestPhoto photos with
  | none => exact absurd done ((select_eq_none_iff photos).mp h best hmem analysis)
  | some id =>
      rw [select_eq_argmin numbers] at h
      obtain ⟨c, least, rfl⟩ := Option.map_eq_some_iff.mp h
      obtain ⟨chosen, hchosen, hphoto, hdone⟩ :=
        mem_candidates.mp (List.argmin_mem least)
      have same : chosen = best := by
        by_contra hne
        have hahead := ahead chosen hchosen c.2 hdone hne
        rw [hphoto] at hahead
        have hlt := (key_lt_iff (numbers best hmem analysis done)
          (numbers chosen hchosen c.2 hdone)).mpr hahead
        exact absurd hlt (not_lt.mpr (List.le_of_mem_argmin
          (mem_candidates.mpr ⟨best, hmem, rfl, done⟩) least))
      rw [← same, hphoto]

theorem select_eq_some_iff (id : UUID) :
    selectBestPhoto photos = some id ↔
      ∃ best ∈ photos, best.photo.photoId = id ∧ Best photos best := by
  constructor
  · exact best_of_select distinct numbers
  · rintro ⟨best, hmem, rfl, hbest⟩
    exact select_of_best numbers hmem hbest

/-- The characterization does not mention the places in the list. -/
theorem select_of_perm {others : List LoadedPhoto} (perm : others.Perm photos) :
    selectBestPhoto others = selectBestPhoto photos := by
  have hdistinct : (others.map fun loaded => loaded.photo.photoId).Nodup :=
    (perm.map _).nodup_iff.mpr distinct
  have hnumbers : Numbers others :=
    fun loaded hmem => numbers loaded (perm.mem_iff.mp hmem)
  ext id
  rw [select_eq_some_iff hdistinct hnumbers, select_eq_some_iff distinct numbers]
  simp only [Best, perm.mem_iff]

end Distinct

end PhotoAnalysis.BatchService

namespace PhotoAnalysis

open Foundation BatchService

theorem best_photo_is_least (photos : List LoadedPhoto)
    (distinct : (photos.map fun loaded => loaded.photo.photoId).Nodup)
    (numbers : Numbers photos) :
    (selectBestPhoto photos = none ↔
      ∀ loaded ∈ photos, ∀ analysis, ¬Done loaded analysis) ∧
    (∀ id, selectBestPhoto photos = some id ↔
      ∃ best ∈ photos, best.photo.photoId = id ∧ Best photos best) ∧
    (∀ others, others.Perm photos →
      selectBestPhoto others = selectBestPhoto photos) ∧
    ∀ others : List LoadedPhoto,
      (others.filter fun loaded => loaded.photo.status = .done).Perm
        (photos.filter fun loaded => loaded.photo.status = .done) →
      selectBestPhoto others = selectBestPhoto photos := by
  refine ⟨select_eq_none_iff photos, select_eq_some_iff distinct numbers,
    fun others => select_of_perm distinct numbers, fun others perm => ?_⟩
  have hdistinct : ((photos.filter fun loaded => loaded.photo.status = .done).map
      fun loaded => loaded.photo.photoId).Nodup :=
    distinct.sublist (List.filter_sublist.map _)
  have hnumbers : Numbers (photos.filter fun loaded => loaded.photo.status = .done) :=
    fun loaded hmem => numbers loaded (List.mem_of_mem_filter hmem)
  calc selectBestPhoto others
      = selectBestPhoto (others.filter fun loaded => loaded.photo.status = .done) :=
        (select_of_done others).symm
    _ = selectBestPhoto (photos.filter fun loaded => loaded.photo.status = .done) :=
        select_of_perm hdistinct hnumbers perm
    _ = selectBestPhoto photos := select_of_done photos

/-- Two analyses that differ in nothing, and a photo that is still pending. -/
theorem best_photo_is_least_tie :
    let photo (id : UUID) (status : PhotoStatus) : Photo :=
      ⟨id, py "a.png", py "k", 0, status, 0, none, none, .sent, none, none, none⟩
    let loaded (id : UUID) : LoadedPhoto :=
      ⟨photo id .done, some ⟨id, 2, false, 0, py "ff", 0⟩⟩
    let photos := [⟨photo 1 .pending, none⟩, loaded 3, loaded 2]
    selectBestPhoto photos = some 2 ∧
      selectBestPhoto [loaded 2, loaded 3] = some 2 := by
  intro photo loaded photos
  have hmem : ∀ l ∈ photos, l = ⟨photo 1 .pending, none⟩ ∨ l = loaded 3 ∨ l = loaded 2 := by
    simp [photos]
  have distinct : (photos.map fun l => l.photo.photoId).Nodup := by
    simp [photos, loaded, photo]
  have numbers : Numbers photos := by
    rintro l hl analysis ⟨-, hanalysis⟩
    rcases hmem l hl with rfl | rfl | rfl
    · cases hanalysis
    · cases hanalysis; decide
    · cases hanalysis; decide
  obtain ⟨-, some_iff, -, stable⟩ := best_photo_is_least photos distinct numbers
  have hbest : selectBestPhoto photos = some 2 := by
    refine (some_iff 2).mpr ⟨loaded 2, by simp [photos], rfl, _, ⟨rfl, rfl⟩, ?_⟩
    rintro l hl analysis ⟨hdone, hanalysis⟩ hne
    rcases hmem l hl with rfl | rfl | rfl
    · cases hanalysis
    · cases hanalysis
      exact .inr ⟨rfl, .inr ⟨by decide, .inr ⟨rfl, .inr ⟨rfl, by decide⟩⟩⟩⟩
    · exact absurd rfl hne
  refine ⟨hbest, (stable [loaded 2, loaded 3] ?_).trans hbest⟩
  exact List.Perm.swap (loaded 3) (loaded 2) []

end PhotoAnalysis

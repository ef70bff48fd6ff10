import Mathlib.Data.List.Forall2
import PhotoAnalysis.Ledger.Life

/-!
# What writes do to the tables

Each write of `Db.Models`, read per row: how the photo, the analysis and the
batch under a key change, and how the photos of a batch do.
-/

namespace PhotoAnalysis.Tables

open Foundation

/-- A photo as its readers load it. -/
def loaded (T : Tables) (id : UUID) : Option LoadedPhoto :=
  (T.photo id).map fun photo => ⟨photo, T.analysis id⟩

/-- What is under a lock. -/
def row (T : Tables) : RowKey →
    Option Photo × Option AnalysisResult × Option Batch
  | .photo id => (T.photo id, none, none)
  | .objectKey _ => (none, none, none)
  | .analysis id => (none, T.analysis id, none)
  | .batch id => (none, none, T.batch id)

theorem loaded_of_photo {T : Tables} {id : UUID} {photo : Photo}
    (h : T.photo id = some photo) : T.loaded id = some ⟨photo, T.analysis id⟩ := by
  simp [loaded, h]

theorem loaded_eq_some {T : Tables} {id : UUID} {a : LoadedPhoto} :
    T.loaded id = some a ↔ T.photo id = some a.photo ∧ T.analysis id = a.analysis := by
  cases a
  simp only [loaded, Option.map_eq_some_iff, LoadedPhoto.mk.injEq]
  grind

theorem loaded_eq_none {T : Tables} {id : UUID} :
    T.loaded id = none ↔ T.photo id = none := by
  simp [loaded]

theorem loaded_congr {T T' : Tables} {id : UUID} (hp : T'.photo id = T.photo id)
    (ha : T'.analysis id = T.analysis id) : T'.loaded id = T.loaded id := by
  simp [loaded, hp, ha]

theorem photoId_of_photo {T : Tables} {id : UUID} {photo : Photo}
    (h : T.photo id = some photo) : photo.photoId = id :=
  Table.key_of_find h

/-! ## One write -/

section

variable (T : Tables) (id : UUID)

@[simp] theorem photo_addPhoto (photo : Photo) :
    (Write.apply T (.addPhoto photo)).photo id =
      if photo.photoId = id ∧ T.photo id = none then some photo else T.photo id :=
  Table.find_add _ _ _

@[simp] theorem photo_setPhoto (key : UUID) (values : PhotoValues) :
    (Write.apply T (.setPhoto key values)).photo id =
      if key = id then (T.photo id).map (Photo.set values) else T.photo id :=
  Table.find_modify _ _ _ _ (Photo.photoId_set values)

@[simp] theorem photo_addBatch (batch : Batch) :
    (Write.apply T (.addBatch batch)).photo id = T.photo id := rfl

@[simp] theorem photo_setBatch (key : UUID) (status : BatchStatus)
    (best : Option UUID) :
    (Write.apply T (.setBatch key status best)).photo id = T.photo id := rfl

@[simp] theorem photo_addAnalysis (result : AnalysisResult) :
    (Write.apply T (.addAnalysis result)).photo id = T.photo id := rfl

@[simp] theorem analysis_addPhoto (photo : Photo) :
    (Write.apply T (.addPhoto photo)).analysis id = T.analysis id := rfl

@[simp] theorem analysis_setPhoto (key : UUID) (values : PhotoValues) :
    (Write.apply T (.setPhoto key values)).analysis id = T.analysis id := rfl

@[simp] theorem analysis_addBatch (batch : Batch) :
    (Write.apply T (.addBatch batch)).analysis id = T.analysis id := rfl

@[simp] theorem analysis_setBatch (key : UUID) (status : BatchStatus)
    (best : Option UUID) :
    (Write.apply T (.setBatch key status best)).analysis id = T.analysis id := rfl

@[simp] theorem analysis_addAnalysis (result : AnalysisResult) :
    (Write.apply T (.addAnalysis result)).analysis id =
      if result.photoId = id ∧ T.analysis id = none then some result
      else T.analysis id :=
  Table.find_add _ _ _

@[simp] theorem batch_addPhoto (photo : Photo) :
    (Write.apply T (.addPhoto photo)).batch id = T.batch id := rfl

@[simp] theorem batch_setPhoto (key : UUID) (values : PhotoValues) :
    (Write.apply T (.setPhoto key values)).batch id = T.batch id := rfl

@[simp] theorem batch_addAnalysis (result : AnalysisResult) :
    (Write.apply T (.addAnalysis result)).batch id = T.batch id := rfl

@[simp] theorem batch_addBatch (batch : Batch) :
    (Write.apply T (.addBatch batch)).batch id =
      if batch.batchId = id ∧ T.batch id = none then some batch else T.batch id :=
  Table.find_add _ _ _

@[simp] theorem batch_setBatch (key : UUID) (status : BatchStatus)
    (best : Option UUID) :
    (Write.apply T (.setBatch key status best)).batch id =
      if key = id then (T.batch id).map (Batch.complete status best)
      else T.batch id :=
  Table.find_modify _ _ _ _ (Batch.batchId_complete status best)

end

theorem row_apply (T : Tables) (w : Write) (k : RowKey) (hk : k ∉ w.keys) :
    (Write.apply T w).row k = T.row k := by
  cases w <;> cases k <;> simp_all [row, Write.keys] <;> grind

/-! ## Lists of writes -/

/-- A photo stays. -/
theorem isSome_photo {ws : List Write} {T : Tables} {id : UUID}
    (h : (T.photo id).isSome) : ((ws.foldl Write.apply T).photo id).isSome := by
  induction ws generalizing T with
  | nil => exact h
  | cons write ws ih =>
      refine ih ?_
      cases write with
      | addPhoto row =>
          rw [photo_addPhoto]
          split
          · rfl
          · exact h
      | setPhoto key values =>
          rw [photo_setPhoto]
          split
          · simpa using h
          · exact h
      | _ => exact h

/-- Marks of published rows change no other column of a row. -/
theorem photo_marks (marks : List (UUID × PhotoValues)) (T : Tables) (id : UUID)
    {P : Photo → Prop}
    (hstep : ∀ mark ∈ marks, mark.1 = id → ∀ p, P p → P (p.set mark.2))
    {p : Photo} (hp : T.photo id = some p) (h : P p) :
    ∃ q, ((marks.map fun mark => Write.setPhoto mark.1 mark.2).foldl
      Write.apply T).photo id = some q ∧ P q := by
  induction marks generalizing T p with
  | nil => exact ⟨p, hp, h⟩
  | cons mark marks ih =>
      rw [List.map_cons, List.foldl_cons]
      have hrest := fun m hm => hstep m (List.mem_cons_of_mem mark hm)
      by_cases hmark : mark.1 = id
      · exact ih _ hrest (by rw [photo_setPhoto, if_pos hmark, hp]; rfl)
          (hstep mark List.mem_cons_self hmark p h)
      · exact ih _ hrest (by rw [photo_setPhoto, if_neg hmark, hp]) h

theorem photo_marks_none (marks : List (UUID × PhotoValues)) (T : Tables)
    (id : UUID) (hp : T.photo id = none) :
    ((marks.map fun mark => Write.setPhoto mark.1 mark.2).foldl
      Write.apply T).photo id = none := by
  induction marks generalizing T with
  | nil => exact hp
  | cons mark marks ih =>
      rw [List.map_cons, List.foldl_cons]
      exact ih _ (by simp [hp])

theorem analysis_marks (marks : List (UUID × PhotoValues)) (T : Tables)
    (id : UUID) :
    ((marks.map fun mark => Write.setPhoto mark.1 mark.2).foldl
      Write.apply T).analysis id = T.analysis id := by
  induction marks generalizing T with
  | nil => rfl
  | cons mark marks ih => exact (ih _).trans (analysis_setPhoto T id _ _)

theorem batch_marks (marks : List (UUID × PhotoValues)) (T : Tables) (id : UUID) :
    ((marks.map fun mark => Write.setPhoto mark.1 mark.2).foldl
      Write.apply T).batch id = T.batch id := by
  induction marks generalizing T with
  | nil => rfl
  | cons mark marks ih => exact (ih _).trans (batch_setPhoto T id _ _)

theorem photo_inserts (rows : List Photo) (T : Tables) (id : UUID) :
    ((rows.map Write.addPhoto).foldl Write.apply T).photo id =
      if T.photo id = none then rows.find? fun row => row.photoId = id
      else T.photo id := by
  induction rows generalizing T with
  | nil => by_cases h : T.photo id = none <;> simp [h]
  | cons row rows ih =>
      rw [List.map_cons, List.foldl_cons, ih, photo_addPhoto, List.find?_cons]
      by_cases h : T.photo id = none <;> by_cases hr : row.photoId = id <;>
        simp [h, hr]

theorem analysis_inserts (rows : List Photo) (T : Tables) (id : UUID) :
    ((rows.map Write.addPhoto).foldl Write.apply T).analysis id =
      T.analysis id := by
  induction rows generalizing T with
  | nil => rfl
  | cons row rows ih => exact (ih _).trans (analysis_addPhoto T id row)

theorem batch_inserts (rows : List Photo) (T : Tables) (id : UUID) :
    ((rows.map Write.addPhoto).foldl Write.apply T).batch id = T.batch id := by
  induction rows generalizing T with
  | nil => rfl
  | cons row rows ih => exact (ih _).trans (batch_addPhoto T id row)

/-- Inserts of fresh rows are appended. -/
theorem rows_inserts (rows : List Photo) (T : Tables)
    (hfresh : ∀ row ∈ rows, T.photo row.photoId = none)
    (hnodup : (rows.map Photo.photoId).Nodup) :
    ((rows.map Write.addPhoto).foldl Write.apply T).photos.rows =
      T.photos.rows ++ rows := by
  induction rows generalizing T with
  | nil => simp
  | cons row rows ih =>
      rw [List.map_cons, List.nodup_cons] at hnodup
      have hrow : (Write.apply T (.addPhoto row)).photos.rows =
          T.photos.rows ++ [row] :=
        Table.rows_add (hfresh row List.mem_cons_self)
      rw [List.map_cons, List.foldl_cons, ih _ _ hnodup.2, hrow,
        List.append_assoc, List.singleton_append]
      intro row' hmem
      have hne : row.photoId ≠ row'.photoId := fun heq =>
        hnodup.1 (heq ▸ List.mem_map_of_mem hmem)
      rw [photo_addPhoto, if_neg fun h => hne h.1]
      exact hfresh row' (List.mem_cons_of_mem row hmem)

/-- A write that inserts no row over another. -/
def Admits (T : Tables) : Write → Prop
  | .addPhoto row => T.photo row.photoId = none
  | .addBatch batch => T.batch batch.batchId = none
  | _ => True

/-! ## The photos of a batch -/

def batchPhotos (T : Tables) (id : UUID) : List Photo :=
  (T.photos.rows.filter fun row => row.batchId = some id).insertionSort
    Photo.listedBefore

/-- The photos of a batch with their analyses, in the order readers see. -/
def members (T : Tables) (id : UUID) : List LoadedPhoto :=
  (T.batchPhotos id).map fun photo => ⟨photo, T.analysis photo.photoId⟩

theorem mem_batchPhotos {T : Tables} {id : UUID} {photo : Photo} :
    photo ∈ T.batchPhotos id ↔
      T.photo photo.photoId = some photo ∧ photo.batchId = some id := by
  rw [batchPhotos, (List.perm_insertionSort _ _).mem_iff, List.mem_filter,
    Table.mem_rows_iff, decide_eq_true_iff]
  rfl

theorem loaded_of_mem_members {T : Tables} {id : UUID} {a : LoadedPhoto}
    (h : a ∈ T.members id) :
    T.loaded a.photo.photoId = some a ∧ a.photo.batchId = some id := by
  obtain ⟨photo, hmem, rfl⟩ := List.mem_map.mp h
  obtain ⟨hphoto, hbatch⟩ := mem_batchPhotos.mp hmem
  exact ⟨loaded_of_photo hphoto, hbatch⟩

/--
Seen from batch `id`: existing rows keep the columns that never change, and no
new row belongs to the batch.
-/
def Evolves (id : UUID) (T T' : Tables) : Prop :=
  ∃ (f : Photo → Photo) (news : List Photo),
    T'.photos.rows = T.photos.rows.map f ++ news ∧
      (∀ p, (f p).identity = p.identity) ∧ ∀ p ∈ news, p.batchId ≠ some id

theorem Evolves.refl (id : UUID) (T : Tables) : Evolves id T T :=
  ⟨fun p => p, [], by simp, fun _ => rfl, by simp⟩

theorem Evolves.trans {id : UUID} {T T' T'' : Tables} (h : Evolves id T T')
    (h' : Evolves id T' T'') : Evolves id T T'' := by
  obtain ⟨f, news, hrows, hf, hnews⟩ := h
  obtain ⟨g, news', hrows', hg, hnews'⟩ := h'
  refine ⟨g ∘ f, news.map g ++ news', ?_, fun p => (hg _).trans (hf p), ?_⟩
  · rw [hrows', hrows, List.map_append, List.map_map, List.append_assoc]
  · intro p hp
    rcases List.mem_append.mp hp with hp | hp
    · obtain ⟨q, hq, rfl⟩ := List.mem_map.mp hp
      rw [(Photo.identity_eq (hg q)).2.2.2.2.2]
      exact hnews q hq
    · exact hnews' p hp

/-- A write that puts no new photo into a batch. -/
def Avoids (id : UUID) : Write → Prop
  | .addPhoto row => row.batchId ≠ some id
  | _ => True

theorem evolves_apply {id : UUID} (T : Tables) {w : Write} (h : Avoids id w) :
    Evolves id T (Write.apply T w) := by
  cases w with
  | addPhoto row =>
      by_cases hfresh : T.photos.find row.photoId = none
      · refine ⟨fun p => p, [row], ?_, fun _ => rfl, ?_⟩
        · rw [List.map_id' _]
          exact Table.rows_add hfresh
        · intro p hp
          rw [List.mem_singleton.mp hp]
          exact h
      · have hsame : T.photos.add row = T.photos := by simp [Table.add, hfresh]
        refine ⟨fun p => p, [], ?_, fun _ => rfl, by simp⟩
        simp [Write.apply, hsame]
  | setPhoto key values =>
      refine ⟨fun p => if p.photoId = key then p.set values else p, [], ?_, ?_,
        by simp⟩
      · simp [Write.apply, Table.modify]
      · intro p
        by_cases hp : p.photoId = key <;> simp [hp]
  | addBatch batch => exact .refl id T
  | addAnalysis result => exact .refl id T
  | setBatch key status best => exact .refl id T

theorem evolves_foldl {id : UUID} (T : Tables) {ws : List Write}
    (h : ∀ w ∈ ws, Avoids id w) : Evolves id T (ws.foldl Write.apply T) := by
  induction ws generalizing T with
  | nil => exact .refl id T
  | cons w ws ih =>
      exact (evolves_apply T (h w List.mem_cons_self)).trans
        (ih _ fun w' hw' => h w' (List.mem_cons_of_mem w hw'))

theorem batchPhotos_of_evolves {id : UUID} {T T' : Tables} {f : Photo → Photo}
    {news : List Photo} (hrows : T'.photos.rows = T.photos.rows.map f ++ news)
    (hf : ∀ p, (f p).identity = p.identity)
    (hnews : ∀ p ∈ news, p.batchId ≠ some id) :
    T'.batchPhotos id = (T.batchPhotos id).map f := by
  have hnone : news.filter (fun row => row.batchId = some id) = [] := by
    rw [List.filter_eq_nil_iff]
    intro p hp
    simpa using hnews p hp
  have hfilter : (T.photos.rows.map f).filter (fun row => row.batchId = some id) =
      (T.photos.rows.filter fun row => row.batchId = some id).map f := by
    rw [List.filter_map]
    refine congrArg (List.map f) (List.filter_congr fun p _ => ?_)
    simp [(Photo.identity_eq (hf p)).2.2.2.2.2]
  rw [batchPhotos, hrows, List.filter_append, hnone, List.append_nil, hfilter]
  refine (List.map_insertionSort _ _ f _ fun p _ q _ => ?_).symm
  obtain ⟨hid, -, -, htime, -, -⟩ := Photo.identity_eq (hf p)
  obtain ⟨hid', -, -, htime', -, -⟩ := Photo.identity_eq (hf q)
  simp [Photo.listedBefore, hid, htime, hid', htime']

/-- Rows that evolve are each related to what they have become. -/
theorem members_of_evolves {id : UUID} {T T' : Tables} (h : Evolves id T T')
    {R : LoadedPhoto → LoadedPhoto → Prop}
    (hR : ∀ key a, T.loaded key = some a → ∃ b, T'.loaded key = some b ∧ R a b) :
    List.Forall₂ R (T.members id) (T'.members id) := by
  obtain ⟨f, news, hrows, hf, hnews⟩ := h
  rw [members, members, batchPhotos_of_evolves hrows hf hnews, List.map_map,
    List.forall₂_map_left_iff, List.forall₂_map_right_iff, List.forall₂_same]
  intro p hp
  have hphoto := (mem_batchPhotos.mp hp).1
  have hid : (f p).photoId = p.photoId := (Photo.identity_eq (hf p)).1
  have hphoto' : T'.photo p.photoId = some (f p) := by
    rw [← hid]
    refine Table.find_of_mem (hrows ▸ List.mem_append_left _ ?_)
    exact List.mem_map_of_mem (Table.mem_of_find hphoto)
  obtain ⟨b, hb, hab⟩ := hR p.photoId _ (loaded_of_photo hphoto)
  rw [loaded_of_photo hphoto', Option.some.injEq] at hb
  simpa [Function.comp, hid, ← hb] using hab

/-- The photos of a batch that is inserted with all its rows. -/
theorem length_members_inserts {id : UUID} {T : Tables} {rows : List Photo}
    (hfresh : ∀ row ∈ rows, T.photo row.photoId = none)
    (hnodup : (rows.map Photo.photoId).Nodup)
    (hold : ∀ row ∈ T.photos.rows, row.batchId ≠ some id)
    (hnew : ∀ row ∈ rows, row.batchId = some id) :
    (((rows.map Write.addPhoto).foldl Write.apply T).members id).length =
      rows.length := by
  have hnone : T.photos.rows.filter (fun row => row.batchId = some id) = [] := by
    rw [List.filter_eq_nil_iff]
    intro p hp
    simpa using hold p hp
  have hall : rows.filter (fun row => row.batchId = some id) = rows := by
    rw [List.filter_eq_self]
    intro p hp
    simpa using hnew p hp
  rw [members, List.length_map, batchPhotos, List.length_insertionSort,
    rows_inserts rows T hfresh hnodup, List.filter_append, hnone, hall,
    List.nil_append]

end PhotoAnalysis.Tables

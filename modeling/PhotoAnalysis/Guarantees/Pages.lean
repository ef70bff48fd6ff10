import PhotoAnalysis.Foundation.Paging
import PhotoAnalysis.Guarantees.Batches
import PhotoAnalysis.Guarantees.Snapshots

/-!
# Listing all photos page by page

`list_photos` sorts by `created_at` alone, so each page may arrange the photos of one
instant in its own way.  A client that reads page after page sees each photo once
exactly when no page ends between photos of one instant.
-/

namespace PhotoAnalysis

open Foundation Program Paging

abbrev PhotoTable := Table UUID Photo Photo.photoId

variable {photos : PhotoTable} {listed : List Photo} {order : List UUID}

/-- `ORDER BY photos.created_at DESC` -/
def Photo.newestFirst (p q : Photo) : Bool := q.createdAt ≤ p.createdAt

/-- An order in which the database may list the photos. -/
def Orderable (photos : PhotoTable) (order : List UUID) : Prop :=
  (Query.inOrder Photo.newestFirst photos.rows order).isSome

theorem arranged_of_inOrder
    (h : Query.inOrder Photo.newestFirst photos.rows order = some listed) :
    Arranged Photo.createdAt photos.rows listed := by
  obtain ⟨hperm, hsorted⟩ := perm_of_inOrder h
  exact ⟨hperm, hsorted.imp fun h => by simpa [Photo.newestFirst] using h⟩

theorem inOrder_of_arranged (h : Arranged Photo.createdAt photos.rows listed) :
    Query.inOrder Photo.newestFirst photos.rows (listed.map Photo.photoId) =
      some listed := by
  have hfind : (listed.map Photo.photoId).filterMap
      (fun id => photos.rows.find? (·.photoId = id)) = listed := by
    rw [List.filterMap_map]
    refine (List.filterMap_congr fun p hp => ?_).trans List.filterMap_some
    exact Table.find_of_mem (h.perm.mem_iff.mp hp)
  simp only [Query.inOrder, hfind]
  refine if_pos ⟨trivial, ?_, h.perm.length_eq, ?_⟩
  · exact (h.perm.map Photo.photoId).nodup_iff.mpr photos.nodup
  · exact h.descending.imp fun h => by simpa [Photo.newestFirst] using h

/-- The ids in the response to the request for page `k`. -/
def photosPage (w : World) (t : Tid) (order : List UUID) (limit k : Nat) : List Str :=
  match ((PhotoService.listPhotos limit (k * limit)).run
    (meets t (fun _ => w) fun _ => .rows order) 0).1 with
  | .ok (.photos responses) => responses.map PhotoResponse.id
  | _ => []

theorem photosPage_eq {w : World} {t : Tid} {limit : Nat} (k : Nat)
    (h : Query.inOrder Photo.newestFirst (w.view t).photos.rows order = some listed) :
    photosPage w t order limit k = (page limit k listed).map fun p => p.photoId.text := by
  have hselect : ∀ n, meets t (fun _ => w) (fun _ => .rows order)
      (.select (.photos limit (k * limit))) n = (.ok (page limit k listed), n + 1) := by
    intro n
    have hanswer : (Query.photos limit (k * limit)).answer (w.view t) order =
        some (page limit k listed) := congrArg (Option.map _) h
    simp only [meets, World.perform, World.answer, hanswer, Option.map_some]
  simp only [photosPage, PhotoService.listPhotos, PhotoRepository.list, loadAnalyses, bind_eq,
    run_bind, run_call, hselect]
  cases hpage : page limit k listed with
  | nil => rfl
  | cons p rows =>
      simp [meets, World.perform, World.answer, Query.answer, run_bind, run_call,
        PhotoService.photoResponse, Function.comp_def]

/--
The pages that a client asks for until one is empty, the `k`-th in world `w k` from a
session of task `t k`, name each photo once.
-/
def Complete (w : Nat → World) (t : Nat → Tid) (orders : Nat → List UUID) (limit : Nat)
    (photos : PhotoTable) : Prop :=
  ∃ ids, Scrolled (fun k => photosPage (w k) (t k) (orders k) limit k) ids ∧
    ids.Perm (photos.rows.map fun p => p.photoId.text)

section

variable {w : Nat → World} {t : Nat → Tid} {limit : Nat}

theorem names_nodup (photos : PhotoTable) :
    (photos.rows.map fun p => p.photoId.text).Nodup := by
  have hmap := photos.nodup.map UUID.text_injective
  rwa [List.map_map, Function.comp_def] at hmap

theorem complete_iff (hview : ∀ k, ((w k).view (t k)).photos = photos)
    {orders : Nat → List UUID} {ls : Nat → List Photo}
    (hls : ∀ k, Query.inOrder Photo.newestFirst photos.rows (orders k) = some (ls k)) :
    Complete w t orders limit photos ↔
      ∃ ids, Scrolled (fun k => (page limit k (ls k)).map fun p => p.photoId.text) ids ∧
        ids.Perm (photos.rows.map fun p => p.photoId.text) := by
  have hpage : ∀ k, photosPage (w k) (t k) (orders k) limit k =
      (page limit k (ls k)).map fun p => p.photoId.text :=
    fun k => photosPage_eq k (by rw [hview]; exact hls k)
  rw [Complete, funext hpage]

theorem complete_of_not_straddled (hview : ∀ k, ((w k).view (t k)).photos = photos)
    (hlimit : 1 ≤ limit) (h : ¬Straddled Photo.createdAt photos.rows limit)
    {orders : Nat → List UUID} (horders : ∀ k, Orderable photos (orders k)) :
    Complete w t orders limit photos := by
  choose ls hls using fun k => Option.isSome_iff_exists.mp (horders k)
  rw [complete_iff hview hls]
  exact (scrolled_perm_iff hlimit (names_nodup photos)).mpr h ls
    fun k => arranged_of_inOrder (hls k)

theorem not_straddled_of_complete (hview : ∀ k, ((w k).view (t k)).photos = photos)
    (hlimit : 1 ≤ limit)
    (h : ∀ orders, (∀ k, Orderable photos (orders k)) → Complete w t orders limit photos) :
    ¬Straddled Photo.createdAt photos.rows limit := by
  refine (scrolled_perm_iff hlimit (names_nodup photos)).mp fun ls hls => ?_
  have hlisted := fun k => inOrder_of_arranged (hls k)
  refine (complete_iff hview hlisted).mp (h _ fun k => ?_)
  rw [Orderable, hlisted k, Option.isSome_some]

theorem view_photos (hclean : ∀ k, (w k).db.writes (t k) = [])
    (hphotos : ∀ k, (w k).db.committed.photos = photos) (k : Nat) :
    ((w k).view (t k)).photos = photos := by
  rw [World.view, TxStore.view_of_clean (hclean k), hphotos k]

end

/--
While the committed photos stay the same, the pages are complete in all the orders the
database may choose, exactly when no page ends between photos of one instant.
-/
theorem pages_complete_iff (w : Nat → World) (t : Nat → Tid)
    (hclean : ∀ k, (w k).db.writes (t k) = [])
    (hphotos : ∀ k, (w k).db.committed.photos = photos) {limit : Nat}
    (hlimit : 1 ≤ limit) :
    (∀ orders : Nat → List UUID, (∀ k, Orderable photos (orders k)) →
      Complete w t orders limit photos) ↔
        ¬Straddled Photo.createdAt photos.rows limit :=
  ⟨not_straddled_of_complete (view_photos hclean hphotos) hlimit,
    fun h _ => complete_of_not_straddled (view_photos hclean hphotos) hlimit h⟩

/-! ## A page that ends within a batch -/

/-- A batch of two photos is uploaded. -/
theorem pair_uploaded : ∃ state, Reachable defaultSettings state ∧
    state.world.db.writes 9 = [] ∧
    state.world.db.committed.photos.rows.map Photo.createdAt = [0, 0] :=
  reachable_of_any defaultSettings uploadsPair (P := fun state =>
    state.world.db.writes 9 = [] ∧
      state.world.db.committed.photos.rows.map Photo.createdAt = [0, 0])
    (by decide +kernel)

theorem pages_complete_pair : ∃ state, Reachable defaultSettings state ∧
    state.world.db.committed.photos.rows.map Photo.createdAt = [0, 0] ∧
    ∀ orders : Nat → List UUID,
      (∀ k, Orderable state.world.db.committed.photos (orders k)) →
      Complete (fun _ => state.world) (fun _ => 9) orders 2
        state.world.db.committed.photos := by
  obtain ⟨state, hreach, hclean, htimes⟩ := pair_uploaded
  refine ⟨state, hreach, htimes, (pages_complete_iff _ _ (fun _ => hclean)
    (fun _ => rfl) (by decide)).mpr (not_straddled_of_length_le ?_)⟩
  have hlength := congrArg List.length htimes
  rw [List.length_map] at hlength
  exact hlength.le

theorem pages_not_complete :
    ¬∀ (w : Nat → World) (t : Nat → Tid) (photos : PhotoTable) (limit : Nat)
      (orders : Nat → List UUID), (∀ k, (w k).db.writes (t k) = []) →
      (∀ k, (w k).db.committed.photos = photos) → 1 ≤ limit → limit ≤ 100 →
      (∀ k, Orderable photos (orders k)) → Complete w t orders limit photos := by
  intro h
  obtain ⟨state, -, hclean, htimes⟩ := pair_uploaded
  have htime : ∀ p ∈ state.world.db.committed.photos.rows, p.createdAt = 0 := by
    intro p hp
    have hmem := List.mem_map_of_mem (f := Photo.createdAt) hp
    rw [htimes] at hmem
    simpa using hmem
  have hlength := congrArg List.length htimes
  rw [List.length_map] at hlength
  have hstraddled : Straddled Photo.createdAt state.world.db.committed.photos.rows 1 :=
    straddled_of_same htime Nat.one_pos (by rw [hlength]; decide)
  refine not_straddled_of_complete (view_photos (fun _ => hclean) fun _ => rfl) le_rfl
    (fun orders => ?_) hstraddled
  exact h (fun _ => state.world) (fun _ => 9) _ 1 orders (fun _ => hclean)
    (fun _ => rfl) le_rfl (by decide)

end PhotoAnalysis

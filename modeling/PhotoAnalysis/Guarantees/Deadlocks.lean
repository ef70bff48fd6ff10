import PhotoAnalysis.Refinement.Holding
import PhotoAnalysis.Guarantees.Batches

/-!
# Deadlocks

A statement waits while another transaction holds a row that it needs, and
`ensure_started` waits for the start lock of its process.  Tasks that wait for each
other in a circle are outbox publishers, each about to mark a photo that another one
has marked, and all these photos were created at the same time.
-/

namespace PhotoAnalysis

open Foundation Program

/-- A transaction does not wait for its own rows, but the start lock knows no owner. -/
def Resource.blocks : Resource → Tid → Tid → Prop
  | .row _, t, owner => owner ≠ t
  | .startLock _, _, _ => True

/-- Task `t` cannot go on before `u` gives something up. -/
def WaitsFor (state : State) (t u : Tid) : Prop :=
  ∃ op resume loop resource, state.tasks t = .running (.await op resume) loop ∧
    op.needs state.world t resource ∧ state.world.owner resource = some u ∧
    resource.blocks t u

/-- A statement or the start lock cannot be had just then, and for this reason only. -/
theorem blocked_iff {state : State} {t : Tid} {op : Op}
    {resume : Except PyExc op.Ans → Py (Option Reply)} {loop : Py (Option Reply)}
    (htask : state.tasks t = .running (.await op resume) loop)
    (hop : (∃ stmt, op = .execute stmt) ∨ ∃ app, op = .acquireStartLock app) :
    World.perform t op .ok state.world = none ↔ ∃ u, WaitsFor state t u := by
  have hwaits : (∃ u, WaitsFor state t u) ↔ ∃ resource u, op.needs state.world t resource ∧
      state.world.owner resource = some u ∧ resource.blocks t u := by
    constructor
    · rintro ⟨u, op', resume', loop', resource, htask', hneeds, howner, hblocks⟩
      cases htask.symm.trans htask'
      exact ⟨resource, u, hneeds, howner, hblocks⟩
    · rintro ⟨resource, u, hneeds, howner, hblocks⟩
      exact ⟨u, op, resume, loop, resource, htask, hneeds, howner, hblocks⟩
  rw [hwaits]
  rcases hop with ⟨stmt, rfl⟩ | ⟨app, rfl⟩
  · have hneeds : (∃ resource u, (Op.execute stmt).needs state.world t resource ∧
        state.world.owner resource = some u ∧ resource.blocks t u) ↔
        ∃ write, stmt.resolve (state.world.now t) (state.world.view t) = .ok (some write) ∧
          ¬state.world.db.Free t write.keys := by
      constructor
      · rintro ⟨key | app, u, hneeds, howner, hblocks⟩
        · obtain ⟨write, hwrite, hkey⟩ := hneeds
          exact ⟨write, hwrite, TxStore.not_free_iff.mpr ⟨key, hkey, u, howner, hblocks⟩⟩
        · exact hneeds.elim
      · rintro ⟨write, hwrite, hfree⟩
        obtain ⟨key, hkey, u, howner, hne⟩ := TxStore.not_free_iff.mp hfree
        exact ⟨.row key, u, ⟨write, hwrite, hkey⟩, howner, hne⟩
    rw [hneeds]
    simp only [World.perform, World.answer, World.execute]
    cases hresolve : stmt.resolve (state.world.now t) (state.world.view t) with
    | error exc => simp
    | ok found =>
        cases found with
        | none => simp
        | some write => simp
  · simp only [World.perform, World.answer]
    cases hlock : (state.world.producers app).startLock with
    | none =>
        refine ⟨fun h => (by simp at h), ?_⟩
        rintro ⟨key | lock, u, hneeds, howner, -⟩
        · exact hneeds.elim
        · obtain rfl := hneeds
          cases hlock.symm.trans howner
    | some u =>
        refine ⟨fun _ => ⟨.startLock app, u, rfl, hlock, trivial⟩, fun _ => ?_⟩
        simp

section

variable {settings : Settings} {state : State} {t u v : Tid}

/-! ## Circles -/

/-- The grip of a task that waits for `u` while another task waits for it. -/
inductive Jammed (state : State) (t u : Tid) (grip : Grip) : Prop where
  | insert (id : UUID) (key : RowKey) (hhold : grip.hold = .rows) (hid : id ∈ grip.minted)
      (hnone : (state.world.view t).photo id = none)
      (hkey : key = .photo id ∨ ∃ ext, key = .objectKey (PhotoService.objectKey id ext))
      (howner : state.world.owner (.row key) = some u)
  | result (id : UUID) (hhold : grip.hold = .result)
      (howner : state.world.owner (.row (.photo id)) = some u)
  | mark (photos : List Photo) (n : Nat) (photo : Photo) (time : Time)
      (resume : Except PyExc Nat → Py (Option Reply)) (loop : Py (Option Reply))
      (hhold : grip.hold = .marks photos n) (hphoto : photo ∈ photos.drop n)
      (htask : state.tasks t = .running (.await (.execute (.updatePhoto photo.photoId none
        (PhotoRepository.publishedValues time))) resume) loop)
      (howner : state.world.owner (.row (.photo photo.photoId)) = some u)

theorem grip_of_running (h : Reachable settings state) {op : Op}
    {resume : Except PyExc op.Ans → Py (Option Reply)} {loop : Py (Option Reply)}
    (htask : state.tasks t = .running (.await op resume) loop) :
    ∃ grip : Grip, grip.Means t state.world ∧ grip.allowed op := by
  have hwatch := (gripping_sound settings).leads (fun middle hlead => hlead)
    (fun tid => trivial) h t
  rw [htask] at hwatch
  obtain ⟨entry, grip, hfollows, -, hmeans⟩ := hwatch
  exact ⟨grip, hmeans, hfollows.1⟩

/-- A task that waits and is waited for is about to insert or to update a photo. -/
theorem jammed_of_waits (h : Reachable settings state) (hwaits : WaitsFor state t u)
    (hheld : WaitsFor state v t) :
    u ≠ t ∧ ∃ grip : Grip, grip.Means t state.world ∧ Jammed state t u grip := by
  obtain ⟨op, resume, loop, resource, htask, hneeds, howner, hblocks⟩ := hwaits
  obtain ⟨grip, hmeans, hallowed⟩ := grip_of_running h htask
  obtain ⟨_, _, _, held, -, -, hheld, -⟩ := hheld
  have hholds : grip.hold ≠ .nothing := fun hfree =>
    Grip.not_covers_of_free hfree (hmeans.held held hheld)
  cases op with
  | acquireStartLock app => exact (hholds hallowed).elim
  | execute stmt =>
      cases resource with
      | startLock app => exact hneeds.elim
      | row key =>
          refine ⟨hblocks, grip, hmeans, ?_⟩
          obtain ⟨write, hresolve, hkey⟩ := hneeds
          cases stmt with
          | insertPhoto photo =>
              obtain ⟨hhold, hid, ext, hobject⟩ := hallowed
              obtain ⟨rfl, hnone⟩ := inserts_of_resolve hresolve
              refine .insert photo.photoId key (hhold.resolve_left hholds) hid hnone ?_ howner
              rcases List.mem_cons.mp hkey with rfl | hkey
              · exact .inl rfl
              · obtain rfl := List.mem_singleton.mp hkey
                obtain ⟨ext', hcut⟩ :=
                  PhotoService.exists_cut_objectKey photo.photoId ext
                exact .inr ⟨ext', congrArg RowKey.objectKey
                  ((congrArg (Column.cut 1024) hobject).trans hcut)⟩
          | insertBatch id status => exact (hholds hallowed.1).elim
          | insertAnalysis id faces blurred score hash => exact (hholds hallowed).elim
          | updatePhoto id status values =>
              obtain rfl := resolve_update hresolve
              obtain rfl := List.mem_singleton.mp hkey
              rcases hallowed with hhold | hhold | ⟨photos, n, hhold, rfl, ⟨time, rfl⟩, photo,
                hphoto, rfl⟩
              · exact (hholds hhold).elim
              · exact .result id hhold howner
              · exact .mark photos n photo time resume loop hhold hphoto htask howner
          | updateBatch id status best => exact (hholds hallowed).elim
  | _ => exact hneeds.elim

theorem Tables.Keep.view (w : World) (t : Tid) : w.db.committed.Keep (w.view t) :=
  .writes _ _

/-- A row that a jammed task holds is its own upload's, or a photo that it has marked. -/
theorem not_insert {grip grip' : Grip} (hmeans : grip.Means t state.world)
    (hmeans' : grip'.Means u state.world) (hne : u ≠ t) {id : UUID} {key : RowKey}
    (hid : id ∈ grip.minted) (hnone : (state.world.view t).photo id = none)
    (hkey : key = .photo id ∨ ∃ ext, key = .objectKey (PhotoService.objectKey id ext))
    (howner : state.world.owner (.row key) = some u) (hjam : Jammed state u v grip') : False := by
  have hcovers := hmeans'.held _ howner
  have hclash : id ∉ grip'.minted := fun hid' => hne (Option.some.inj
    ((hmeans'.minted id hid').symm.trans (hmeans.minted id hid)))
  have hrows : grip'.hold = .rows → False := by
    intro hhold
    rw [Grip.covers, hhold] at hcovers
    rcases hkey with rfl | ⟨ext, rfl⟩
    · exact hclash hcovers
    · obtain ⟨id', hid', ext', hobject⟩ := hcovers
      exact hclash (PhotoService.photoId_of_objectKey hobject ▸ hid')
  cases hjam with
  | insert id' key' hhold => exact hrows hhold
  | result id' hhold =>
      rw [Grip.covers, hhold] at hcovers
      rcases hkey with rfl | ⟨ext, rfl⟩ <;> exact hcovers
  | mark photos n photo time resume loop hhold =>
      rw [Grip.covers, hhold] at hcovers
      rcases hkey with rfl | ⟨ext, rfl⟩
      · obtain ⟨marked, hmarked, rfl⟩ := hcovers
        obtain ⟨p, hp, -⟩ := (hmeans'.marks photos n hhold).2 marked (List.mem_of_mem_take hmarked)
        obtain ⟨q, hq, -⟩ := Tables.Keep.view state.world t _ _ hp
        cases hnone.symm.trans hq
      · exact hcovers

open Relation

/-- Around a circle every task is waited for. -/
theorem jammed_of_circle (h : Reachable settings state) (hwaits : WaitsFor state t u)
    (hback : ReflTransGen (WaitsFor state) u t) :
    u ≠ t ∧ ∃ grip : Grip, grip.Means t state.world ∧ Jammed state t u grip := by
  rcases hback.cases_tail with rfl | ⟨v, -, hheld⟩
  · exact jammed_of_waits h hwaits hwaits
  · exact jammed_of_waits h hwaits hheld

theorem circle_next (hwaits : WaitsFor state t u)
    (hback : ReflTransGen (WaitsFor state) u t) :
    ∃ v, WaitsFor state u v ∧ ReflTransGen (WaitsFor state) v u := by
  rcases hback.cases_head with rfl | ⟨v, huv, hrest⟩
  · exact ⟨u, hwaits, .refl⟩
  · exact ⟨v, huv, hrest.tail hwaits⟩

/-- Nobody in a circle holds rows of its own making or a result. -/
theorem mark_of_circle (h : Reachable settings state) (hwaits : WaitsFor state t u)
    (hback : ReflTransGen (WaitsFor state) u t) :
    ∃ grip : Grip, grip.Means t state.world ∧ Jammed state t u grip ∧
      ∃ photos n, grip.hold = .marks photos n := by
  have hnone : ∀ {t u}, WaitsFor state t u → ReflTransGen (WaitsFor state) u t →
      ∃ grip : Grip, grip.Means t state.world ∧ Jammed state t u grip ∧
        grip.hold ≠ .rows := by
    intro t u hwaits hback
    obtain ⟨hne, grip, hmeans, hjam⟩ := jammed_of_circle h hwaits hback
    refine ⟨grip, hmeans, hjam, fun hrows => ?_⟩
    cases hjam with
    | insert id key hhold hid hnone hkey howner =>
        obtain ⟨v, huv, hvu⟩ := circle_next hwaits hback
        obtain ⟨-, grip', hmeans', hjam'⟩ := jammed_of_circle h huv hvu
        exact not_insert hmeans hmeans' hne hid hnone hkey howner hjam'
    | result id hhold => cases hrows.symm.trans hhold
    | mark photos n photo time resume loop hhold => cases hrows.symm.trans hhold
  obtain ⟨grip, hmeans, hjam, hrows⟩ := hnone hwaits hback
  refine ⟨grip, hmeans, hjam, ?_⟩
  cases hjam with
  | insert id key hhold => exact (hrows hhold).elim
  | mark photos n photo time resume loop hhold => exact ⟨photos, n, hhold⟩
  | result id hhold =>
      -- the task that waits for this one asks for a photo, which it does not hold
      obtain ⟨v, hvt, htv⟩ : ∃ v, WaitsFor state v t ∧ ReflTransGen (WaitsFor state) t v := by
        rcases hback.cases_tail with rfl | ⟨v, huv, hvt⟩
        · exact ⟨_, hwaits, .refl⟩
        · exact ⟨v, hvt, .head hwaits huv⟩
      obtain ⟨grip', -, hjam', hrows'⟩ := hnone hvt htv
      cases hjam' with
      | insert id' key hhold' => exact (hrows' hhold').elim
      | result id' hhold' howner =>
          have hcovers := hmeans.held _ howner
          rw [Grip.covers, hhold] at hcovers
          exact hcovers.elim
      | mark photos n photo time resume loop hhold' hphoto htask howner =>
          have hcovers := hmeans.held _ howner
          rw [Grip.covers, hhold] at hcovers
          exact hcovers.elim

/-- Task `t` publishes photos and has come to mark this one. -/
structure AboutToMark (state : State) (t : Tid) (photo : Photo) : Prop where
  publisher : ∃ app before, state.world.arrivals t = some ⟨.outboxPublisher app, before⟩
  statement : ∃ time resume loop, state.tasks t = .running (.await (.execute
    (.updatePhoto photo.photoId none (PhotoRepository.publishedValues time))) resume) loop
  committed : state.world.db.committed.photo photo.photoId = some photo

theorem publisher_of_marking (h : Reachable settings state) {id : UUID} {time : Time}
    {resume : Except PyExc Nat → Py (Option Reply)} {loop : Py (Option Reply)}
    (htask : state.tasks t = .running (.await (.execute (.updatePhoto id none
      (PhotoRepository.publishedValues time))) resume) loop) :
    ∃ app before, state.world.arrivals t = some ⟨.outboxPublisher app, before⟩ := by
  have hstart : ∀ tid, doing.Watches start.world tid (start.tasks tid) := fun _ => trivial
  have hwatch := (doing_sound settings).leads (fun _ _ => trivial) hstart h t
  rw [htask] at hwatch
  obtain ⟨_, entry, hfollows, -, before, ha⟩ := hwatch
  have hdoes : Op.Does entry.effects (.execute (.updatePhoto id none
    (PhotoRepository.publishedValues time))) := hfollows.1
  cases entry with
  | outboxPublisher app => exact ⟨app, before, ha⟩
  | _ => simp [Op.Does, Op.effect, Stmt.effect, PhotoRepository.publishedValues,
      Entry.effects] at hdoes

/-- The photo a task has come to mark, and when it was created. -/
def State.markedAt (state : State) (t : Tid) : Time :=
  match state.tasks t with
  | .running (.await (.execute (.updatePhoto id _ _)) _) _ =>
      ((state.world.db.committed.photo id).map Photo.createdAt).getD 0
  | _ => 0

theorem AboutToMark.markedAt {photo : Photo} (h : AboutToMark state t photo) :
    state.markedAt t = photo.createdAt := by
  obtain ⟨time, resume, loop, htask⟩ := h.statement
  simp [State.markedAt, htask, h.committed]

/-- The next task around the circle has come to a photo that is not older. -/
theorem marks_later (h : Reachable settings state) (hwaits : WaitsFor state t u)
    (hback : ReflTransGen (WaitsFor state) u t) :
    ∃ p q, AboutToMark state t p ∧ AboutToMark state u q ∧
      state.world.owner (.row (.photo p.photoId)) = some u ∧ p.photoId ≠ q.photoId ∧
      p.createdAt ≤ q.createdAt := by
  obtain ⟨v, huv, hvu⟩ := circle_next hwaits hback
  obtain ⟨grip, hmeans, hjam, photos, n, hhold⟩ := mark_of_circle h hwaits hback
  obtain ⟨grip', hmeans', hjam', photos', n', hhold'⟩ := mark_of_circle h huv hvu
  have hne := (jammed_of_circle h huv hvu).1
  cases hjam with
  | insert id key hother => cases hother.symm.trans hhold
  | result id hother => cases hother.symm.trans hhold
  | mark _ _ photo time resume loop hsame hphoto htask howner =>
      cases hjam' with
      | insert id key hother => cases hother.symm.trans hhold'
      | result id hother => cases hother.symm.trans hhold'
      | mark _ _ photo' time' resume' loop' hsame' hphoto' htask' howner' =>
          cases hsame.symm.trans hhold
          cases hsame'.symm.trans hhold'
          obtain ⟨hsorted, hknown⟩ := hmeans'.marks photos' n' hhold'
          obtain ⟨p, hp, hidentity⟩ :=
            (hmeans.marks photos n hhold).2 photo (List.mem_of_mem_drop hphoto)
          obtain ⟨q, hq, hidentity'⟩ := hknown photo' (List.mem_of_mem_drop hphoto')
          obtain ⟨hpid, -, -, -⟩ := Photo.identity_eq hidentity
          obtain ⟨hqid, -, -, hqtime, -⟩ := Photo.identity_eq hidentity'
          have hcovers := hmeans'.held _ howner
          rw [Grip.covers, hhold'] at hcovers
          obtain ⟨marked, hmarked, hid⟩ := hcovers
          have hptime : p.createdAt = marked.createdAt := by
            obtain ⟨p', hp', hsame⟩ := hknown marked (List.mem_of_mem_take hmarked)
            rw [hid, hp] at hp'
            exact Option.some.inj hp' ▸ (Photo.identity_eq hsame).2.2.2.1
          have hle : marked.createdAt ≤ photo'.createdAt := by
            rw [← List.take_append_drop n' photos'] at hsorted
            exact (List.pairwise_append.mp hsorted).2.2 marked hmarked photo' hphoto'
          refine ⟨p, q, ⟨publisher_of_marking h htask, ?_, ?_⟩,
            ⟨publisher_of_marking h htask', ?_, ?_⟩, ?_, ?_, ?_⟩
          · exact ⟨time, resume, loop, hpid ▸ htask⟩
          · exact hpid ▸ hp
          · exact ⟨time', resume', loop', hqid ▸ htask'⟩
          · exact hqid ▸ hq
          · exact hpid ▸ howner
          · intro hsame
            rw [hpid, hqid] at hsame
            exact hne (Option.some.inj ((hsame ▸ howner').symm.trans howner))
          · rw [hptime, hqtime]
            exact hle

/--
Tasks wait for each other in a circle only if they are outbox publishers.  Each of
them has come to mark a photo that the next one has marked in its open transaction,
and the photos, which differ from one task to the next, were all created at one time.
-/
theorem circle_publishers (h : Reachable settings state) (hwaits : WaitsFor state t u)
    (hback : ReflTransGen (WaitsFor state) u t) :
    ∃ p q, AboutToMark state t p ∧ AboutToMark state u q ∧
      state.world.owner (.row (.photo p.photoId)) = some u ∧ p.photoId ≠ q.photoId ∧
      p.createdAt = q.createdAt := by
  obtain ⟨p, q, hp, hq, howner, hne, -⟩ := marks_later h hwaits hback
  refine ⟨p, q, hp, hq, howner, hne, ?_⟩
  rw [← hp.markedAt, ← hq.markedAt]
  refine rank_eq_of_circle (fun a b hab hba => ?_) hwaits hback
  obtain ⟨p, q, hp, hq, -, -, hle⟩ := marks_later h hab hba
  rwa [hp.markedAt, hq.markedAt]

/-- As a check: a statement of task `t` needs a row that task `u` holds. -/
def waitsForRow (state : State) (t u : Tid) : Bool :=
  match state.tasks t with
  | .running (.await (.execute stmt) _) _ =>
      match stmt.resolve (state.world.now t) (state.world.view t) with
      | .ok (some write) =>
          u ≠ t && write.keys.any fun key => state.world.db.holder key = some u
      | _ => false
  | _ => false

theorem waitsFor_of_row (h : waitsForRow state t u = true) : WaitsFor state t u := by
  unfold waitsForRow at h
  split at h
  next stmt resume loop htask =>
    split at h
    next write hwrite =>
      rw [Bool.and_eq_true, List.any_eq_true] at h
      obtain ⟨hne, key, hkey, hholder⟩ := h
      have hother : u ≠ t := of_decide_eq_true hne
      exact ⟨_, resume, loop, .row key, htask, ⟨write, hwrite, hkey⟩,
        of_decide_eq_true hholder, hother⟩
    next => cases h
  next => cases h

end

/-- A publisher that fetches two photos, up to its mark of the second one. -/
def marksPair (t : Tid) (app : Nat) (order : List UUID) : Schedule :=
  .start t (.outboxPublisher app) :: goes t 10 ++ [.step t (.rows order)] ++ goes t 4 ++
    [.step t (.time 5)] ++ goes t 6 ++ [.step t (.time 5)]

/-- The photos of a batch are created at one time, and two publishers meet half-way. -/
theorem circle_publishers_pair : ∃ state, Reachable defaultSettings state ∧
    WaitsFor state 2 1 ∧
    ∃ p q, AboutToMark state 1 p ∧ AboutToMark state 2 q ∧
      state.world.owner (.row (.photo p.photoId)) = some 2 ∧ p.photoId ≠ q.photoId ∧
      p.createdAt = q.createdAt := by
  obtain ⟨state, hreach, hfirst, hsecond⟩ := reachable_of_any defaultSettings
    (uploadsPair ++ marksPair 1 0 [jpegId, pngId] ++ marksPair 2 1 [pngId, jpegId])
    (P := fun state => waitsForRow state 1 2 = true ∧ waitsForRow state 2 1 = true)
    (by decide +kernel)
  have hback := waitsFor_of_row hsecond
  exact ⟨state, hreach, hback,
    circle_publishers hreach (waitsFor_of_row hfirst) (.single hback)⟩

end PhotoAnalysis

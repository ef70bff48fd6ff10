import PhotoAnalysis.Refinement.Locks
import PhotoAnalysis.Refinement.Sending

/-!
# What the tasks hold

Rows and start locks as one kind of resource: what an operation takes and what it
gives up.  In every reachable state a task holds no more than its grip tells.
-/

namespace PhotoAnalysis

open Foundation Program

/-- What a task can hold, and another one wait for. -/
inductive Resource where
  | row (key : RowKey)
  | startLock (app : Nat)

def World.owner (w : World) : Resource → Option Tid
  | .row key => w.db.holder key
  | .startLock app => (w.producers app).startLock

/-- What an operation that task `t` is about to perform has to get hold of. -/
def Op.needs (w : World) (t : Tid) : Op → Resource → Prop
  | .execute stmt, .row key => ∃ write,
      stmt.resolve (w.now t) (w.view t) = .ok (some write) ∧ key ∈ write.keys
  | .acquireStartLock app, .startLock lock => lock = app
  | _, _ => False

/-! ## What an operation takes and gives up -/

section

variable {t : Tid} {op : Op} {choice : Choice} {w w' : World}
variable {resource : Resource} {u : Tid}

/-- What a task has after it, that it did not have before. -/
def Op.takes (w : World) (t : Tid) (op : Op) : Except PyExc op.Ans → Resource → Prop
  | .ok _, resource => op.needs w t resource
  | .error _, _ => False

theorem owner_rollback (h : (w.rollback t).owner resource = some u) :
    w.owner resource = some u := by
  cases resource with
  | row key => exact (TxStore.holder_finish.mp h).1
  | startLock app => exact h

theorem owner_commit (h : (w.commit t).owner resource = some u) :
    w.owner resource = some u := by
  cases resource with
  | row key => exact (TxStore.holder_finish.mp h).1
  | startLock app => exact h

theorem owner_execute {stmt : Stmt} {answer : Except PyExc Nat}
    (h : w.execute t stmt = some (answer, w')) (howner : w'.owner resource = some u) :
    w.owner resource = some u ∨ u = t ∧ (Op.execute stmt).takes w t answer resource := by
  simp only [World.execute] at h
  split at h
  · cases h
    exact .inl (owner_rollback howner)
  · cases h
    exact .inl howner
  next write hresolve =>
    split at h
    next hfree =>
      cases h
      cases resource with
      | row key =>
          refine (TxStore.holder_write (h := hfree) howner).imp_right fun hkey => ?_
          exact ⟨hkey.1, write, hresolve, hkey.2⟩
      | startLock app => exact .inl howner
    next => cases h

/-- What a task did not have before an operation it has got through it. -/
theorem owner_cases {answer : Except PyExc op.Ans}
    (h : World.perform t op choice w = some (answer, w')) (howner : w'.owner resource = some u) :
    w.owner resource = some u ∨ u = t ∧ op.takes w t answer resource := by
  rcases World.perform_cases h with ⟨exc, kept, -, -, rfl⟩ |
    ⟨exc, w₁, hw₁, -, rfl⟩ | h
  · cases kept
    · exact .inl (owner_rollback howner)
    · exact .inl howner
  · cases op with
    | commit =>
        cases hw₁
        exact .inl (owner_commit howner)
    | _ => first
        | cases hw₁
          exact .inl howner
        | cases hw₁
  · cases op with
    | execute stmt => cases choice <;> first | exact owner_execute h howner | cases h
    | commit =>
        cases choice <;> cases h
        exact .inl (owner_commit howner)
    | rollback | close =>
        cases choice <;> cases h
        exact .inl (owner_rollback howner)
    | acquireStartLock app =>
        cases choice <;> try cases h
        simp only [World.answer] at h
        split at h <;> cases h
        cases resource with
        | row key => exact .inl howner
        | startLock lock =>
            by_cases hlock : lock = app
            · subst hlock
              refine .inr ⟨?_, rfl⟩
              simpa [World.owner, World.setProducer] using howner.symm
            · refine .inl ?_
              simpa [World.owner, World.setProducer, Function.update_of_ne hlock] using howner
    | setProducer app | setStarted app | releaseStartLock app | stopProducer app =>
        cases choice <;> cases h
        cases resource with
        | row key => exact .inl howner
        | startLock lock =>
            refine .inl ?_
            by_cases hlock : lock = app
            · subst hlock
              simp only [World.owner, World.setProducer, Function.update_self] at howner
              first
                | exact howner
                | cases howner
            · simpa [World.owner, World.setProducer, Function.update_of_ne hlock] using howner
    | select query =>
        cases choice <;> try cases h
        obtain ⟨rows, -, heq⟩ := Option.map_eq_some_iff.mp h
        cases heq
        exact .inl howner
    | uuid4 | getObject | sleep | waitStop | getone =>
        cases choice <;> try cases h
        simp only [World.answer] at h
        split at h <;> cases h <;> exact .inl howner
    | _ =>
        cases choice <;> cases h
        exact .inl howner

theorem minted_of_perform {answer : Except PyExc op.Ans} {id : UUID}
    (h : World.perform t op choice w = some (answer, w')) (hid : w.minted id = some u) :
    w'.minted id = some u := by
  rcases World.perform_cases h with ⟨exc, kept, -, -, rfl⟩ |
    ⟨exc, w₁, hw₁, -, rfl⟩ | h
  · cases kept <;> exact hid
  · cases op <;> first
      | (cases hw₁; exact hid)
      | cases hw₁
  · cases op with
    | uuid4 =>
        cases choice <;> try cases h
        simp only [World.answer] at h
        split at h
        next fresh hfresh =>
          cases h
          refine (Function.update_of_ne ?_ ..).trans hid
          rintro rfl
          simp [hid] at hfresh
        next => cases h
    | execute stmt =>
        cases choice <;> try cases h
        simp only [World.answer, World.execute] at h
        split at h
        · cases h
          exact hid
        · cases h
          exact hid
        · split at h <;> cases h
          exact hid
    | select query =>
        cases choice <;> try cases h
        obtain ⟨rows, -, heq⟩ := Option.map_eq_some_iff.mp h
        cases heq
        exact hid
    | getObject | sleep | acquireStartLock | waitStop | getone =>
        cases choice <;> try cases h
        simp only [World.answer] at h
        split at h <;> cases h <;> exact hid
    | _ =>
        cases choice <;> cases h
        exact hid

theorem minted_of_uuid4 {id : UUID}
    (h : World.perform t .uuid4 choice w = some (.ok id, w')) : w'.minted id = some t := by
  rcases World.perform_cases h with ⟨exc, kept, hcan, -⟩ | ⟨exc, w₁, hw₁, -⟩ | h
  · cases hcan
  · cases hw₁
  · cases choice <;> try cases h
    simp only [World.answer] at h
    split at h <;> cases h
    exact Function.update_self ..

/-- The end of a transaction, or of the start lock. -/
def Op.gives : (op : Op) → Except PyExc op.Ans → Resource → Prop
  | .commit, .ok _, .row _ => True
  | .rollback, _, .row _ | .close, _, .row _ => True
  | .releaseStartLock app, .ok _, .startLock lock => lock = app
  | _, _, _ => False

theorem not_owner_of_gives {answer : Except PyExc op.Ans}
    (h : World.perform t op choice w = some (answer, w'))
    (hgives : op.gives answer resource) : w'.owner resource ≠ some t := by
  have hover : ∀ {db : Database} {tables : Tables} {key : RowKey},
      (db.finish t tables).holder key ≠ some t :=
    fun howner => (TxStore.holder_finish.mp howner).2 rfl
  rcases World.perform_cases h with ⟨exc, kept, hcan, rfl, rfl⟩ |
    ⟨exc, w₁, hw₁, rfl, rfl⟩ | h
  · cases op with
    | rollback | close =>
        cases kept
        · cases resource with
          | row key => exact hover
          | startLock app => exact hgives.elim
        · cases hcan
    | _ => exact hgives.elim
  · cases op with
    | rollback | close => cases hw₁
    | _ => exact hgives.elim
  · cases op with
    | commit | rollback | close =>
        cases choice <;> cases h
        cases resource with
        | row key => exact hover
        | startLock app => exact hgives.elim
    | releaseStartLock app =>
        cases choice <;> cases h
        cases resource with
        | row key => exact hgives.elim
        | startLock lock =>
            obtain rfl := hgives
            simp [World.owner, World.setProducer]
    | _ => exact hgives.elim

end

/-! ## What a grip tells -/

/-- The rows that may be locked. -/
def Hold.locks (minted : List UUID) : Hold → RowKey → Prop
  | rows, .photo id | rows, .batch id => id ∈ minted
  | rows, .objectKey key => ∃ id ∈ minted, ∃ ext, key = PhotoService.objectKey id ext
  | result, .analysis _ => True
  | marks photos n, .photo id => ∃ photo ∈ photos.take n, photo.photoId = id
  | last, _ => True
  | _, _ => False

namespace Grip

def covers (grip : Grip) : Resource → Prop
  | .row key => grip.hold.locks grip.minted key
  | .startLock app => grip.hold = .startLock app

structure Means (t : Tid) (grip : Grip) (w : World) : Prop where
  minted : ∀ id ∈ grip.minted, w.minted id = some t
  held : ∀ resource, w.owner resource = some t → grip.covers resource
  marks : ∀ photos n, grip.hold = .marks photos n →
    photos.Pairwise (fun p q => p.createdAt ≤ q.createdAt) ∧ ∀ photo ∈ photos, w.Knows photo

variable {t : Tid} {grip : Grip} {w w' : World}

theorem not_covers_of_free (h : grip.Free) {resource : Resource} : ¬grip.covers resource := by
  intro hcovers
  cases resource with
  | row key =>
      rw [covers, h] at hcovers
      cases key with
      | photo | objectKey | analysis | batch => exact hcovers
  | startLock app => cases h.symm.trans hcovers

theorem covers_name {resource : Resource} {id : UUID} (h : grip.covers resource) :
    (grip.name id).covers resource := by
  cases resource with
  | startLock app => exact h
  | row key =>
      obtain ⟨minted, hold⟩ := grip
      cases hold with
      | rows =>
          cases key with
          | photo key | batch key => exact List.mem_cons_of_mem _ h
          | objectKey key =>
              obtain ⟨id', hid, ext, hkey⟩ := h
              exact ⟨id', List.mem_cons_of_mem _ hid, ext, hkey⟩
          | analysis key => exact h
      | nothing | result | marks | last | startLock => cases key <;> exact h

/-- Nothing more is held, and what is known stays so. -/
theorem Means.keep (h : grip.Means t w)
    (hminted : ∀ id u, w.minted id = some u → w'.minted id = some u)
    (howner : ∀ resource, w'.owner resource = some t → w.owner resource = some t)
    (hphotos : w.db.committed.Keep w'.db.committed) : grip.Means t w' where
  minted := fun id hid => hminted id t (h.minted id hid)
  held := fun resource hresource => h.held resource (howner resource hresource)
  marks := fun photos n hhold =>
    ⟨(h.marks photos n hhold).1, fun photo hphoto =>
      ((h.marks photos n hhold).2 photo hphoto).keep hphotos⟩

/-- A task that holds no row has written nothing. -/
theorem Means.view (h : grip.Means t w) (hhold : grip.hold = .nothing) :
    w.view t = w.db.committed := by
  refine TxStore.view_of_clean (List.eq_nil_iff_forall_not_mem.mpr fun write hwrite => ?_)
  have hkey : ∃ key, key ∈ write.keys := by
    cases write with
    | _ => exact ⟨_, List.mem_cons_self⟩
  obtain ⟨key, hkey⟩ := hkey
  exact not_covers_of_free hhold (h.held (.row key) (w.db.held t write hwrite key hkey))

end Grip

theorem inserts_of_resolve {photo : NewPhoto} {now : Time} {T : Tables} {write : Write}
    (h : (Stmt.insertPhoto photo).resolve now T = .ok (some write)) :
    write = .addPhoto (photo.row now) ∧ T.photo photo.photoId = none := by
  simp only [Stmt.resolve] at h
  split at h
  · cases h
  split at h
  · cases h
  next hnew =>
    split at h
    · cases h
    · cases h
      refine ⟨rfl, ?_⟩
      cases hphoto : T.photo photo.photoId with
      | none => rfl
      | some row => simp [hphoto] at hnew

/-- The photo that is found is among those marked then. -/
theorem mem_take_markedUpTo {photos : List Photo} {n : Nat} {id : UUID}
    (h : ∃ photo ∈ photos.drop n, photo.photoId = id) :
    ∃ photo ∈ photos.take (markedUpTo photos n id), photo.photoId = id := by
  obtain ⟨photo, hmem, hid⟩ := h
  have hlt : (photos.drop n).findIdx (fun photo => photo.photoId = id) <
      (photos.drop n).length :=
    List.findIdx_lt_length_of_exists ⟨photo, hmem, decide_eq_true hid⟩
  have hfound := List.findIdx_getElem (w := hlt)
  rw [List.getElem_drop, decide_eq_true_iff] at hfound
  rw [List.length_drop] at hlt
  refine ⟨_, List.mem_take_iff_getElem.mpr ⟨n + (photos.drop n).findIdx
    (fun photo => photo.photoId = id), ?_, rfl⟩, hfound⟩
  rw [markedUpTo]
  omega

section

variable {stmt : Stmt} {minted : List UUID} {hold : Hold} {key : RowKey}

/-- What was locked before a statement is locked after it. -/
theorem locks_after (hallowed : (Grip.mk minted hold).allowed (.execute stmt))
    (h : hold.locks minted key) : (hold.after stmt).locks minted key := by
  cases stmt with
  | insertPhoto photo =>
      rcases hallowed.1 with hhold | hhold
      · obtain rfl : hold = .nothing := hhold
        cases key <;> exact h.elim
      · obtain rfl : hold = .rows := hhold
        exact h
  | insertBatch id status =>
      obtain rfl : hold = .nothing := hallowed.1
      cases key <;> exact h.elim
  | insertAnalysis id faces blurred score hash =>
      obtain rfl : hold = .nothing := hallowed
      cases key <;> exact h.elim
  | updatePhoto id status values =>
      rcases hallowed with hhold | hhold | ⟨photos, n, hhold, -⟩
      · obtain rfl : hold = .nothing := hhold
        cases key <;> exact h.elim
      · obtain rfl : hold = .result := hhold
        trivial
      · obtain rfl : hold = .marks photos n := hhold
        cases key with
        | photo key =>
            obtain ⟨photo, hphoto, hid⟩ := h
            refine ⟨photo, List.take_subset_take_left _ ?_ hphoto, hid⟩
            rw [markedUpTo]
            omega
        | objectKey | analysis | batch => exact h.elim
  | updateBatch id status best => trivial

/-- No statement is issued under the start lock. -/
theorem startLock_not_allowed {app : Nat}
    (hallowed : (Grip.mk minted hold).allowed (.execute stmt)) : hold ≠ .startLock app := by
  rintro rfl
  cases stmt with
  | insertPhoto photo => rcases hallowed.1 with hhold | hhold <;> cases hhold
  | insertBatch id status => cases hallowed.1
  | insertAnalysis id faces blurred score hash => cases hallowed
  | updatePhoto id status values =>
      rcases hallowed with hhold | hhold | ⟨photos, n, hhold, -⟩ <;> cases hhold
  | updateBatch id status best => cases hallowed

theorem marks_of_after {photos : List Photo} {n : Nat} (h : hold.after stmt = .marks photos n) :
    ∃ m, hold = .marks photos m := by
  cases stmt with
  | updatePhoto id status values =>
      cases hold with
      | marks fetched m =>
          cases h
          exact ⟨m, rfl⟩
      | _ => cases h
  | _ => cases h

/-- The rows that a statement locks are among those its grip tells. -/
theorem locks_of_resolve {now : Time} {T : Tables} {write : Write}
    (h : stmt.resolve now T = .ok (some write)) (hkey : key ∈ write.keys)
    (hallowed : (Grip.mk minted hold).allowed (.execute stmt)) :
    (hold.after stmt).locks minted key := by
  cases stmt with
  | insertPhoto photo =>
      obtain ⟨-, hid, ext, hobject⟩ := hallowed
      obtain ⟨rfl, -⟩ := inserts_of_resolve h
      rcases List.mem_cons.mp hkey with rfl | hkey
      · exact hid
      · obtain rfl := List.mem_singleton.mp hkey
        obtain ⟨ext', hcut⟩ := PhotoService.exists_cut_objectKey photo.photoId ext
        exact ⟨_, hid, ext', (congrArg (Column.cut 1024) hobject).trans hcut⟩
  | insertBatch id status =>
      simp only [Stmt.resolve] at h
      split at h
      · cases h
      · cases h
        obtain rfl := List.mem_singleton.mp hkey
        exact hallowed.2
  | insertAnalysis id faces blurred score hash =>
      simp only [Stmt.resolve] at h
      split at h
      · cases h
      split at h
      · cases h
      split at h
      · cases h
      · cases h
        obtain rfl := List.mem_singleton.mp hkey
        trivial
  | updatePhoto id status values =>
      obtain rfl := resolve_update h
      obtain rfl := List.mem_singleton.mp hkey
      rcases hallowed with hhold | hhold | ⟨photos, n, hhold, -, -, hnext⟩
      · obtain rfl : hold = .nothing := hhold
        trivial
      · obtain rfl : hold = .result := hhold
        trivial
      · obtain rfl : hold = .marks photos n := hhold
        exact mem_take_markedUpTo hnext
  | updateBatch id status best => trivial

end

/-! ## The grip of every task -/

def gripping : Monitor Op Op.Ans PyExc Entry World Grip where
  protocol := grips
  first := fun _ => ⟨[], .nothing⟩
  between := fun _ => Grip.Free
  means := Grip.Means

namespace Grip.Means

variable {t : Tid} {grip : Grip} {op : Op} {choice : Choice} {w w' : World}
variable {minted : List UUID} {hold : Hold}

/-- The photos that are fetched come in the order of their creation. -/
theorem fetched {limit : Nat} {photos : List Photo} {T : Tables} {order : List UUID}
    (h : (Query.unpublished limit).answer T order = some photos) :
    photos.Pairwise (fun p q => p.createdAt ≤ q.createdAt) ∧
      ∀ photo ∈ photos, T.photo photo.photoId = some photo := by
  refine ⟨?_, fun photo => photo_of_unpublished h⟩
  obtain ⟨listed, hlisted, rfl⟩ := Option.map_eq_some_iff.mp h
  exact ((perm_of_inOrder hlisted).2.imp of_decide_eq_true).sublist (List.take_sublist _ _)

/-- The same grip, after an operation that took nothing. -/
theorem keep_of_perform {answer : Except PyExc op.Ans} (h : grip.Means t w)
    (hperform : World.perform t op choice w = some (answer, w'))
    (htakes : ∀ resource, ¬op.takes w t answer resource) : grip.Means t w' :=
  h.keep (fun _ _ => minted_of_perform hperform)
    (fun resource howner => (owner_cases hperform howner).resolve_right
      fun htaken => htakes resource htaken.2) (Transacts.perform hperform).keep

/-- Everything is given up. -/
theorem free_of_perform {answer : Except PyExc op.Ans} (h : grip.Means t w)
    (hperform : World.perform t op choice w = some (answer, w'))
    (hgives : ∀ resource, grip.covers resource → op.gives answer resource)
    (htakes : ∀ resource, ¬op.takes w t answer resource) :
    (grip.make .nothing).Means t w' where
  minted := fun id hid => minted_of_perform hperform (h.minted id hid)
  held := fun resource howner => by
    rcases owner_cases hperform howner with hbefore | ⟨-, htaken⟩
    · exact (not_owner_of_gives hperform (hgives _ (h.held _ hbefore)) howner).elim
    · exact (htakes resource htaken).elim
  marks := fun photos n hhold => by cases hhold

theorem execute {stmt : Stmt} {rowcount : Nat} (h : (Grip.mk minted hold).Means t w)
    (hallowed : (Grip.mk minted hold).allowed (.execute stmt))
    (hperform : World.perform t (.execute stmt) choice w = some (.ok rowcount, w')) :
    (Grip.mk minted (hold.after stmt)).Means t w' where
  minted := fun id hid => minted_of_perform hperform (h.minted id hid)
  held := fun resource howner => by
    rcases owner_cases hperform howner with hbefore | ⟨-, htaken⟩
    · have hcovers := h.held resource hbefore
      cases resource with
      | row key => exact locks_after hallowed hcovers
      | startLock app => exact (startLock_not_allowed hallowed hcovers).elim
    · cases resource with
      | row key =>
          obtain ⟨write, hresolve, hkey⟩ := htaken
          exact locks_of_resolve hresolve hkey hallowed
      | startLock app => exact htaken.elim
  marks := fun photos n hhold => by
    obtain ⟨m, rfl⟩ := marks_of_after hhold
    obtain ⟨hsorted, hknown⟩ := h.marks photos m rfl
    exact ⟨hsorted, fun photo hphoto =>
      (hknown photo hphoto).keep (Transacts.perform hperform).keep⟩

/-- What is marked stays in the order it was fetched in. -/
theorem select {limit : Nat} {photos : List Photo} (h : grip.Means t w)
    (hhold : grip.hold = .nothing)
    (hperform : World.perform t (.select (.unpublished limit)) choice w =
      some (.ok photos, w')) : (grip.make (.marks photos 0)).Means t w' where
  minted := fun id hid => minted_of_perform hperform (h.minted id hid)
  held := fun resource howner => by
    rcases owner_cases hperform howner with hbefore | ⟨-, htaken⟩
    · exact (not_covers_of_free hhold (h.held resource hbefore)).elim
    · exact htaken.elim
  marks := fun photos' n hmarks => by
    cases hmarks
    have hview := h.view hhold
    rcases World.perform_cases hperform with ⟨exc, kept, -, herror, -⟩ |
      ⟨exc, w₁, -, herror, -⟩ | hanswer
    · cases herror
    · cases herror
    · cases choice <;> try cases hanswer
      obtain ⟨rows, hrows, heq⟩ := Option.map_eq_some_iff.mp hanswer
      cases heq
      obtain ⟨hsorted, hphotos⟩ := fetched hrows
      refine ⟨hsorted, fun photo hphoto => ⟨photo, ?_, rfl⟩⟩
      have hfound := hphotos photo hphoto
      rw [hview] at hfound
      exact hfound

theorem perform {answer : Except PyExc op.Ans} (h : grip.Means t w)
    (hallowed : grip.allowed op)
    (hperform : World.perform t op choice w = some (answer, w')) :
    ∃ grip', grip.next op answer = some grip' ∧ grip'.Means t w' := by
  have hunlocked : (∀ app, grip.hold ≠ .startLock app) → ∀ resource, grip.covers resource →
      ∃ key, resource = .row key := by
    rintro hunlocked (key | app) hcovers
    · exact ⟨key, rfl⟩
    · exact (hunlocked app hcovers).elim
  cases answer with
  | error exc =>
      have hkeep := h.keep_of_perform hperform fun _ htaken => htaken
      cases op with
      | rollback | close =>
          refine ⟨_, rfl, h.free_of_perform hperform (fun resource hcovers => ?_)
            fun _ htaken => htaken⟩
          obtain ⟨key, rfl⟩ := hunlocked hallowed resource hcovers
          trivial
      | releaseStartLock app =>
          rcases World.perform_cases hperform with ⟨exc, kept, hcan, -⟩ |
            ⟨exc, w₁, hw₁, -⟩ | hanswer
          · cases hcan
          · cases hw₁
          · cases choice <;> cases hanswer
      | select query =>
          cases query with
          | _ => exact ⟨grip, rfl, hkeep⟩
      | _ => exact ⟨grip, rfl, hkeep⟩
  | ok value =>
      cases op with
      | uuid4 =>
          have hkeep := h.keep_of_perform hperform fun _ htaken => htaken
          refine ⟨_, rfl, ⟨?_, ?_, hkeep.marks⟩⟩
          · rintro id hid
            rcases List.mem_cons.mp hid with rfl | hid
            · exact minted_of_uuid4 hperform
            · exact hkeep.minted id hid
          · exact fun resource howner => covers_name (hkeep.held resource howner)
      | execute stmt =>
          have hmeans : (Grip.mk grip.minted grip.hold).Means t w := h
          exact ⟨_, rfl, hmeans.execute hallowed hperform⟩
      | select query =>
          cases query with
          | unpublished limit => exact ⟨_, rfl, h.select hallowed hperform⟩
          | _ => exact ⟨grip, rfl, h.keep_of_perform hperform fun _ htaken => htaken⟩
      | commit | rollback | close =>
          refine ⟨_, rfl, h.free_of_perform hperform (fun resource hcovers => ?_)
            fun _ htaken => htaken⟩
          obtain ⟨key, rfl⟩ := hunlocked hallowed resource hcovers
          trivial
      | acquireStartLock app =>
          refine ⟨_, rfl, ⟨fun id hid => minted_of_perform hperform (h.minted id hid),
            fun resource howner => ?_, fun photos n hmarks => by cases hmarks⟩⟩
          rcases owner_cases hperform howner with hbefore | ⟨-, htaken⟩
          · exact (not_covers_of_free hallowed (h.held resource hbefore)).elim
          · cases resource with
            | row key => exact htaken.elim
            | startLock lock => exact congrArg Hold.startLock (htaken : lock = app).symm
      | releaseStartLock app =>
          refine ⟨_, rfl, h.free_of_perform hperform (fun resource hcovers => ?_)
            fun _ htaken => htaken⟩
          have hhold : grip.hold = .startLock app := hallowed
          cases resource with
          | row key =>
              rw [covers, hhold] at hcovers
              cases key with
              | photo | objectKey | analysis | batch => exact hcovers.elim
          | startLock lock => exact (Hold.startLock.inj (hcovers.symm.trans hhold))
      | _ => exact ⟨grip, rfl, h.keep_of_perform hperform fun _ htaken => htaken⟩

end Grip.Means

section

variable {settings : Settings} {state state' : State} {t : Tid}
variable {label : Label Entry Choice World.External}

/-- What another task does takes nothing that a task holds, and gives it nothing. -/
theorem aside_of_next (resource : Resource)
    (hnext : (system settings).next state label = some state') (htask : label.task ≠ some t) :
    state'.world.arrivals t = state.world.arrivals t ∧
      (∀ id u, state.world.minted id = some u → state'.world.minted id = some u) ∧
      (state'.world.owner resource = some t → state.world.owner resource = some t) ∧
      state.world.db.committed.Keep state'.world.db.committed := by
  cases Machine.goes_of_next _ hnext with
  | start u entry =>
      refine ⟨Function.update_of_ne ?_ .., fun _ _ h => h, fun h => h, .refl _⟩
      exact fun heq => htask (congrArg some heq.symm)
  | step u choice op resume loop answer w' hrunning hperform =>
      refine ⟨congrFun (World.perform_tasks hperform).1 t, fun _ _ =>
        minted_of_perform hperform, fun howner => ?_, (Transacts.perform hperform).keep⟩
      refine (owner_cases hperform howner).resolve_right fun htaken => ?_
      exact htask (congrArg some htaken.1.symm)
  | again u loop => exact ⟨rfl, fun _ _ h => h, fun h => h, .refl _⟩
  | returned u | raised u | crash u =>
      exact ⟨rfl, fun _ _ h => h, owner_rollback, .refl _⟩
  | external event =>
      cases event with
      | tick | stop | produce => exact ⟨rfl, fun _ _ h => h, fun h => h, .refl _⟩

/-- Only a task that has started holds anything. -/
theorem owner_started (h : Reachable settings state) {resource : Resource}
    (howner : state.world.owner resource = some t) : state.tasks t ≠ .fresh := by
  refine Machine.Leads.induct (m := system settings) (P := fun state : State =>
    ∀ resource t, state.world.owner resource = some t → state.tasks t ≠ .fresh)
    ?_ h ?_ resource t howner
  · intro state label state' ih hnext resource t howner
    by_cases htask : label.task = some t
    · cases Machine.goes_of_next _ hnext with
      | start u | step u | again u | returned u | raised u | crash u =>
          obtain rfl := Option.some.inj htask
          rw [Pool.set_tasks_self]
          exact fun hfresh => by cases hfresh
      | external event => cases htask
    · have hstarted := ih resource t ((aside_of_next resource hnext htask).2.2.1 howner)
      cases Machine.goes_of_next _ hnext with
      | start u | step u | again u | returned u | raised u | crash u =>
          rwa [Pool.set_tasks_of_ne]
          exact fun heq => htask (congrArg some heq.symm)
      | external event => exact hstarted
  · intro resource t howner
    cases resource with
    | row | startLock => cases howner

theorem gripping_sound (settings : Settings) :
    gripping.Sound (system settings) (Reachable settings) := by
  have hleaves : ∀ {program : Py (Option Reply)} {entry : Entry} {grip : Grip},
      program.Follows grips Grip.Turns grip →
      program.Follows gripping.protocol (gripping.Leaves entry) grip := by
    refine fun h => h.mono ?_
    rintro (exc | (_ | reply)) grip hgrip
    · trivial
    · exact hgrip
    · trivial
  have hfree : (Grip.mk [] .nothing).Free := rfl
  refine ⟨fun entry => hleaves (routine_grips settings entry hfree).1,
    fun entry grip hgrip => hleaves (routine_grips settings entry hgrip).2, ?_,
    fun _ hmeans hallowed => hmeans.perform hallowed, ?_⟩
  · intro state t entry hreach hfresh
    refine ⟨fun id hid => absurd hid List.not_mem_nil, fun resource howner => ?_,
      fun photos n hhold => by cases hhold⟩
    have hbefore : state.world.owner resource = some t := by
      cases resource with
      | row | startLock => exact howner
    exact (owner_started hreach hbefore hfresh).elim
  · intro state label state' t grip hreach hnext htask hmeans
    obtain ⟨-, hminted, -, hkeep⟩ := aside_of_next (.startLock 0) hnext htask
    exact hmeans.keep hminted (fun resource => (aside_of_next resource hnext htask).2.2.1) hkeep

/-- What the routine of a task can get to. -/
def doing : Monitor Op Op.Ans PyExc Entry World Entry where
  protocol := ⟨fun entry op => op.Does entry.effects, fun entry _ _ => some entry⟩
  first := id
  between := fun entry mode => mode = entry
  means := fun t entry w => ∃ before, w.arrivals t = some ⟨entry, before⟩

theorem doing_sound (settings : Settings) :
    doing.Sound (system settings) fun _ => True := by
  have hfollows : ∀ {program : Py (Option Reply)} {entry : Entry},
      program.Uses (Op.Does entry.effects) →
      program.Follows doing.protocol (doing.Leaves entry) entry := by
    intro program entry h
    have hstays : Stays doing.protocol (· = entry) program := by
      refine Stays.uses h fun op mode hmode hop => ⟨hmode ▸ hop, fun answer mode' hnext => ?_⟩
      exact (Option.some.inj hnext).symm
    refine (hstays entry rfl).mono ?_
    rintro (exc | (_ | reply)) mode hmode
    · trivial
    · exact hmode
    · trivial
  refine ⟨fun entry => hfollows (routine_does settings entry).1, ?_, ?_, ?_, ?_⟩
  · rintro entry _ rfl
    exact hfollows (routine_does settings _).2
  · intro state t entry _ _
    exact ⟨_, Function.update_self ..⟩
  · rintro state t entry op choice answer w' - ⟨before, ha⟩ - hperform
    exact ⟨entry, rfl, before, (congrFun (World.perform_tasks hperform).1 t).trans ha⟩
  · rintro state label state' t entry - hnext htask ⟨before, ha⟩
    exact ⟨before, (aside_of_next (.startLock 0) hnext htask).1.trans ha⟩

end

end PhotoAnalysis

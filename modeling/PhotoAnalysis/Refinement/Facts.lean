import PhotoAnalysis.Refinement.Rules

/-!
# Facts a task can rely on

What the tasks know of the ledger while they work, and that it lasts: a name is
its maker's until it is in the tables, objects and batches belong to whoever
named them, a claimed photo to its owner, a locked row to the task that holds
the lock.
-/

namespace PhotoAnalysis

open Foundation

variable {M : Nat} {t : Tid} {locks : RowKey → Prop} {K : Ledger → Prop}

/-- One obligation for each way the ledger can change. -/
theorem Lasting.of_acts
    (hact : ∀ L L' other, other ≠ t → Inv M L → Act M other L L' →
      (∀ k, locks k → L'.tables.row k = L.tables.row k) → K L → K L')
    (hnote : ∀ L (event : Event) tid, event.Note tid → K L → K (L.note event))
    (hmint : ∀ L id, L.minted id = none → K L → K (L.mint t id)) :
    Lasting M t locks K where
  others := by
    rintro L L' other hne hI ⟨L₁, hfirst, hlast, hrows⟩ hk
    have hk₁ : K L₁ := by
      rcases hfirst with rfl | hfirst
      · exact hk
      · exact hact L L₁ other hne hI hfirst hrows hk
    rcases hlast with rfl | ⟨event, he, rfl⟩
    · exact hk₁
    · exact hnote L₁ event other he hk₁
  quiet := by
    intro L L' hI hquiet hk
    cases hquiet with
    | same => exact hk
    | note event he => exact hnote L event t he hk
    | mint h => exact hmint L _ h hk

/-! ## Names and objects -/

/-- A name that somebody else has made up is not inserted by this commit. -/
theorem Tx.photo_none {ws : List Write} {L : Ledger} {other : Tid} {id : UUID}
    (hI : Inv M L) (h : Tx M other L ws) (hne : other ≠ t)
    (hfresh : L.Fresh t id) : (L.commit other ws).tables.photo id = none := by
  cases hp : (L.commit other ws).tables.photo id with
  | none => rfl
  | some p =>
      rcases hI.photo_origin h hp with ⟨q, hq, -⟩ | ⟨-, hrow, -⟩
      · rw [hfresh.2] at hq
        cases hq
      · have hid : p.photoId = id := Tables.photoId_of_photo hp
        have hminted : L.minted id = some other := by
          rcases h.inserts hrow with ⟨_, _, _, -, -, -, hf, -⟩ |
            ⟨_, _, _, _, _, _, -, -, hmem, -, hrows⟩
          · exact hid ▸ hf.1
          · obtain ⟨file, -, -, hf, -⟩ := forall₂_right hrows hmem
            exact hid ▸ hf.1
        rw [hfresh.1, Option.some.injEq] at hminted
        exact absurd hminted.symm hne

theorem Act.fresh {L L' : Ledger} {other : Tid} {id : UUID} (hI : Inv M L)
    (h : Act M other L L') (hne : other ≠ t) (hfresh : L.Fresh t id) :
    L'.Fresh t id := by
  refine ⟨(h.grows hI).minted id t hfresh.1, ?_⟩
  cases h with
  | commit hlive ha htx => exact htx.photo_none hI hne hfresh
  | _ => exact hfresh.2

theorem Ledger.minted_mint {L : Ledger} {id id' : UUID}
    (h : L.minted id = some t) (hnone : L.minted id' = none) :
    (L.mint t id').minted id = some t := by
  have hne : id ≠ id' := by
    rintro rfl
    rw [h] at hnone
    cases hnone
  simp [Ledger.mint, hne, h]

theorem Ledger.Fresh.mint {L : Ledger} {id id' : UUID} (h : L.Fresh t id)
    (hnone : L.minted id' = none) : (L.mint t id').Fresh t id :=
  ⟨Ledger.minted_mint h.1 hnone, h.2⟩

theorem Lasting.fresh (id : UUID) : Lasting M t locks (Ledger.Fresh · t id) :=
  .of_acts (fun _ _ _ hne hI hact _ h => hact.fresh hI hne h)
    (fun _ _ _ _ h => h) (fun _ _ hnone h => h.mint hnone)

/-- An object under a key made from a name changes by its maker's doing only. -/
theorem Act.object {L L' : Ledger} {other : Tid} {id : UUID} {ext : Str}
    (h : Act M other L L') (hne : other ≠ t) (hfresh : L.Fresh t id) :
    L'.objects (PhotoService.objectKey id ext) =
      L.objects (PhotoService.objectKey id ext) := by
  cases h with
  | @put id' ext' object hput =>
      have hkey : PhotoService.objectKey id ext ≠
          PhotoService.objectKey id' ext' := by
        intro heq
        obtain rfl := PhotoService.photoId_of_objectKey heq
        exact hne (Option.some.inj (hput.1.symm.trans hfresh.1))
      simp [hkey]
  | _ => rfl

/-- An upload that has been stored and not committed yet. -/
structure Ledger.Uploaded (L : Ledger) (t : Tid) (requestId : Str)
    (batchId : Option UUID) (file : UploadFile) (row : Photo) : Prop where
  uploads : Uploads file requestId batchId row
  fresh : L.Fresh t row.photoId
  stored : L.Stored file row

theorem Lasting.uploaded (requestId : Str) (batchId : Option UUID)
    (file : UploadFile) (row : Photo) :
    Lasting M t locks (Ledger.Uploaded · t requestId batchId file row) := by
  refine .of_acts ?_ (fun L event _ _ h => ⟨h.uploads, h.fresh, h.stored⟩)
    fun L id hnone h => ⟨h.uploads, h.fresh.mint hnone, h.stored⟩
  intro L L' other hne hI hact _ h
  refine ⟨h.uploads, hact.fresh hI hne h.fresh, ?_⟩
  obtain ⟨ext, contentType, hvalid, hobject⟩ := h.stored
  obtain ⟨ext', hkey⟩ := h.uploads.objectKey
  refine ⟨ext, contentType, hvalid, ?_⟩
  rw [hkey] at hobject ⊢
  rw [hact.object hne h.fresh]
  exact hobject

theorem Lasting.forall₂ {α β : Type} {R : Ledger → α → β → Prop}
    (h : ∀ a b, Lasting M t locks (R · a b)) (as : List α) (bs : List β) :
    Lasting M t locks fun L => as.Forall₂ (R L) bs where
  others := fun L L' other hne hI hmove hk =>
    hk.imp fun a b => (h a b).others L L' other hne hI hmove
  quiet := fun L L' hI hquiet hk =>
    hk.imp fun a b => (h a b).quiet L L' hI hquiet

/-- A batch that has been named and not committed yet. -/
theorem Lasting.noBatch (batchId : UUID) :
    Lasting M t locks fun L =>
      L.minted batchId = some t ∧ L.tables.batch batchId = none := by
  refine .of_acts ?_ (fun _ _ _ _ h => h) ?_
  · rintro L L' other hne hI hact - ⟨hminted, hnone⟩
    refine ⟨(hact.grows hI).minted _ _ hminted, ?_⟩
    cases hact with
    | @commit ws hlive ha htx =>
        rcases htx.batch_cases batchId with heq | ⟨-, hother, -⟩ | ⟨batch, hb, -⟩
        · exact heq.trans hnone
        · rw [hminted, Option.some.injEq] at hother
          exact absurd hother.symm hne
        · rw [hnone] at hb
          cases hb
    | _ => exact hnone
  · rintro L id hfresh ⟨hminted, hnone⟩
    exact ⟨Ledger.minted_mint hminted hfresh, hnone⟩

theorem Lasting.commitsOf (commits : List (List Write)) :
    Lasting M t locks fun L => L.commitsOf t = commits := by
  refine .of_acts ?_ ?_ fun L id _ h => h
  · intro L L' other hne hI hact _ h
    cases hact with
    | commit hlive ha htx => exact (L.commitsOf_commit_of_ne _ hne).trans h
    | _ => exact h
  · intro L event tid he h
    exact (L.commitsOf_note he t).trans h

/-! ## Claimed photos -/

/-- The photo's row is there and pending. -/
def Ledger.Pending (L : Ledger) (id : UUID) : Prop :=
  ∃ p, L.tables.photo id = some p ∧ p.status = .pending

theorem Lasting.pending {id : UUID} (hlock : locks (.photo id)) :
    Lasting M t locks (Ledger.Pending · id) := by
  refine .of_acts ?_ (fun _ _ _ _ h => h) fun _ _ _ h => h
  rintro L L' other - - - hrows ⟨p, hp, hs⟩
  have hrow := hrows _ hlock
  simp only [Tables.row, Prod.mk.injEq] at hrow
  exact ⟨p, hrow.1.trans hp, hs⟩

/--
Task `t` owns the photo, whose committed row shows `tried` failed attempts, and
at most `asked` requests have been made about it.
-/
structure Ledger.Working (M : Nat) (L : Ledger) (t : Tid) (id : UUID)
    (tried asked : Nat) : Prop where
  owner : L.Owner t id
  lives : ∃ life : Life M, L.Lives id life ∧ life.tried = some tried
  asked : L.asked id ≤ asked

/-- Only its owner works on a photo. -/
theorem Act.lives {L L' : Ledger} {other : Tid} {id : UUID} {life : Life M}
    (hI : Inv M L) (h : Act M other L L') (hne : other ≠ t)
    (howner : L.Owner t id) (hlife : L.Lives id life) : L'.Lives id life := by
  cases h with
  | @commit ws hlive ha htx =>
      obtain ⟨a, hloaded, hshows⟩ := hlife
      have hchange := hI.change htx id
      obtain ⟨a', hloaded', hstatus⟩ := hI.owner_loaded howner
      rw [hloaded, Option.some.injEq] at hloaded'
      subst hloaded'
      rw [hloaded] at hchange
      generalize hafter : (L.commit other ws).tables.loaded id = after at hchange
      cases hchange with
      | same hc => exact ⟨a, hafter, hshows⟩
      | published hc hidentity hprogress hanalysis hsent hd =>
          refine ⟨_, hafter, ?_, ?_⟩
          · exact hprogress.trans hshows.progress
          · rw [hanalysis]
            exact hshows.result
      | worked hn hbefore hb hidentity hpublish hwho =>
          rcases hwho with ⟨-, hpending⟩ | ⟨-, -, hother⟩
          · exact absurd (hbefore.status.trans hpending) hstatus
          · exact absurd (hI.owner_unique hother howner) hne
  | _ => exact hlife

theorem Act.asked_le {L L' : Ledger} {other : Tid} {id : UUID} (hI : Inv M L)
    (h : Act M other L L') (hne : other ≠ t) (howner : L.Owner t id) :
    L'.asked id ≤ L.asked id := by
  cases h with
  | @ask photoId objectKey id' hid hother hn =>
      have hid' : UUID.parse photoId ≠ some id := by
        intro heq
        rw [hid, Option.some.injEq] at heq
        subst heq
        exact hne (hI.owner_unique hother howner)
      simp [Ledger.asked, hid']
  | _ => exact Nat.le_refl _

theorem Lasting.working (id : UUID) (tried asked : Nat) :
    Lasting M t locks (Ledger.Working M · t id tried asked) := by
  refine .of_acts ?_ ?_ fun _ _ _ h => ⟨h.owner, h.lives, h.asked⟩
  · rintro L L' other hne hI hact - ⟨howner, ⟨life, hlife, ht⟩, hasked⟩
    exact ⟨howner.mono (hact.grows hI), ⟨life, hact.lives hI hne howner hlife, ht⟩,
      (hact.asked_le hI hne howner).trans hasked⟩
  · intro L event tid _ h
    exact ⟨List.mem_cons_of_mem event h.owner, h.lives, h.asked⟩

end PhotoAnalysis

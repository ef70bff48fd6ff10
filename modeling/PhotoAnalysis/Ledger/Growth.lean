import PhotoAnalysis.Ledger.Changes

/-!
# What only grows

No act takes anything back: photos move on, histories are extended, names and
outcomes stay.  Facts that are read off such parts of the ledger, once true,
stay true whoever acts.
-/

namespace PhotoAnalysis

open Foundation

structure Grows (L L' : Ledger) : Prop where
  later : ∀ id a, L.tables.loaded id = some a →
    ∃ b, L'.tables.loaded id = some b ∧ LoadedPhoto.Later a b
  members : ∀ id, (L.tables.batch id).isSome →
    List.Forall₂ LoadedPhoto.Later (L.tables.members id) (L'.tables.members id)
  batch : ∀ id, (L.tables.batch id).isSome → (L'.tables.batch id).isSome
  events : ∀ event ∈ L.events, event ∈ L'.events
  topic : ∀ (i : Nat) record, L.topic[i]? = some record →
    L'.topic[i]? = some record
  minted : ∀ id t, L.minted id = some t → L'.minted id = some t
  arrivals : ∀ t arrival, L.arrivals t = some arrival →
    L'.arrivals t = some arrival
  outcomes : ∀ t outcome, L.outcomes t = some outcome →
    L'.outcomes t = some outcome
  ended : ∀ t ∈ L.ended, t ∈ L'.ended

namespace Grows

variable {L L' L'' : Ledger}

theorem forall₂_later_refl (l : List LoadedPhoto) :
    l.Forall₂ LoadedPhoto.Later l :=
  List.forall₂_same.mpr fun a _ => .refl a

theorem forall₂_later_trans {l l' l'' : List LoadedPhoto}
    (h : l.Forall₂ LoadedPhoto.Later l') (h' : l'.Forall₂ LoadedPhoto.Later l'') :
    l.Forall₂ LoadedPhoto.Later l'' := by
  induction h generalizing l'' with
  | nil => exact h'
  | cons hab _ ih =>
      cases h' with
      | cons hbc hrest => exact .cons (hab.trans hbc) (ih hrest)

theorem refl (L : Ledger) : Grows L L where
  later := fun _ a h => ⟨a, h, .refl a⟩
  members := fun _ _ => forall₂_later_refl _
  batch := fun _ h => h
  events := fun _ h => h
  topic := fun _ _ h => h
  minted := fun _ _ h => h
  arrivals := fun _ _ h => h
  outcomes := fun _ _ h => h
  ended := fun _ h => h

theorem trans (h : Grows L L') (h' : Grows L' L'') : Grows L L'' where
  later := by
    intro id a ha
    obtain ⟨b, hb, hab⟩ := h.later id a ha
    obtain ⟨c, hc, hbc⟩ := h'.later id b hb
    exact ⟨c, hc, hab.trans hbc⟩
  members := fun id hid =>
    forall₂_later_trans (h.members id hid) (h'.members id (h.batch id hid))
  batch := fun id hid => h'.batch id (h.batch id hid)
  events := fun event he => h'.events event (h.events event he)
  topic := fun i record hr => h'.topic i record (h.topic i record hr)
  minted := fun id t hm => h'.minted id t (h.minted id t hm)
  arrivals := fun t arrival ha => h'.arrivals t arrival (h.arrivals t arrival ha)
  outcomes := fun t outcome ho => h'.outcomes t outcome (h.outcomes t outcome ho)
  ended := fun t ht => h'.ended t (h.ended t ht)

theorem note (L : Ledger) (event : Event) : Grows L (L.note event) :=
  { refl L with events := fun _ h => List.mem_cons_of_mem event h }

theorem photo (h : Grows L L') {id : UUID} {p : Photo}
    (hp : L.tables.photo id = some p) :
    ∃ q, L'.tables.photo id = some q ∧ q.identity = p.identity ∧
      (p.publishStatus = .sent → q.publishStatus = .sent) ∧
      (p.status ≠ .pending → q.status ≠ .pending) := by
  obtain ⟨b, hb, hlater⟩ := h.later id _ (Tables.loaded_of_photo hp)
  exact ⟨b.photo, (Tables.loaded_eq_some.mp hb).1, hlater.identity, hlater.sent,
    hlater.claimed⟩

end Grows

/-! ## Facts that stay -/

theorem Announces.congr {record : ConsumerRecord} {p q : Photo}
    (h : Announces record p) (hq : q.identity = p.identity) :
    Announces record q := by
  obtain ⟨createdAt, traceId, hscalar, hvalue⟩ := h
  obtain ⟨hid, -, hkey, -⟩ := Photo.identity_eq hq
  exact ⟨createdAt, traceId, hscalar, by rw [hid, hkey]; exact hvalue⟩

namespace Ledger

variable {L L' : Ledger}

theorem ClaimRaised.mono (hg : Grows L L') {id : UUID} (h : L.ClaimRaised id) :
    L'.ClaimRaised id := by
  obtain ⟨t, op, pending, exc, hmem, hrest⟩ := h
  exact ⟨t, op, pending, exc, hg.events _ hmem, hrest⟩

theorem Delivered.mono (hg : Grows L L') {p q : Photo} (h : L.Delivered p)
    (hq : q.identity = p.identity) : L'.Delivered q := by
  obtain ⟨record, hmem, hacked, hannounces⟩ := h
  obtain ⟨i, hi⟩ := List.mem_iff_getElem?.mp hmem
  exact ⟨record, List.mem_of_getElem? (hg.topic i record hi), hacked,
    hannounces.congr hq⟩

theorem Settled.mono (hg : Grows L L') {i : Nat} (h : L.Settled i) :
    L'.Settled i := by
  obtain ⟨record, hi, hrest⟩ := h
  refine ⟨record, hg.topic i record hi, fun hacked => ?_⟩
  obtain ⟨id, p, hp, hannounces, hdone⟩ := hrest hacked
  obtain ⟨q, hq, hidentity, -, hclaimed⟩ := hg.photo hp
  exact ⟨id, q, hq, hannounces.congr hidentity,
    hdone.imp hclaimed (ClaimRaised.mono hg)⟩

theorem Owner.mono (hg : Grows L L') {t : Tid} {id : UUID} (h : L.Owner t id) :
    L'.Owner t id :=
  hg.events _ h

theorem CreatedFrom.mono (hg : Grows L L') {row : Photo} {file : UploadFile}
    (h : L.CreatedFrom row file) : L'.CreatedFrom row file := by
  rcases h with ⟨t, requestId, before, ha, hc⟩ |
    ⟨t, requestId, files, before, batchId, now, rows, i, ha, hc, hrest⟩
  · exact .inl ⟨t, requestId, before, hg.arrivals _ _ ha, hg.events _ hc⟩
  · exact .inr ⟨t, requestId, files, before, batchId, now, rows, i,
      hg.arrivals _ _ ha, hg.events _ hc, hrest⟩

theorem Answered.mono (hg : Grows L L') {t : Tid} {batchId : UUID}
    {response : BatchResponse} (h : L.Answered t batchId response) :
    L'.Answered t batchId response := by
  obtain ⟨requestId, before, ha, ho⟩ := h
  exact ⟨requestId, before, hg.arrivals _ _ ha, hg.outcomes _ _ ho⟩

/-! ## A completed batch is read alike at all times -/

/-- Equal but for the columns the outbox writes. -/
structure Alike (a b : LoadedPhoto) : Prop where
  identity : b.photo.identity = a.photo.identity
  progress : b.photo.progress = a.photo.progress
  analysis : b.analysis = a.analysis

theorem alike_of_terminal {l l' : List LoadedPhoto}
    (h : l.Forall₂ LoadedPhoto.ReadOf l')
    (hall : ∀ a ∈ l, a.photo.status.terminal) : l.Forall₂ Alike l' := by
  induction h with
  | nil => exact .nil
  | @cons a b l l' hab _ ih =>
      obtain ⟨hprogress, hanalysis⟩ := hab.final (hall a List.mem_cons_self)
      exact .cons ⟨hab.identity, hprogress, hanalysis⟩
        (ih fun c hc => hall c (List.mem_cons_of_mem a hc))

theorem allTerminal_iff {l : List LoadedPhoto} :
    BatchService.allTerminal l = true ↔
      l ≠ [] ∧ ∀ a ∈ l, a.photo.status.terminal := by
  simp [BatchService.allTerminal, PhotoStatus.terminal_iff]

theorem allTerminal_congr {l l' : List LoadedPhoto} (h : l.Forall₂ Alike l') :
    BatchService.allTerminal l' = BatchService.allTerminal l := by
  have hall : (l'.all fun a => BatchService.terminal a.photo.status) =
      l.all fun a => BatchService.terminal a.photo.status := by
    induction h with
    | nil => rfl
    | @cons a b l l' hab _ ih =>
        have hstatus : b.photo.status = a.photo.status :=
          congrArg Prod.fst hab.progress
        rw [List.all_cons, List.all_cons, hstatus, ih]
  have hempty : l'.isEmpty = l.isEmpty := by
    cases h <;> rfl
  rw [BatchService.allTerminal, BatchService.allTerminal, hall, hempty]

theorem details_congr {l l' : List LoadedPhoto} (h : l.Forall₂ Alike l') :
    l'.map BatchService.photoDetail = l.map BatchService.photoDetail := by
  induction h with
  | nil => rfl
  | @cons a b l l' hab _ ih =>
      obtain ⟨hid, hname, -⟩ := Photo.identity_eq hab.identity
      have hstatus : b.photo.status = a.photo.status :=
        congrArg Prod.fst hab.progress
      rw [List.map_cons, List.map_cons, ih]
      simp only [BatchService.photoDetail, hid, hname, hstatus, hab.analysis]

/-- Candidates that the sort key does not tell apart. -/
def SameKey (a b : BatchService.Candidate) : Prop :=
  b.1.photoId = a.1.photoId ∧ b.1.createdAt = a.1.createdAt ∧ b.2 = a.2

theorem keyLess_congr {a a' b b' : BatchService.Candidate} (ha : SameKey a a')
    (hb : SameKey b b') :
    BatchService.keyLess a' b' = BatchService.keyLess a b := by
  simp only [BatchService.keyLess, ha.1, ha.2.1, ha.2.2, hb.1, hb.2.1, hb.2.2]

theorem candidates_congr {l l' : List LoadedPhoto} (h : l.Forall₂ Alike l') :
    (l.filterMap BatchService.candidate).Forall₂ SameKey
      (l'.filterMap BatchService.candidate) := by
  induction h with
  | nil => exact .nil
  | @cons a b l l' hab _ ih =>
      obtain ⟨hid, -, -, htime, -⟩ := Photo.identity_eq hab.identity
      have hstatus : b.photo.status = a.photo.status :=
        congrArg Prod.fst hab.progress
      simp only [List.filterMap_cons, BatchService.candidate, hstatus,
        hab.analysis]
      by_cases hdone : a.photo.status = .done
      · cases hanalysis : a.analysis with
        | none => simpa [hdone] using ih
        | some row =>
            simp only [hdone, if_true, Option.map_some]
            exact .cons ⟨hid, htime, rfl⟩ ih
      · simpa [hdone] using ih

theorem minByKey_congr {a a' : BatchService.Candidate}
    {l l' : List BatchService.Candidate} (ha : SameKey a a')
    (h : l.Forall₂ SameKey l') :
    SameKey (BatchService.minByKey a l) (BatchService.minByKey a' l') := by
  induction h generalizing a a' with
  | nil => exact ha
  | @cons b b' l l' hb _ ih =>
      simp only [BatchService.minByKey, keyLess_congr hb ha]
      split
      · exact ih hb
      · exact ih ha

theorem selectBestPhoto_congr {l l' : List LoadedPhoto} (h : l.Forall₂ Alike l') :
    BatchService.selectBestPhoto l' = BatchService.selectBestPhoto l := by
  have hcandidates := candidates_congr h
  simp only [BatchService.selectBestPhoto]
  generalize l.filterMap BatchService.candidate = c at hcandidates
  generalize l'.filterMap BatchService.candidate = c' at hcandidates
  cases hcandidates with
  | nil => rfl
  | cons hfirst hrest => exact congrArg some (minByKey_congr hfirst hrest).1

theorem batchResponse_congr {l l' : List LoadedPhoto} (h : l.Forall₂ Alike l')
    (batchId : UUID) :
    BatchService.batchResponse batchId l' =
      BatchService.batchResponse batchId l := by
  simp only [BatchService.batchResponse, allTerminal_congr h, details_congr h,
    selectBestPhoto_congr h]

theorem Final.mono (hg : Grows L L') {batchId : UUID} {response : BatchResponse}
    (hbatch : (L.tables.batch batchId).isSome) (h : L.Final batchId response) :
    L'.Final batchId response := by
  obtain ⟨hall, hresponse⟩ := h
  have halike := alike_of_terminal
    ((hg.members batchId hbatch).imp fun _ _ => .of_later)
    (allTerminal_iff.mp hall).2
  exact ⟨(allTerminal_congr halike).trans hall,
    hresponse.trans (batchResponse_congr halike batchId).symm⟩

end Ledger

end PhotoAnalysis

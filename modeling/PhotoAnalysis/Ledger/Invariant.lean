import PhotoAnalysis.Ledger.Growth

/-!
# The invariant of the ledger

What holds of the committed state whatever has been done to it, and the proof
that every act preserves it.
-/

namespace PhotoAnalysis

open Foundation

/-- How many committed claims a photo must have had. -/
def claimsDue : Option LoadedPhoto → Nat
  | none => 0
  | some a => if a.photo.status = .pending then 0 else 1

/-- Size of a batch, and what its row says once it is completed. -/
structure BatchOk (members : List LoadedPhoto) (batch : Batch) : Prop where
  size : 2 ≤ members.length ∧ members.length ≤ 10
  completed : batch.status = .completed → BatchService.allTerminal members ∧
    batch.bestPhotoId = BatchService.selectBestPhoto members
  processing : batch.status = .processing → batch.bestPhotoId = none

structure Inv (M : Nat) (L : Ledger) : Prop where
  replay : L.tables = Ledger.replay L.events
  admitted : ∀ earlier t ws, .committed t ws :: earlier <:+ L.events →
    ∀ w ∈ ws, (Ledger.replay earlier).Admits w
  orphan : ∀ id, L.tables.photo id = none → L.tables.analysis id = none
  life : ∀ id a, L.tables.loaded id = some a → ∃ life : Life M, life.Shows a
  claims : ∀ id, L.claims id = claimsDue (L.tables.loaded id)
  asked : ∀ id, L.asked id ≤ if L.claims id = 0 then 0 else M
  minted : ∀ id, (L.tables.photo id).isSome → (L.minted id).isSome
  mintedBatch : ∀ id, (L.tables.batch id).isSome → (L.minted id).isSome
  arrived : ∀ t ws, Event.committed t ws ∈ L.events → (L.arrivals t).isSome
  created : ∀ id p, L.tables.photo id = some p →
    ∃ row file, row.photoId = id ∧ L.CreatedFrom row file
  stored : ∀ row file, L.CreatedFrom row file →
    (∃ p, L.tables.photo row.photoId = some p ∧ p.identity = row.identity) ∧
    L.Stored file row ∧ ∃ traceId batchId, Uploads file traceId batchId row
  sent : ∀ id p, L.tables.photo id = some p → p.publishStatus = .sent →
    L.Delivered p
  announced : ∀ record ∈ L.topic, record.acked →
    ∃ id p, L.tables.photo id = some p ∧ Announces record p
  settled : ∀ i < L.committedOffset, L.Settled i
  member : ∀ id p batchId, L.tables.photo id = some p →
    p.batchId = some batchId → (L.tables.batch batchId).isSome
  batches : ∀ id batch, L.tables.batch id = some batch →
    BatchOk (L.tables.members id) batch
  ends : ∀ t arrival outcome, L.arrivals t = some arrival →
    L.outcomes t = some outcome → L.Ends t arrival outcome
  finished : ∀ t ∈ L.ended, (L.outcomes t).isSome
  came : ∀ t, (L.outcomes t).isSome → (L.arrivals t).isSome
  before : ∀ t arrival, L.arrivals t = some arrival →
    ∀ t' ∈ arrival.before, t' ∈ L.ended

variable {M : Nat} {L L' : Ledger} {t : Tid} {ws : List Write}

/-! ## Claims and owners -/

private theorem eq_of_countP_le_one {α : Type} {p : α → Bool} {l : List α}
    (h : l.countP p ≤ 1) {a b : α} (ha : a ∈ l) (hb : b ∈ l) (hpa : p a = true)
    (hpb : p b = true) : a = b := by
  rw [List.countP_eq_length_filter] at h
  have ha' := List.mem_filter.mpr ⟨ha, hpa⟩
  have hb' := List.mem_filter.mpr ⟨hb, hpb⟩
  match hl : l.filter p, h with
  | [], _ => simp [hl] at ha'
  | [c], _ =>
      rw [hl, List.mem_singleton] at ha' hb'
      exact ha'.trans hb'.symm

theorem claimsDue_le_one (a : Option LoadedPhoto) : claimsDue a ≤ 1 := by
  unfold claimsDue
  split
  · exact Nat.zero_le 1
  · split <;> omega

namespace Ledger

theorem claims_commit (L : Ledger) (t : Tid) (ws : List Write) (id : UUID) :
    (L.commit t ws).claims id =
      L.claims id + if claimWrite id ∈ ws then 1 else 0 := by
  simp [claims, commit, List.countP_cons]

theorem claims_note (L : Ledger) {event : Event} (h : event.Note t) (id : UUID) :
    (L.note event).claims id = L.claims id := by
  cases event with
  | committed tid ws => exact h.elim
  | executed tid stmt rowcount => simp [claims, note]
  | raised tid op pending exc => simp [claims, note]

theorem Owner.claims_pos {id : UUID} (h : L.Owner t id) : 0 < L.claims id := by
  rw [claims, List.countP_pos_iff]
  exact ⟨_, h, by simp⟩

end Ledger

namespace Inv

variable (hI : Inv M L)

include hI

theorem owner_unique {t' : Tid} {id : UUID} (h : L.Owner t id)
    (h' : L.Owner t' id) : t = t' := by
  have hone : L.claims id ≤ 1 := hI.claims id ▸ claimsDue_le_one _
  have heq := eq_of_countP_le_one hone h h' (by simp) (by simp)
  simpa using heq

/-- A photo somebody owns is there and is no longer pending. -/
theorem owner_loaded {id : UUID} (h : L.Owner t id) :
    ∃ a, L.tables.loaded id = some a ∧ a.photo.status ≠ .pending := by
  have hpos := h.claims_pos
  rw [hI.claims id] at hpos
  cases ha : L.tables.loaded id with
  | none => simp [ha, claimsDue] at hpos
  | some a =>
      refine ⟨a, rfl, fun hp => ?_⟩
      simp [ha, claimsDue, hp] at hpos

theorem change (h : Tx M t L ws) (id : UUID) :
    Change M t L ws id (L.tables.loaded id)
      ((L.commit t ws).tables.loaded id) :=
  h.change id hI.life (hI.orphan id)

end Inv

/-! ## Growth -/

theorem Tx.avoids (h : Tx M t L ws) {batchId : UUID}
    (hbatch : (L.tables.batch batchId).isSome) :
    ∀ w ∈ ws, Tables.Avoids batchId w := by
  have hset : ∀ id values, Tables.Avoids batchId (.setPhoto id values) :=
    fun _ _ => trivial
  cases h with
  | upload ha hrow hfresh hstored =>
      obtain ⟨ext, contentType, now, -, -, hrow⟩ := hrow
      intro w hw
      rw [List.mem_singleton.mp hw, hrow]
      simp [Tables.Avoids, NewPhoto.row, PhotoService.newPhoto]
  | @batch requestId files before newId now rows ha hminted hfresh hcount hrows hnodup =>
      have hne : newId ≠ batchId := by
        rintro rfl
        simp [hfresh] at hbatch
      intro w hw
      rcases List.mem_cons.mp hw with rfl | hw
      · trivial
      · obtain ⟨row, hmem, rfl⟩ := List.mem_map.mp hw
        obtain ⟨file, -, ⟨ext, contentType, _, -, -, hrow⟩, -⟩ :=
          forall₂_right hrows hmem
        rw [hrow]
        simpa [Tables.Avoids, NewPhoto.row, PhotoService.newPhoto] using hne
  | publish h =>
      intro w hw
      obtain ⟨mark, -, rfl⟩ := List.mem_map.mp hw
      trivial
  | nothing => simp
  | claim ha hs => simp [claimWrite, Tables.Avoids]
  | attempt howner hlife ht hn => simp [Tables.Avoids]
  | done howner hlife ht hn hrow => simp [Tables.Avoids]
  | fail howner hlife ht hn => simp [Tables.Avoids]
  | complete hbatch hall => simp [Tables.Avoids]

/-- A transaction changes a batch only by creating or by completing it. -/
theorem Tx.batch_cases (h : Tx M t L ws) (id : UUID) :
    (L.commit t ws).tables.batch id = L.tables.batch id ∨
    (L.tables.batch id = none ∧ L.minted id = some t ∧ ∃ now rows,
      ws = batchWrites id now rows ∧
      (L.commit t ws).tables.batch id = some ⟨id, .processing, none, now⟩) ∨
    ∃ batch, L.tables.batch id = some batch ∧
      BatchService.allTerminal (L.tables.members id) ∧
      ws = [.setBatch id .completed
        (BatchService.selectBestPhoto (L.tables.members id))] ∧
      (L.commit t ws).tables.batch id = some (batch.complete .completed
        (BatchService.selectBestPhoto (L.tables.members id))) := by
  cases h with
  | nothing => exact .inl rfl
  | claim ha hs => exact .inl (Tables.batch_setPhoto _ _ _ _)
  | attempt howner hlife ht hn => exact .inl (Tables.batch_setPhoto _ _ _ _)
  | done howner hlife ht hn hrow => exact .inl rfl
  | fail howner hlife ht hn => exact .inl (Tables.batch_setPhoto _ _ _ _)
  | publish h => exact .inl (Tables.batch_marks _ _ _)
  | upload ha hrow hfresh hstored => exact .inl rfl
  | @batch requestId files before batchId now rows ha hminted hfresh hcount hrows hnodup =>
      have hafter : (L.commit t (batchWrites batchId now rows)).tables.batch id =
          if batchId = id ∧ L.tables.batch id = none then
            some ⟨batchId, .processing, none, now⟩ else L.tables.batch id := by
        simp only [Ledger.commit, batchWrites, List.foldl_cons,
          Tables.batch_inserts, Tables.batch_addBatch]
      by_cases hid : batchId = id
      · subst hid
        rw [if_pos ⟨rfl, hfresh⟩] at hafter
        exact .inr (.inl ⟨hfresh, hminted, now, rows, rfl, hafter⟩)
      · rw [if_neg fun h => hid h.1] at hafter
        exact .inl hafter
  | @complete batchId hbatch hall =>
      by_cases hid : batchId = id
      · subst hid
        obtain ⟨batch, hb⟩ := Option.isSome_iff_exists.mp hbatch
        exact .inr (.inr ⟨batch, hb, hall, rfl, by simp [Ledger.commit, hb]⟩)
      · exact .inl (by simp [Ledger.commit, hid])

theorem Inv.grows_commit (hI : Inv M L) (h : Tx M t L ws) :
    Grows L (L.commit t ws) := by
  have hlater : ∀ id a, L.tables.loaded id = some a →
      ∃ b, (L.commit t ws).tables.loaded id = some b ∧ LoadedPhoto.Later a b := by
    intro id a ha
    have hchange := hI.change h id
    rw [ha] at hchange
    exact hchange.later
  refine { Grows.refl L with
    later := hlater
    members := fun id hid =>
      Tables.members_of_evolves (Tables.evolves_foldl _ (h.avoids hid)) hlater
    batch := fun id hid => ?_
    events := fun event he => List.mem_cons_of_mem _ he }
  rcases h.batch_cases id with heq | ⟨-, -, now, rows, -, heq⟩ | ⟨batch, -, -, -, heq⟩
  · rw [heq]
    exact hid
  · simp [heq]
  · simp [heq]

private theorem getElem?_append_of_some {α : Type} {l l' : List α} {i : Nat}
    {a : α} (h : l[i]? = some a) : (l ++ l')[i]? = some a := by
  rw [List.getElem?_append_left (List.getElem?_eq_some_iff.mp h).1, h]

private theorem update_of_none {α β : Type} [DecidableEq α] {f : α → Option β}
    {a b : α} {c d : β} (hnone : f a = none) (h : f b = some d) :
    Function.update f a (some c) b = some d := by
  rw [Function.update_of_ne, h]
  rintro rfl
  rw [hnone] at h
  cases h

theorem Act.grows (hI : Inv M L) (h : Act M t L L') : Grows L L' := by
  cases h with
  | commit hlive ha h => exact hI.grows_commit h
  | mint h =>
      exact { Grows.refl L with minted := fun _ _ hm => update_of_none h hm }
  | put h => exact { Grows.refl L with }
  | send h =>
      exact { Grows.refl L with topic := fun _ _ hr => getElem?_append_of_some hr }
  | offset h => exact { Grows.refl L with }
  | ask hid howner hn => exact { Grows.refl L with }
  | arrive h hlive =>
      exact { Grows.refl L with arrivals := fun _ _ ha => update_of_none h ha }
  | reply ha hlive h =>
      exact { Grows.refl L with
        outcomes := fun _ _ ho => update_of_none hlive ho
        ended := fun _ he => List.mem_cons_of_mem t he }

end PhotoAnalysis

import PhotoAnalysis.Ledger.Invariant

/-!
# The invariant is preserved

A commit is the only act that touches the tables, so each clause of the
invariant is first carried across a commit.
-/

namespace PhotoAnalysis

open Foundation

variable {M : Nat} {L L' : Ledger} {t : Tid} {ws : List Write}

/-! ## Inserted rows -/

/-- A transaction that inserts a photo is an upload of its file. -/
theorem Tx.inserts (h : Tx M t L ws) {row : Photo} (hrow : .addPhoto row ∈ ws) :
    (∃ requestId file before,
      L.arrivals t = some ⟨.createPhoto requestId file, before⟩ ∧
      ws = [.addPhoto row] ∧ Uploads file requestId none row ∧
      L.Fresh t row.photoId ∧ L.Stored file row) ∨
    ∃ requestId files before batchId now rows,
      L.arrivals t = some ⟨.createBatch requestId files, before⟩ ∧
      ws = batchWrites batchId now rows ∧ row ∈ rows ∧
      (2 ≤ files.length ∧ files.length ≤ 10) ∧
      files.Forall₂ (fun file row => Uploads file requestId (some batchId) row ∧
        L.Fresh t row.photoId ∧ L.Stored file row) rows := by
  cases h with
  | @upload requestId file before row' ha hup hfresh hstored =>
      rw [List.mem_singleton, Write.addPhoto.injEq] at hrow
      subst hrow
      exact .inl ⟨requestId, file, before, ha, rfl, hup, hfresh, hstored⟩
  | @batch requestId files before batchId now rows ha hminted hfresh hcount hrows hnodup =>
      have hmem : row ∈ rows := by simpa [batchWrites] using hrow
      exact .inr ⟨requestId, files, before, batchId, now, rows, ha, rfl, hmem,
        hcount, hrows⟩
  | publish h => simp at hrow
  | nothing => simp at hrow
  | claim ha hs => simp [claimWrite] at hrow
  | attempt howner hlife ht hn => simp at hrow
  | done howner hlife ht hn hrow' => simp at hrow
  | fail howner hlife ht hn => simp at hrow
  | complete hbatch hall => simp at hrow

theorem Tx.admits (h : Tx M t L ws) : ∀ w ∈ ws, L.tables.Admits w := by
  intro w hw
  cases h with
  | upload ha hup hfresh hstored =>
      rw [List.mem_singleton.mp hw]
      exact hfresh.2
  | batch ha hminted hfresh hcount hrows hnodup =>
      rcases List.mem_cons.mp hw with rfl | hw
      · exact hfresh
      · obtain ⟨row, hmem, rfl⟩ := List.mem_map.mp hw
        obtain ⟨file, -, -, hfreshRow, -⟩ := forall₂_right hrows hmem
        exact hfreshRow.2
  | publish h =>
      obtain ⟨mark, -, rfl⟩ := List.mem_map.mp hw
      trivial
  | nothing => simp at hw
  | claim ha hs => simp_all [claimWrite, Tables.Admits]
  | attempt howner hlife ht hn => simp_all [Tables.Admits]
  | done howner hlife ht hn hrow =>
      simp only [List.mem_cons, List.not_mem_nil, or_false] at hw
      rcases hw with rfl | rfl <;> trivial
  | fail howner hlife ht hn => simp_all [Tables.Admits]
  | complete hbatch hall => simp_all [Tables.Admits]

theorem forall₂_getElem? {α β : Type} {R : α → β → Prop} {as : List α}
    {bs : List β} (h : as.Forall₂ R bs) {i : Nat} {a : α} {b : β}
    (ha : as[i]? = some a) (hb : bs[i]? = some b) : R a b := by
  induction h generalizing i with
  | nil => simp at ha
  | @cons a' b' as bs hab _ ih =>
      cases i with
      | zero =>
          simp only [List.getElem?_cons_zero, Option.some.injEq] at ha hb
          rw [← ha, ← hb]
          exact hab
      | succ i => exact ih ha hb

theorem forall₂_getElem?_right {α β : Type} {R : α → β → Prop} {as : List α}
    {bs : List β} (h : as.Forall₂ R bs) {i : Nat} {b : β}
    (hb : bs[i]? = some b) : ∃ a, as[i]? = some a ∧ R a b := by
  have hlt : i < as.length := by
    rw [h.length_eq]
    exact (List.getElem?_eq_some_iff.mp hb).1
  have ha := List.getElem?_eq_getElem hlt
  exact ⟨_, ha, forall₂_getElem? h ha hb⟩

/-- What a transaction inserts is there afterwards. -/
theorem Tx.photo_of_insert (h : Tx M t L ws) {row : Photo}
    (hrow : .addPhoto row ∈ ws) :
    (L.commit t ws).tables.photo row.photoId = some row := by
  cases h with
  | @upload requestId file before row' ha hup hfresh hstored =>
      rw [List.mem_singleton, Write.addPhoto.injEq] at hrow
      subst hrow
      simp [Ledger.commit, hfresh.2]
  | @batch requestId files before batchId now rows ha hminted hfresh hcount hrows hnodup =>
      have hmem : row ∈ rows := by simpa [batchWrites] using hrow
      obtain ⟨file, -, -, hfreshRow, -⟩ := forall₂_right hrows hmem
      simp only [Ledger.commit, batchWrites, List.foldl_cons,
        Tables.photo_inserts, Tables.photo_addBatch, hfreshRow.2, if_pos]
      cases hfind : rows.find? fun r => r.photoId = row.photoId with
      | none => exact absurd (List.find?_eq_none.mp hfind row hmem) (by simp)
      | some row' =>
          have hid : row'.photoId = row.photoId := by
            simpa using List.find?_some hfind
          rw [List.inj_on_of_nodup_map hnodup (List.mem_of_find?_eq_some hfind)
            hmem hid]
  | publish h => simp at hrow
  | nothing => simp at hrow
  | claim ha hs => simp [claimWrite] at hrow
  | attempt howner hlife ht hn => simp at hrow
  | done howner hlife ht hn hrow' => simp at hrow
  | fail howner hlife ht hn => simp at hrow
  | complete hbatch hall => simp at hrow

/-- Where a photo found after a commit comes from. -/
theorem Inv.photo_origin (hI : Inv M L) (h : Tx M t L ws) {id : UUID} {p : Photo}
    (hp : (L.commit t ws).tables.photo id = some p) :
    (∃ q, L.tables.photo id = some q ∧ p.identity = q.identity ∧
      (p.publishStatus = .sent → q.publishStatus = .sent ∨ L.Delivered q)) ∨
    L.tables.photo id = none ∧ .addPhoto p ∈ ws ∧ p.publishStatus ≠ .sent := by
  have hchange := hI.change h id
  rw [Tables.loaded_of_photo hp] at hchange
  generalize hbefore : L.tables.loaded id = before at hchange
  generalize (L.commit t ws).tables.analysis id = analysis at hchange
  generalize hafter : (⟨p, analysis⟩ : LoadedPhoto) = after at hchange
  cases hchange with
  | same hc =>
      subst hafter
      exact .inl ⟨p, (Tables.loaded_eq_some.mp hbefore).1, rfl, .inl⟩
  | @published a _ hc hidentity hprogress hanalysis hsent hd =>
      subst hafter
      exact .inl ⟨a.photo, (Tables.loaded_eq_some.mp hbefore).1, hidentity,
        fun _ => .inr hd⟩
  | @worked a _ life life' hn ha hb hidentity hpublish hwho =>
      subst hafter
      exact .inl ⟨a.photo, (Tables.loaded_eq_some.mp hbefore).1, hidentity,
        fun hs => .inl (hpublish.symm.trans hs)⟩
  | @created row hc hrow hpending hsent =>
      cases hafter
      exact .inr ⟨Tables.loaded_eq_none.mp hbefore, hrow, hsent⟩

/-! ## The clauses, across a commit -/

section

variable (hI : Inv M L) (h : Tx M t L ws)

include hI h

theorem Inv.commit_orphan (id : UUID)
    (hp : (L.commit t ws).tables.photo id = none) :
    (L.commit t ws).tables.analysis id = none := by
  have hold : L.tables.photo id = none := by
    cases hq : L.tables.photo id with
    | none => rfl
    | some q =>
        obtain ⟨q', hq', -⟩ := (hI.grows_commit h).photo hq
        rw [hp] at hq'
        cases hq'
  have hnone := hI.orphan id hold
  cases h with
  | nothing => exact hnone
  | claim ha hs => exact hnone
  | attempt howner hlife ht hn => exact hnone
  | fail howner hlife ht hn => exact hnone
  | publish h => exact (Tables.analysis_marks _ _ _).trans hnone
  | upload ha hup hfresh hstored => exact hnone
  | batch ha hminted hfresh hcount hrows hnodup =>
      exact (Tables.analysis_inserts _ _ _).trans hnone
  | complete hbatch hall => exact hnone
  | @done key n row life howner hlife ht hn hrow =>
      have hne : key ≠ id := by
        rintro rfl
        obtain ⟨a, ha, -⟩ := hlife
        rw [Tables.loaded_eq_none.mpr hold] at ha
        cases ha
      simpa [Ledger.commit, hrow, hne] using hnone

theorem Inv.commit_life (id : UUID) (a : LoadedPhoto)
    (ha : (L.commit t ws).tables.loaded id = some a) :
    ∃ life : Life M, life.Shows a := by
  have hchange := hI.change h id
  rw [ha] at hchange
  generalize hbefore : L.tables.loaded id = before at hchange
  cases hchange with
  | same hc => exact hI.life id a hbefore
  | @published b _ hc hidentity hprogress hanalysis hsent hd =>
      obtain ⟨life, hlife⟩ := hI.life id b hbefore
      exact ⟨life, hprogress.trans hlife.progress, by rw [hanalysis]; exact hlife.result⟩
  | worked hn ha hb hidentity hpublish hwho => exact ⟨_, hb⟩
  | created hc hrow hpending hsent => exact ⟨_, hpending⟩

theorem Inv.commit_claims (id : UUID) :
    (L.commit t ws).claims id = claimsDue ((L.commit t ws).tables.loaded id) := by
  have hchange := hI.change h id
  rw [L.claims_commit, hI.claims id]
  generalize (L.commit t ws).tables.loaded id = after at hchange ⊢
  generalize L.tables.loaded id = before at hchange ⊢
  cases hchange with
  | same hc => simp [hc]
  | published hc hidentity hprogress hanalysis hsent hd =>
      have hstatus := congrArg Prod.fst hprogress
      simp only [Photo.progress] at hstatus
      simp [hc, claimsDue, hstatus]
  | worked hn ha hb hidentity hpublish hwho =>
      have hb' := hb.status ▸ hn.ne_pending
      rcases hwho with ⟨hc, hpending⟩ | ⟨hc, hpending, -⟩
      · simp [hc, claimsDue, ha.status, hpending, hb']
      · simp [hc, claimsDue, ha.status, hpending, hb']
  | created hc hrow hpending hsent =>
      have hstatus : _ = PhotoStatus.pending := hpending.status
      simp only at hstatus
      simp [hc, claimsDue, hstatus]

omit h in
theorem Inv.commit_asked (id : UUID) :
    (L.commit t ws).asked id ≤ if (L.commit t ws).claims id = 0 then 0 else M := by
  have hold : (L.commit t ws).asked id ≤ if L.claims id = 0 then 0 else M :=
    hI.asked id
  refine hold.trans ?_
  rw [L.claims_commit]
  generalize (if claimWrite id ∈ ws then 1 else 0) = more
  by_cases hzero : L.claims id + more = 0
  · rw [if_pos hzero, if_pos (Nat.eq_zero_of_add_eq_zero_right hzero)]
  · rw [if_neg hzero]
    split
    · exact Nat.zero_le M
    · exact Nat.le_refl M

theorem Inv.commit_minted (id : UUID)
    (hp : ((L.commit t ws).tables.photo id).isSome) :
    ((L.commit t ws).minted id).isSome := by
  obtain ⟨p, hp⟩ := Option.isSome_iff_exists.mp hp
  rcases hI.photo_origin h hp with ⟨q, hq, -⟩ | ⟨-, hrow, -⟩
  · exact hI.minted id (Option.isSome_iff_exists.mpr ⟨q, hq⟩)
  · have hid := Tables.photoId_of_photo hp
    have hmint : L.minted id = some t := by
      rcases h.inserts hrow with ⟨_, _, _, -, -, -, hfresh, -⟩ |
        ⟨_, _, _, _, _, _, -, -, hmem, -, hrows⟩
      · exact hid ▸ hfresh.1
      · obtain ⟨file, -, -, hfresh, -⟩ := forall₂_right hrows hmem
        exact hid ▸ hfresh.1
    exact Option.isSome_iff_exists.mpr ⟨t, hmint⟩

theorem Inv.commit_mintedBatch (id : UUID)
    (hb : ((L.commit t ws).tables.batch id).isSome) :
    ((L.commit t ws).minted id).isSome := by
  rcases h.batch_cases id with heq | ⟨-, hmint, -⟩ | ⟨batch, hold, -⟩
  · exact hI.mintedBatch id (heq ▸ hb)
  · exact Option.isSome_iff_exists.mpr ⟨t, hmint⟩
  · exact hI.mintedBatch id (Option.isSome_iff_exists.mpr ⟨batch, hold⟩)

theorem Inv.commit_created (id : UUID) (p : Photo)
    (hp : (L.commit t ws).tables.photo id = some p) :
    ∃ row file, row.photoId = id ∧ (L.commit t ws).CreatedFrom row file := by
  have hg := hI.grows_commit h
  rcases hI.photo_origin h hp with ⟨q, hq, -⟩ | ⟨-, hrow, -⟩
  · obtain ⟨row, file, hid, hfrom⟩ := hI.created id q hq
    exact ⟨row, file, hid, hfrom.mono hg⟩
  · have hid := Tables.photoId_of_photo hp
    rcases h.inserts hrow with ⟨requestId, file, before, ha, rfl, -⟩ |
      ⟨requestId, files, before, batchId, now, rows, ha, rfl, hmem, -, hrows⟩
    · exact ⟨p, file, hid,
        .inl ⟨t, requestId, before, ha, List.mem_cons_self⟩⟩
    · obtain ⟨i, hi⟩ := List.mem_iff_getElem?.mp hmem
      obtain ⟨file, hfile, -⟩ := forall₂_getElem?_right hrows hi
      exact ⟨p, file, hid, .inr ⟨t, requestId, files, before, batchId, now, rows, i,
        ha, List.mem_cons_self, hi, hfile⟩⟩

theorem Inv.commit_stored (row : Photo) (file : UploadFile)
    (hfrom : (L.commit t ws).CreatedFrom row file) :
    (∃ p, (L.commit t ws).tables.photo row.photoId = some p ∧
      p.identity = row.identity) ∧
    (L.commit t ws).Stored file row ∧
    ∃ traceId batchId, Uploads file traceId batchId row := by
  have hold : L.CreatedFrom row file →
      (∃ p, (L.commit t ws).tables.photo row.photoId = some p ∧
        p.identity = row.identity) ∧
      (L.commit t ws).Stored file row ∧
      ∃ traceId batchId, Uploads file traceId batchId row := by
    intro hfrom
    obtain ⟨⟨p, hp, hidentity⟩, hstored, hup⟩ := hI.stored row file hfrom
    obtain ⟨q, hq, hq', -⟩ := (hI.grows_commit h).photo hp
    exact ⟨⟨q, hq, hq'.trans hidentity⟩, hstored, hup⟩
  rcases hfrom with ⟨t', requestId, before, ha, hc⟩ |
    ⟨t', requestId, files, before, batchId, now, rows, i, ha, hc, hrow, hfile⟩
  · rcases List.mem_cons.mp hc with heq | hc
    · obtain ⟨rfl, rfl⟩ := (Event.committed.injEq ..).mp heq
      have hins : Write.addPhoto row ∈ [Write.addPhoto row] := List.mem_cons_self
      rcases h.inserts hins with ⟨_, file', _, ha', -, hup, -, hstored⟩ |
        ⟨_, _, _, _, _, _, ha', -⟩
      · rw [show L.arrivals t' = _ from ha] at ha'
        cases ha'
        exact ⟨⟨row, h.photo_of_insert hins, rfl⟩, hstored, _, _, hup⟩
      · rw [show L.arrivals t' = _ from ha] at ha'
        cases ha'
    · exact hold (.inl ⟨t', requestId, before, ha, hc⟩)
  · rcases List.mem_cons.mp hc with heq | hc
    · obtain ⟨rfl, rfl⟩ := (Event.committed.injEq ..).mp heq
      have hins : Write.addPhoto row ∈ batchWrites batchId now rows :=
        List.mem_cons_of_mem _ (List.mem_map_of_mem (List.mem_of_getElem? hrow))
      rcases h.inserts hins with ⟨_, _, _, ha', -⟩ |
        ⟨_, files', _, batchId', now', rows', ha', hws, -, -, hrows⟩
      · rw [show L.arrivals t' = _ from ha] at ha'
        cases ha'
      · rw [show L.arrivals t' = _ from ha] at ha'
        cases ha'
        have hmap : rows.map Write.addPhoto = rows'.map Write.addPhoto :=
          (List.cons.inj hws).2
        have hinj : Function.Injective Write.addPhoto :=
          fun a b hab => Write.addPhoto.inj hab
        have hsame := hinj.list_map hmap
        subst hsame
        obtain ⟨hup, -, hstored⟩ := forall₂_getElem? hrows hfile hrow
        exact ⟨⟨row, h.photo_of_insert hins, rfl⟩, hstored, _, _, hup⟩
    · exact hold (.inr ⟨t', requestId, files, before, batchId, now, rows, i, ha, hc,
        hrow, hfile⟩)

theorem Inv.commit_sent (id : UUID) (p : Photo)
    (hp : (L.commit t ws).tables.photo id = some p)
    (hsent : p.publishStatus = .sent) : (L.commit t ws).Delivered p := by
  have hg := hI.grows_commit h
  rcases hI.photo_origin h hp with ⟨q, hq, hidentity, hold⟩ | ⟨-, -, hnot⟩
  · rcases hold hsent with hs | hd
    · exact (hI.sent id q hq hs).mono hg hidentity
    · exact hd.mono hg hidentity
  · exact absurd hsent hnot

theorem Inv.commit_announced (record : ConsumerRecord)
    (hmem : record ∈ (L.commit t ws).topic) (hacked : record.acked) :
    ∃ id p, (L.commit t ws).tables.photo id = some p ∧ Announces record p := by
  obtain ⟨id, p, hp, hannounces⟩ := hI.announced record hmem hacked
  obtain ⟨q, hq, hidentity, -⟩ := (hI.grows_commit h).photo hp
  exact ⟨id, q, hq, hannounces.congr hidentity⟩

theorem Inv.commit_member (id : UUID) (p : Photo) (batchId : UUID)
    (hp : (L.commit t ws).tables.photo id = some p)
    (hbatch : p.batchId = some batchId) :
    ((L.commit t ws).tables.batch batchId).isSome := by
  rcases hI.photo_origin h hp with ⟨q, hq, hidentity, -⟩ | ⟨-, hrow, -⟩
  · refine (hI.grows_commit h).batch batchId (hI.member id q batchId hq ?_)
    exact (Photo.identity_eq hidentity).2.2.2.2.2 ▸ hbatch
  · rcases h.inserts hrow with ⟨_, _, _, -, -, hup, -⟩ |
      ⟨_, _, _, newId, now, rows, -, rfl, hmem, -, hrows⟩
    · obtain ⟨ext, contentType, now, -, -, hrow⟩ := hup
      rw [hrow] at hbatch
      cases hbatch
    · obtain ⟨file, -, ⟨ext, contentType, _, -, -, hrow⟩, -⟩ :=
        forall₂_right hrows hmem
      rw [hrow] at hbatch
      obtain rfl : newId = batchId := Option.some.inj hbatch
      simp only [Ledger.commit, batchWrites, List.foldl_cons,
        Tables.batch_inserts, Tables.batch_addBatch]
      cases hold : L.tables.batch newId <;> simp

omit hI in
theorem Tx.ofBatch {batchId : UUID} {now : Time} {rows : List Photo}
    (hws : ws = batchWrites batchId now rows) :
    ∃ files : List UploadFile, (2 ≤ files.length ∧ files.length ≤ 10) ∧
      files.length = rows.length ∧ (rows.map Photo.photoId).Nodup ∧
      ∀ row ∈ rows, row.batchId = some batchId ∧
        L.tables.photo row.photoId = none := by
  cases h with
  | @batch requestId files before batchId' now' rows' ha hminted hfresh hcount hrows hnodup =>
      obtain ⟨hbatch, hmap⟩ := List.cons.inj hws
      have hinj : Function.Injective Write.addPhoto :=
        fun a b hab => Write.addPhoto.inj hab
      obtain rfl := hinj.list_map hmap
      obtain ⟨rfl, -⟩ : batchId' = batchId ∧ now' = now := by simpa using hbatch
      refine ⟨files, hcount, hrows.length_eq, hnodup, fun row hrow => ?_⟩
      obtain ⟨file, -, ⟨ext, contentType, _, -, -, hrow⟩, hfresh, -⟩ :=
        forall₂_right hrows hrow
      refine ⟨?_, hfresh.2⟩
      rw [hrow]
      rfl
  | publish h =>
      have : Write.addBatch ⟨batchId, .processing, none, now⟩ ∈
          batchWrites batchId now rows := List.mem_cons_self
      rw [← hws] at this
      simp at this
  | nothing => cases hws
  | claim ha hs => cases hws
  | attempt howner hlife ht hn => cases hws
  | done howner hlife ht hn hrow => cases hws
  | fail howner hlife ht hn => cases hws
  | upload ha hup hfresh hstored => cases hws
  | complete hbatch hall => cases hws

theorem Inv.commit_batches (id : UUID) (batch : Batch)
    (hb : (L.commit t ws).tables.batch id = some batch) :
    BatchOk ((L.commit t ws).tables.members id) batch := by
  rcases h.batch_cases id with heq | ⟨hnone, -, now, rows, hws, heq⟩ |
    ⟨old, hold, hall, hws, heq⟩
  · rw [heq] at hb
    obtain ⟨hsize, hcompleted, hprocessing⟩ := hI.batches id batch hb
    have hlater := (hI.grows_commit h).members id
      (Option.isSome_iff_exists.mpr ⟨batch, hb⟩)
    refine ⟨hlater.length_eq ▸ hsize, fun hc => ?_, hprocessing⟩
    obtain ⟨hall, hbest⟩ := hcompleted hc
    have halike := Ledger.alike_of_terminal
        (hlater.imp fun _ _ => .of_later)
      (Ledger.allTerminal_iff.mp hall).2
    rw [Ledger.allTerminal_congr halike, Ledger.selectBestPhoto_congr halike]
    exact ⟨hall, hbest⟩
  · obtain ⟨files, hcount, hlength, hnodup, hrows⟩ := h.ofBatch hws
    rw [hb, Option.some.injEq] at heq
    subst heq
    refine ⟨?_, nofun, fun _ => rfl⟩
    have hmembers : ((L.commit t ws).tables.members id).length = rows.length := by
      rw [hws]
      refine Tables.length_members_inserts
        (T := Write.apply L.tables (.addBatch ⟨id, .processing, none, now⟩))
        (fun row hrow => (hrows row hrow).2) hnodup (fun row hrow hid => ?_)
        fun row hrow => (hrows row hrow).1
      have hsome := hI.member row.photoId row id (Table.find_of_mem hrow) hid
      simp [hnone] at hsome
    rw [hmembers, ← hlength]
    exact hcount
  · rw [hb, Option.some.injEq] at heq
    subst heq
    have hmembers : (L.commit t ws).tables.members id = L.tables.members id := by
      rw [hws]
      rfl
    rw [hmembers]
    exact ⟨(hI.batches id old hold).size, fun _ => ⟨hall, rfl⟩, nofun⟩

end

/-! ## Ends of calls -/

theorem Inv.batch_of_members (hI : Inv M L) {id : UUID}
    (h : BatchService.allTerminal (L.tables.members id)) :
    (L.tables.batch id).isSome := by
  cases hm : L.tables.members id with
  | nil => simp [hm, BatchService.allTerminal] at h
  | cons a rest =>
      have hmem : a ∈ L.tables.members id := by simp [hm]
      obtain ⟨hloaded, hbatch⟩ := Tables.loaded_of_mem_members hmem
      exact hI.member _ _ id (Tables.loaded_eq_some.mp hloaded).1 hbatch

theorem Ledger.Ends.mono (hI : Inv M L) (hg : Grows L L') {arrival : Arrival}
    {outcome : Outcome} (hcommits : L'.commitsOf t = L.commitsOf t)
    (hseen : ∀ id, L'.SeenCompleted id arrival.before →
      L.SeenCompleted id arrival.before)
    (h : L.Ends t arrival outcome) : L'.Ends t arrival outcome := by
  cases outcome with
  | none => trivial
  | some result =>
      obtain ⟨entry, before⟩ := arrival
      cases entry with
      | createBatch requestId files =>
          cases result with
          | ok reply =>
              simp only [Ends, BatchEnds, hcommits] at h ⊢
              exact h
          | error exc =>
              simp only [Ends, BatchEnds, hcommits] at h ⊢
              refine h.imp_right ?_
              rintro ⟨pending, hraised, hcommitted⟩
              exact ⟨pending, hg.events _ hraised, hg.events _ hcommitted⟩
      | getBatch requestId batchId =>
          obtain ⟨hfinal, hagreed⟩ := h
          refine ⟨fun response hr hc => ?_, fun hs => ?_⟩
          · have hf := hfinal response hr hc
            exact hf.mono hg (hI.batch_of_members hf.1)
          · refine (hagreed (hseen batchId hs)).imp_right ?_
            rintro ⟨op, pending, exc, hr, hmem⟩
            exact ⟨op, pending, exc, hr, hg.events _ hmem⟩
      | createPhoto requestId file => trivial
      | getPhoto requestId photoId => trivial
      | listPhotos requestId limit offset => trivial
      | getPhotoContent requestId photoId => trivial
      | startProducer app => trivial
      | stopProducer app => trivial
      | outboxPublisher app => trivial
      | worker => trivial

/-- What ended before a call had its outcome already. -/
theorem Inv.seenCompleted_mono (hI : Inv M L) (hg : Grows L L')
    {arrival : Arrival} (ha : L.arrivals t = some arrival) (id : UUID)
    (h : L'.SeenCompleted id arrival.before) :
    L.SeenCompleted id arrival.before := by
  obtain ⟨t', hmem, response, ⟨requestId, before, ha', ho'⟩, hc⟩ := h
  have hended := hI.before t arrival ha t' hmem
  obtain ⟨outcome, ho⟩ := Option.isSome_iff_exists.mp (hI.finished t' hended)
  obtain rfl : outcome = some (.ok (.batch response)) := by
    have := hg.outcomes t' outcome ho
    rw [ho'] at this
    exact (Option.some.inj this).symm
  obtain ⟨arrival', harrival⟩ := Option.isSome_iff_exists.mp
    (hI.came t' (by simp [ho]))
  obtain rfl : arrival' = ⟨.getBatch requestId id, before⟩ := by
    have := hg.arrivals t' arrival' harrival
    rw [ha'] at this
    exact (Option.some.inj this).symm
  exact ⟨t', hmem, response, ⟨requestId, before, harrival, ho⟩, hc⟩

theorem Inv.ends_mono (hI : Inv M L) (hg : Grows L L')
    (hcommits : L'.commitsOf t = L.commitsOf t) {arrival : Arrival}
    {outcome : Outcome} (ha : L.arrivals t = some arrival)
    (h : L.Ends t arrival outcome) : L'.Ends t arrival outcome :=
  Ledger.Ends.mono hI hg hcommits (hI.seenCompleted_mono hg ha) h

theorem Ledger.commitsOf_commit_of_ne (L : Ledger) {t' : Tid} (ws : List Write)
    (h : t ≠ t') : (L.commit t ws).commitsOf t' = L.commitsOf t' := by
  simp [commitsOf, commit, h]

theorem Ledger.commitsOf_note (L : Ledger) {event : Event} (h : event.Note t)
    (t' : Tid) : (L.note event).commitsOf t' = L.commitsOf t' := by
  cases event with
  | committed tid ws => exact h.elim
  | executed tid stmt rowcount => rfl
  | raised tid op pending exc => rfl

theorem Ledger.CreatedFrom.of_note {event : Event} (h : event.Note t)
    {row : Photo} {file : UploadFile} (hf : (L.note event).CreatedFrom row file) :
    L.CreatedFrom row file := by
  have hold : ∀ t' ws', Event.committed t' ws' ∈ (L.note event).events →
      Event.committed t' ws' ∈ L.events := by
    intro t' ws' hmem
    rcases List.mem_cons.mp hmem with rfl | hmem
    · exact h.elim
    · exact hmem
  rcases hf with ⟨t', requestId, before, ha, hc⟩ |
    ⟨t', requestId, files, before, batchId, now, rows, i, ha, hc, hrest⟩
  · exact .inl ⟨t', requestId, before, ha, hold _ _ hc⟩
  · exact .inr ⟨t', requestId, files, before, batchId, now, rows, i, ha,
      hold _ _ hc, hrest⟩

/-! ## Every step -/

namespace Inv

theorem commit (hI : Inv M L) (hlive : L.outcomes t = none)
    (ha : (L.arrivals t).isSome) (h : Tx M t L ws) : Inv M (L.commit t ws) where
  replay := by
    rw [show (L.commit t ws).tables = ws.foldl Write.apply L.tables from rfl,
      hI.replay]
    rfl
  admitted := by
    intro earlier t' ws' hsuffix
    rcases List.suffix_cons_iff.mp hsuffix with heq | hsuffix
    · obtain ⟨hevent, rfl⟩ := List.cons.inj heq
      obtain ⟨-, rfl⟩ := (Event.committed.injEq ..).mp hevent
      exact hI.replay ▸ h.admits
    · exact hI.admitted earlier t' ws' hsuffix
  orphan := hI.commit_orphan h
  life := hI.commit_life h
  claims := hI.commit_claims h
  asked := hI.commit_asked
  minted := hI.commit_minted h
  mintedBatch := hI.commit_mintedBatch h
  arrived := by
    intro t' ws' hmem
    rcases List.mem_cons.mp hmem with heq | hmem
    · obtain ⟨rfl, -⟩ := (Event.committed.injEq ..).mp heq
      exact ha
    · exact hI.arrived t' ws' hmem
  created := hI.commit_created h
  stored := hI.commit_stored h
  sent := hI.commit_sent h
  announced := hI.commit_announced h
  settled := fun i hi => (hI.settled i hi).mono (hI.grows_commit h)
  member := hI.commit_member h
  batches := hI.commit_batches h
  ends := by
    intro t' arrival outcome harrival ho
    have hne : t ≠ t' := by
      rintro rfl
      rw [show (L.commit t ws).outcomes t = L.outcomes t from rfl, hlive] at ho
      cases ho
    exact hI.ends_mono (hI.grows_commit h) (L.commitsOf_commit_of_ne ws hne)
      harrival (hI.ends t' arrival outcome harrival ho)
  finished := hI.finished
  came := hI.came
  before := hI.before

theorem note (hI : Inv M L) {event : Event} (h : event.Note t) :
    Inv M (L.note event) :=
  have hg := Grows.note L event
  { hI with
    replay := by
      rw [show (L.note event).tables = L.tables from rfl, hI.replay]
      cases event with
      | committed tid ws => exact h.elim
      | executed tid stmt rowcount => rfl
      | raised tid op pending exc => rfl
    admitted := by
      intro earlier t' ws hsuffix
      rcases List.suffix_cons_iff.mp hsuffix with heq | hsuffix
      · obtain ⟨rfl, -⟩ := List.cons.inj heq
        exact h.elim
      · exact hI.admitted earlier t' ws hsuffix
    claims := fun id => (L.claims_note h id).trans (hI.claims id)
    asked := fun id => by
      rw [L.claims_note h]
      exact hI.asked id
    arrived := by
      intro t' ws hmem
      rcases List.mem_cons.mp hmem with rfl | hmem
      · exact h.elim
      · exact hI.arrived t' ws hmem
    created := fun id p hp => by
      obtain ⟨row, file, hid, hfrom⟩ := hI.created id p hp
      exact ⟨row, file, hid, hfrom.mono hg⟩
    stored := fun row file hfrom => hI.stored row file (hfrom.of_note h)
    settled := fun i hi => (hI.settled i hi).mono hg
    ends := fun t' arrival outcome ha ho =>
      hI.ends_mono hg (L.commitsOf_note h t') ha (hI.ends t' arrival outcome ha ho) }

theorem put (hI : Inv M L) {id : UUID} {ext : Str} {object : Option StoredObject}
    (h : L.Fresh t id) :
    Inv M { L with
      objects := Function.update L.objects (PhotoService.objectKey id ext) object } :=
  { hI with
    stored := by
      intro row file hfrom
      obtain ⟨hp, ⟨ext', contentType, hvalid, hobject⟩, traceId, batchId, hup⟩ :=
        hI.stored row file hfrom
      have hne : row.objectKey ≠ PhotoService.objectKey id ext := by
        intro heq
        obtain ⟨p, hp, -⟩ := hp
        obtain ⟨ext'', hkey⟩ := hup.objectKey
        rw [PhotoService.photoId_of_objectKey (hkey.symm.trans heq), h.2] at hp
        cases hp
      exact ⟨hp, ⟨ext', contentType, hvalid,
        (Function.update_of_ne hne _ _).trans hobject⟩, traceId, batchId, hup⟩
    ends := fun t' arrival outcome ha ho =>
      hI.ends_mono ((Act.put h).grows hI) rfl ha (hI.ends t' arrival outcome ha ho) }

theorem send (hI : Inv M L) {record : ConsumerRecord}
    (h : record.acked → ∃ id p, L.tables.photo id = some p ∧ Announces record p) :
    Inv M { L with topic := L.topic ++ [record] } :=
  have hg := (Act.send (t := 0) h).grows hI
  { hI with
    sent := fun id p hp hs => (hI.sent id p hp hs).mono hg rfl
    announced := by
      intro record' hmem hacked
      rcases List.mem_append.mp hmem with hmem | hmem
      · exact hI.announced record' hmem hacked
      · rw [List.mem_singleton] at hmem
        subst hmem
        exact h hacked
    settled := fun i hi => (hI.settled i hi).mono hg
    ends := fun t' arrival outcome ha ho =>
      hI.ends_mono hg rfl ha (hI.ends t' arrival outcome ha ho) }

theorem mint (hI : Inv M L) {id : UUID} (h : L.minted id = none) :
    Inv M { L with minted := Function.update L.minted id (some t) } :=
  have hsome : ∀ key, (L.minted key).isSome →
      (Function.update L.minted id (some t) key).isSome := by
    intro key hkey
    rw [Function.update_of_ne]
    · exact hkey
    · rintro rfl
      simp [h] at hkey
  { hI with
    minted := fun key hp => hsome key (hI.minted key hp)
    mintedBatch := fun key hb => hsome key (hI.mintedBatch key hb)
    ends := fun t' arrival outcome ha ho =>
      hI.ends_mono ((Act.mint (t := t) h).grows hI) rfl ha (hI.ends t' arrival outcome ha ho) }

theorem offset (hI : Inv M L) {n : Nat} (h : ∀ i < n, L.Settled i) :
    Inv M { L with committedOffset := n } :=
  { hI with
    settled := h
    ends := fun t' arrival outcome ha ho =>
      hI.ends_mono ((Act.offset (t := t') h).grows hI) rfl ha
        (hI.ends t' arrival outcome ha ho) }

theorem ask (hI : Inv M L) {photoId objectKey : Str} {id : UUID}
    (hid : UUID.parse photoId = some id) (howner : L.Owner t id)
    (hn : L.asked id < M) :
    Inv M { L with requests := (photoId, objectKey) :: L.requests } :=
  { hI with
    asked := by
      intro key
      have hold := hI.asked key
      have hcount : Ledger.asked
          { L with requests := (photoId, objectKey) :: L.requests } key =
          L.asked key + if id = key then 1 else 0 := by
        simp [Ledger.asked, List.countP_cons, hid]
      rw [hcount]
      by_cases hkey : id = key
      · subst hkey
        have hpos : ¬Ledger.claims
            { L with requests := (photoId, objectKey) :: L.requests } id = 0 :=
          Nat.ne_of_gt howner.claims_pos
        rw [if_pos rfl, if_neg hpos]
        exact hn
      · rw [if_neg hkey]
        exact hold
    ends := fun t' arrival outcome ha ho =>
      hI.ends_mono ((Act.ask hid howner hn).grows hI) rfl ha
        (hI.ends t' arrival outcome ha ho) }

theorem arrive (hI : Inv M L) {entry : Entry} (h : L.arrivals t = none)
    (hlive : L.outcomes t = none) :
    Inv M { L with
      arrivals := Function.update L.arrivals t (some ⟨entry, L.ended⟩) } :=
  have hg : Grows L { L with
      arrivals := Function.update L.arrivals t (some ⟨entry, L.ended⟩) } :=
    (Act.arrive h hlive).grows hI
  have hother : ∀ {t' ws arrival}, Event.committed t' ws ∈ L.events →
      Function.update L.arrivals t (some ⟨entry, L.ended⟩) t' = some arrival →
      L.arrivals t' = some arrival := by
    intro t' ws arrival hmem ha
    have hne : t' ≠ t := by
      rintro rfl
      have := hI.arrived t' ws hmem
      simp [h] at this
    rwa [Function.update_of_ne hne] at ha
  { hI with
    arrived := fun t' ws hmem => by
      obtain ⟨arrival, ha⟩ := Option.isSome_iff_exists.mp (hI.arrived t' ws hmem)
      exact Option.isSome_iff_exists.mpr ⟨arrival, hg.arrivals t' arrival ha⟩
    created := fun id p hp => by
      obtain ⟨row, file, hid, hfrom⟩ := hI.created id p hp
      exact ⟨row, file, hid, hfrom.mono hg⟩
    stored := by
      rintro row file (⟨t', requestId, before, ha, hc⟩ |
        ⟨t', requestId, files, before, batchId, now, rows, i, ha, hc, hrest⟩)
      · exact hI.stored row file
          (.inl ⟨t', requestId, before, hother hc ha, hc⟩)
      · exact hI.stored row file (.inr ⟨t', requestId, files, before, batchId,
          now, rows, i, hother hc ha, hc, hrest⟩)
    ends := by
      intro t' arrival outcome ha ho
      have hne : t' ≠ t := by
        rintro rfl
        rw [hlive] at ho
        cases ho
      change Function.update _ _ _ _ = _ at ha
      rw [Function.update_of_ne hne] at ha
      exact hI.ends_mono hg rfl ha (hI.ends t' arrival outcome ha ho)
    came := fun t' ho => by
      obtain ⟨arrival, ha⟩ := Option.isSome_iff_exists.mp (hI.came t' ho)
      exact Option.isSome_iff_exists.mpr ⟨arrival, hg.arrivals t' arrival ha⟩
    before := by
      intro t' arrival ha
      change Function.update _ _ _ _ = _ at ha
      by_cases ht : t' = t
      · subst ht
        rw [Function.update_self, Option.some.injEq] at ha
        subst ha
        exact fun _ hmem => hmem
      · rw [Function.update_of_ne ht] at ha
        exact hI.before t' arrival ha }

theorem reply (hI : Inv M L) {arrival : Arrival} {outcome : Outcome}
    (ha : L.arrivals t = some arrival) (hlive : L.outcomes t = none)
    (h : L.Ends t arrival outcome) :
    Inv M { L with
      outcomes := Function.update L.outcomes t (some outcome)
      ended := t :: L.ended } :=
  have hg := (Act.reply ha hlive h).grows hI
  { hI with
    ends := by
      intro t' arrival' outcome' ha' ho
      change Function.update _ _ _ _ = _ at ho
      by_cases ht : t' = t
      · subst ht
        rw [Function.update_self, Option.some.injEq] at ho
        rw [show L.arrivals t' = some arrival' from ha', Option.some.injEq] at ha
        subst ho ha
        exact hI.ends_mono hg rfl ha' h
      · rw [Function.update_of_ne ht] at ho
        exact hI.ends_mono hg rfl ha' (hI.ends t' arrival' outcome' ha' ho)
    finished := by
      intro t' hmem
      change (Function.update L.outcomes t (some outcome) t').isSome
      by_cases ht : t' = t
      · simp [ht]
      · rw [Function.update_of_ne ht]
        exact hI.finished t' ((List.mem_cons.mp hmem).resolve_left ht)
    came := by
      intro t' ho
      change (Function.update L.outcomes t (some outcome) t').isSome at ho
      by_cases ht : t' = t
      · exact Option.isSome_iff_exists.mpr ⟨arrival, ht ▸ ha⟩
      · rw [Function.update_of_ne ht] at ho
        exact hI.came t' ho
    before := fun t' arrival' ha' t'' hmem =>
      List.mem_cons_of_mem t (hI.before t' arrival' ha' t'' hmem) }

theorem act (hI : Inv M L) (h : Act M t L L') : Inv M L' := by
  cases h with
  | commit hlive ha h => exact hI.commit hlive ha h
  | mint h => exact hI.mint h
  | put h => exact hI.put h
  | send h => exact hI.send h
  | offset h => exact hI.offset h
  | ask hid howner hn => exact hI.ask hid howner hn
  | arrive h hlive => exact hI.arrive h hlive
  | reply ha hlive h => exact hI.reply ha hlive h

theorem move {locked : RowKey → Prop} (hI : Inv M L) (h : Move M locked t L L') :
    Inv M L' := by
  obtain ⟨L₁, hact, hnote, -⟩ := h
  have hI₁ : Inv M L₁ := by
    rcases hact with rfl | hact
    · exact hI
    · exact hI.act hact
  rcases hnote with rfl | ⟨event, hevent, rfl⟩
  · exact hI₁
  · exact hI₁.note hevent

theorem empty : Inv M World.initial.ledger := by
  have hphoto : ∀ id, World.initial.ledger.tables.photo id = none := fun _ => rfl
  have hloaded : ∀ id, World.initial.ledger.tables.loaded id = none := fun _ => rfl
  have hbatch : ∀ id, World.initial.ledger.tables.batch id = none := fun _ => rfl
  have harrival : ∀ t, World.initial.ledger.arrivals t = none := fun _ => rfl
  have houtcome : ∀ t, World.initial.ledger.outcomes t = none := fun _ => rfl
  have hevents : World.initial.ledger.events = [] := rfl
  exact {
    replay := rfl
    admitted := by simp [hevents]
    orphan := fun _ _ => rfl
    life := by simp [hloaded]
    claims := fun _ => rfl
    asked := fun _ => Nat.zero_le _
    minted := by simp [hphoto]
    mintedBatch := by simp [hbatch]
    arrived := by simp [hevents]
    created := by simp [hphoto]
    stored := by simp [Ledger.CreatedFrom, harrival]
    sent := by simp [hphoto]
    announced := fun _ h => absurd h List.not_mem_nil
    settled := fun _ h => absurd h (Nat.not_lt_zero _)
    member := by simp [hphoto]
    batches := by simp [hbatch]
    ends := by simp [harrival]
    finished := fun _ h => absurd h List.not_mem_nil
    came := by simp [houtcome]
    before := by simp [harrival] }

end Inv

theorem Move.grows {locked : RowKey → Prop} (hI : Inv M L)
    (h : Move M locked t L L') : Grows L L' := by
  obtain ⟨L₁, hact, hnote, -⟩ := h
  have hg : Grows L L₁ := by
    rcases hact with rfl | hact
    · exact .refl L₁
    · exact hact.grows hI
  rcases hnote with rfl | ⟨event, -, rfl⟩
  · exact hg
  · exact hg.trans (.note L₁ event)

end PhotoAnalysis

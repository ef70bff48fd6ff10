import PhotoAnalysis.Ledger.Acts

/-!
# What a transaction can do to a photo

Every committed transaction, seen from one photo, does one of four things: it
leaves the photo alone, marks it published, takes it one step on in its life, or
creates it.  All later facts about photos are read off this case distinction.
-/

namespace PhotoAnalysis

open Foundation PhotoRepository

variable {M : Nat} {t : Tid} {L : Ledger} {ws : List Write}

inductive Change (M : Nat) (t : Tid) (L : Ledger) (ws : List Write) (id : UUID) :
    Option LoadedPhoto → Option LoadedPhoto → Prop
  | same {a} (hc : claimWrite id ∉ ws) : Change M t L ws id a a
  | published {a b : LoadedPhoto} (hc : claimWrite id ∉ ws)
      (hidentity : b.photo.identity = a.photo.identity)
      (hprogress : b.photo.progress = a.photo.progress)
      (hanalysis : b.analysis = a.analysis)
      (hsent : a.photo.publishStatus = .sent → b.photo.publishStatus = .sent)
      (hd : L.Delivered a.photo) :
      Change M t L ws id (some a) (some b)
  | worked {a b : LoadedPhoto} {life life' : Life M} (hn : life.Next life')
      (ha : life.Shows a) (hb : life'.Shows b)
      (hidentity : b.photo.identity = a.photo.identity)
      (hpublish : b.photo.publishStatus = a.photo.publishStatus)
      (hwho : claimWrite id ∈ ws ∧ life.status = .pending ∨
        claimWrite id ∉ ws ∧ life.status ≠ .pending ∧ L.Owner t id) :
      Change M t L ws id (some a) (some b)
  | created {row : Photo} (hc : claimWrite id ∉ ws) (hrow : .addPhoto row ∈ ws)
      (hpending : (Life.pending : Life M).Shows ⟨row, none⟩)
      (hsent : row.publishStatus ≠ .sent) :
      Change M t L ws id none (some ⟨row, none⟩)

theorem Change.later {id : UUID} {a : LoadedPhoto} {b : Option LoadedPhoto}
    (h : Change M t L ws id (some a) b) :
    ∃ b', b = some b' ∧ LoadedPhoto.Later a b' := by
  cases h with
  | same => exact ⟨a, rfl, .refl a⟩
  | @published _ b hc hidentity hprogress hanalysis hsent hd =>
      refine ⟨b, rfl, hidentity, hsent, fun hs => ?_,
        fun _ => ⟨hprogress, hanalysis⟩⟩
      rw [show b.photo.status = a.photo.status from congrArg Prod.fst hprogress]
      exact hs
  | @worked _ b life life' hn ha hb hidentity hpublish hwho =>
      exact ⟨b, rfl, hn.later ha hb hidentity hpublish⟩

/-! ## One lemma for each kind of transaction -/

theorem claimWrite_ne_values {id key : UUID} {values : PhotoValues}
    (h : values.attempts ≠ none ∨ values.publishStatus ≠ none) :
    claimWrite id ≠ .setPhoto key values := by
  intro heq
  simp only [claimWrite, Write.setPhoto.injEq] at heq
  rcases h with h | h <;> simp [← heq.2] at h

private theorem lives_elim {id : UUID} {n : Nat} {life : Life M}
    (hlife : L.Lives id life) (ht : life.tried = some n) :
    ∃ p, L.tables.photo id = some p ∧ L.tables.analysis id = none ∧
      life.Shows ⟨p, none⟩ ∧ p.status = .processing := by
  obtain ⟨⟨p, analysis⟩, hloaded, hshows⟩ := hlife
  obtain ⟨hp, ha⟩ := Tables.loaded_eq_some.mp hloaded
  obtain ⟨hstatus, -, hresult⟩ := Life.status_of_tried ht
  have hnone : analysis = none := by
    simpa [hresult] using hshows.result
  subst hnone
  exact ⟨p, hp, ha, hshows, hshows.status.trans hstatus⟩

theorem Change.ofSet {id key : UUID} {values : PhotoValues} {p : Photo}
    {analysis : Option AnalysisResult} {life life' : Life M}
    (hp : L.tables.loaded key = some ⟨p, analysis⟩)
    (hshows : life.Shows ⟨p, analysis⟩) (hn : life.Next life')
    (hshows' : life'.Shows ⟨p.set values, analysis⟩)
    (hpublish : values.publishStatus = none)
    (hwho : values = { status := some .processing } ∧ life.status = .pending ∨
      values.attempts ≠ none ∧ life.status ≠ .pending ∧ L.Owner t key) :
    Change M t L [.setPhoto key values] id (L.tables.loaded id)
      ((Write.apply L.tables (.setPhoto key values)).loaded id) := by
  by_cases hkey : key = id
  · subst hkey
    obtain ⟨hphoto, hanalysis⟩ := Tables.loaded_eq_some.mp hp
    have hphoto' : (Write.apply L.tables (.setPhoto key values)).loaded key =
        some ⟨p.set values, analysis⟩ := by
      rw [Tables.loaded_eq_some]
      simp [hphoto, hanalysis]
    rw [hp, hphoto']
    refine .worked hn hshows hshows' (Photo.identity_set _ _) ?_ ?_
    · simp [Photo.set, hpublish]
    · rcases hwho with ⟨rfl, hpend⟩ | ⟨hattempts, hpend, howner⟩
      · exact .inl ⟨List.mem_singleton.mpr rfl, hpend⟩
      · refine .inr ⟨?_, hpend, howner⟩
        rw [List.mem_singleton]
        exact claimWrite_ne_values (.inl hattempts)
  · have hsame : (Write.apply L.tables (.setPhoto key values)).loaded id =
        L.tables.loaded id := Tables.loaded_congr (by simp [hkey]) rfl
    rw [hsame]
    refine .same fun hmem => hkey ?_
    rw [List.mem_singleton, claimWrite, Write.setPhoto.injEq] at hmem
    exact hmem.1.symm

theorem Change.ofDone {id key : UUID} {n : Nat} {row : AnalysisResult}
    {life : Life M} (howner : L.Owner t key) (hlife : L.Lives key life)
    (ht : life.tried = some n) (hn : n + 1 ≤ M) (hrow : row.photoId = key) :
    Change M t L [.addAnalysis row, .setPhoto key (doneValues (n + 1))] id
      (L.tables.loaded id)
      ((Write.apply (Write.apply L.tables (.addAnalysis row))
        (.setPhoto key (doneValues (n + 1)))).loaded id) := by
  obtain ⟨p, hp, ha, hshows, hstatus⟩ := lives_elim hlife ht
  have hclaim : claimWrite id ∉
      [.addAnalysis row, .setPhoto key (doneValues (n + 1))] := by
    rw [List.mem_cons, List.mem_singleton, not_or]
    exact ⟨by simp [claimWrite], claimWrite_ne_values (.inl (by simp [doneValues]))⟩
  by_cases hkey : key = id
  · subst hkey
    have hafter : (Write.apply (Write.apply L.tables (.addAnalysis row))
        (.setPhoto key (doneValues (n + 1)))).loaded key =
          some ⟨p.set (doneValues (n + 1)), some row⟩ := by
      rw [Tables.loaded_eq_some]
      simp [hp, ha, hrow]
    rw [hafter, Tables.loaded_of_photo hp, ha]
    have hnext : life.Next (.done (n + 1) row.response ⟨Nat.le_add_left 1 n, hn⟩) :=
      .done ht
    refine .worked hnext
      hshows ⟨rfl, rfl⟩ (Photo.identity_set _ _) rfl (.inr ⟨hclaim, ?_, howner⟩)
    simp [(Life.status_of_tried ht).1]
  · have hsame : (Write.apply (Write.apply L.tables (.addAnalysis row))
        (.setPhoto key (doneValues (n + 1)))).loaded id = L.tables.loaded id :=
      Tables.loaded_congr (by simp [hkey]) (by simp [hrow, hkey])
    rw [hsame]
    exact .same hclaim

theorem Change.ofMarks {marks : List (UUID × PhotoValues)} {id : UUID}
    (h : ∀ mark ∈ marks, (∃ time, mark.2 = publishedValues time) ∧
      ∃ p, L.tables.photo mark.1 = some p ∧ L.Delivered p) :
    Change M t L (marks.map fun mark => .setPhoto mark.1 mark.2) id
      (L.tables.loaded id)
      (((marks.map fun mark => Write.setPhoto mark.1 mark.2).foldl Write.apply
        L.tables).loaded id) := by
  have hclaim : claimWrite id ∉
      marks.map fun mark => Write.setPhoto mark.1 mark.2 := by
    intro hmem
    obtain ⟨mark, hmark, heq⟩ := List.mem_map.mp hmem
    obtain ⟨⟨time, htime⟩, -⟩ := h mark hmark
    exact claimWrite_ne_values (.inr (by simp [htime, publishedValues])) heq.symm
  have hanalysis := Tables.analysis_marks marks L.tables id
  cases hp : L.tables.photo id with
  | none =>
      have hnone := Tables.photo_marks_none marks L.tables id hp
      rw [Tables.loaded_congr (hnone.trans hp.symm) hanalysis]
      exact .same hclaim
  | some p =>
      by_cases hmarked : ∃ mark ∈ marks, mark.1 = id
      · obtain ⟨mark, hmark, rfl⟩ := hmarked
        obtain ⟨q, hq, hidentity, hprogress, hsent⟩ := Tables.photo_marks marks
          L.tables mark.1
          (P := fun q => q.identity = p.identity ∧ q.progress = p.progress ∧
            (p.publishStatus = .sent → q.publishStatus = .sent))
          (by
            rintro mark' hmark' - q ⟨hi, hpr, -⟩
            obtain ⟨⟨time, htime⟩, -⟩ := h mark' hmark'
            rw [htime]
            exact ⟨hi, hpr, fun _ => rfl⟩) hp ⟨rfl, rfl, fun hs => hs⟩
        obtain ⟨-, p', hp', hd⟩ := h mark hmark
        rw [hp, Option.some.injEq] at hp'
        rw [Tables.loaded_of_photo hp, Tables.loaded_of_photo hq, hanalysis]
        exact .published hclaim hidentity hprogress rfl hsent (hp' ▸ hd)
      · obtain ⟨q, hq, rfl⟩ := Tables.photo_marks marks L.tables id
          (P := fun q => q = p)
          (fun mark hmark hid => absurd ⟨mark, hmark, hid⟩ hmarked) hp rfl
        rw [Tables.loaded_congr (hq.trans hp.symm) hanalysis]
        exact .same hclaim

theorem Uploads.pending {file : UploadFile} {traceId : Str}
    {batchId : Option UUID} {row : Photo} (h : Uploads file traceId batchId row) :
    (Life.pending : Life M).Shows ⟨row, none⟩ ∧ row.publishStatus ≠ .sent := by
  obtain ⟨ext, contentType, now, -, -, hrow⟩ := h
  rw [hrow]
  exact ⟨⟨rfl, rfl⟩, by simp [NewPhoto.row, PhotoService.newPhoto]⟩

theorem Change.ofInserts {T : Tables} {id : UUID} (before : List Write)
    (rows : List Photo) (hbefore : claimWrite id ∉ before)
    (horphan : T.photo id = none → T.analysis id = none)
    (hrows : ∀ row ∈ rows, ∃ file traceId batchId,
      Uploads file traceId batchId row) :
    Change M t L (before ++ rows.map .addPhoto) id (T.loaded id)
      (((rows.map Write.addPhoto).foldl Write.apply T).loaded id) := by
  have hclaim : claimWrite id ∉ before ++ rows.map .addPhoto := by
    rw [List.mem_append, not_or]
    exact ⟨hbefore, by simp [claimWrite]⟩
  have hphoto := Tables.photo_inserts rows T id
  have hanalysis := Tables.analysis_inserts rows T id
  cases hp : T.photo id with
  | some p =>
      rw [hp, if_neg (by simp)] at hphoto
      rw [Tables.loaded_congr (hphoto.trans hp.symm) hanalysis]
      exact .same hclaim
  | none =>
      rw [hp, if_pos rfl] at hphoto
      cases hfind : rows.find? fun row => row.photoId = id with
      | none =>
          rw [Tables.loaded_congr ((hphoto.trans hfind).trans hp.symm) hanalysis]
          exact .same hclaim
      | some row =>
          have hmem := List.mem_of_find?_eq_some hfind
          obtain ⟨file, traceId, batchId, hup⟩ := hrows row hmem
          obtain ⟨hpending, hsent⟩ := hup.pending (M := M)
          rw [Tables.loaded_eq_none.mpr hp,
            Tables.loaded_of_photo (hphoto.trans hfind), hanalysis, horphan hp]
          refine .created hclaim ?_ hpending hsent
          exact List.mem_append_right _ (List.mem_map_of_mem hmem)

/-! ## The case distinction -/

theorem forall₂_right {α β : Type} {R : α → β → Prop} {as : List α} {bs : List β}
    (h : as.Forall₂ R bs) {b : β} (hb : b ∈ bs) : ∃ a ∈ as, R a b := by
  induction h with
  | nil => simp at hb
  | @cons a b' as bs hab hrest ih =>
      rcases List.mem_cons.mp hb with rfl | hb
      · exact ⟨a, List.mem_cons_self, hab⟩
      · obtain ⟨a', ha', hr⟩ := ih hb
        exact ⟨a', List.mem_cons_of_mem a ha', hr⟩

theorem forall₂_imp_mem {α β : Type} {R S : α → β → Prop} {as : List α}
    {bs : List β} (h : as.Forall₂ R bs) (himp : ∀ a, ∀ b ∈ bs, R a b → S a b) :
    as.Forall₂ S bs := by
  induction h with
  | nil => exact .nil
  | @cons a b as bs hab _ ih =>
      exact .cons (himp a b List.mem_cons_self hab)
        (ih fun a' b' hb' => himp a' b' (List.mem_cons_of_mem b hb'))

theorem Tx.change (h : Tx M t L ws) (id : UUID)
    (hlives : ∀ key a, L.tables.loaded key = some a →
      ∃ life : Life M, life.Shows a)
    (horphan : L.tables.photo id = none → L.tables.analysis id = none) :
    Change M t L ws id (L.tables.loaded id)
      ((ws.foldl Write.apply L.tables).loaded id) := by
  cases h with
  | nothing => exact .same (by simp)
  | @claim key a ha hs =>
      obtain ⟨life, hshows⟩ := hlives key a ha
      have hlife := Life.eq_pending (hshows.status.symm.trans hs)
      subst hlife
      refine .ofSet ha hshows .claim ⟨?_, hshows.result⟩ rfl (.inl ⟨rfl, rfl⟩)
      exact congrArg (Prod.mk PhotoStatus.processing)
        (congrArg Prod.snd hshows.progress)
  | @attempt key n code message life howner hlife ht hn =>
      obtain ⟨p, hp, ha, hshows, hstatus⟩ := lives_elim hlife ht
      have hnext : life.Next
          (.retrying (n + 1) (Column.cut 64 code) message ⟨Nat.le_add_left 1 n, hn⟩) :=
        .attempt ht
      refine .ofSet (ha ▸ Tables.loaded_of_photo hp) hshows hnext ⟨?_, rfl⟩ rfl
        (.inr ⟨by simp [attemptValues], ?_, howner⟩)
      · exact congrArg (fun status => (status, _)) hstatus
      · simp [(Life.status_of_tried ht).1]
  | done howner hlife ht hn hrow => exact .ofDone howner hlife ht hn hrow
  | @fail key n code message life howner hlife ht hn =>
      obtain ⟨p, hp, ha, hshows, hstatus⟩ := lives_elim hlife ht
      have hnext : life.Next
          (.failed n (Column.cut 64 code) message ⟨hn, Life.le_of_tried ht⟩) := .fail ht
      refine .ofSet (ha ▸ Tables.loaded_of_photo hp) hshows hnext ⟨rfl, rfl⟩ rfl
        (.inr ⟨by simp [failedValues], ?_, howner⟩)
      simp [(Life.status_of_tried ht).1]
  | publish h => exact .ofMarks h
  | @upload requestId file before row ha hrow hfresh hstored =>
      exact .ofInserts (T := L.tables) [] [row] (by simp)
        horphan (by simpa using ⟨_, _, _, hrow⟩)
  | batch ha hminted hfresh hcount hrows hnodup =>
      refine .ofInserts (T := Write.apply L.tables (.addBatch _))
        [.addBatch _] _ (by simp [claimWrite]) horphan fun row hrow => ?_
      obtain ⟨file, -, hup, -⟩ := forall₂_right hrows hrow
      exact ⟨file, _, _, hup⟩
  | complete hbatch hall => exact .same (by simp [claimWrite])

end PhotoAnalysis

import PhotoAnalysis.Guarantees.Photos

/-!
# What was uploaded is what is read

Every committed photo was inserted by an upload whose bytes are stored under the
photo's key, and reading its content gives these bytes back under the content
type found at the upload.  The name comes back if its column holds all of it.
-/

namespace PhotoAnalysis

open Foundation Program

/-! ## From the extension back to the content type -/

namespace PhotoService

theorem afterLastDot_append {ext : Str} (s : Str) (h : 46 ∉ ext) :
    afterLastDot (s ++ 46 :: ext) = ext := by
  have hrev : (s ++ 46 :: ext).reverse = ext.reverse ++ 46 :: s.reverse := by simp
  have hkeep : ∀ c ∈ ext.reverse, (c != 46) = true := by
    intro c hc
    rw [bne_iff_ne]
    rintro rfl
    exact h (List.mem_reverse.mp hc)
  rw [afterLastDot, hrev, List.takeWhile_append_of_pos hkeep]
  simp

theorem afterLastDot_objectKey (photoId : UUID) {ext : Str} (h : 46 ∉ ext) :
    afterLastDot (objectKey photoId ext) = ext := by
  have hdot : py "/original." = py "/original" ++ [46] := by decide
  rw [objectKey, hdot]
  simpa using afterLastDot_append (py "photos/" ++ photoId.text ++ py "/original") h

/-- `_ext_to_mime` undoes the choice of the extension. -/
theorem extToMime_objectKey {data : Bytes} {ext contentType : Str}
    (h : validate data = .ok (ext, contentType)) (photoId : UUID) :
    extToMime (objectKey photoId ext) = contentType := by
  rcases validate_ok h with ⟨rfl, rfl⟩ | ⟨rfl, rfl⟩
  · rw [extToMime, afterLastDot_objectKey photoId (by decide)]
    decide
  · rw [extToMime, afterLastDot_objectKey photoId (by decide)]
    decide

end PhotoService

/-! ## A call among others -/

/-- Nothing is left open by a choice the environment makes for a lookup. -/
def Choice.plain : Op → Choice
  | .select _ => .rows []
  | _ => .ok

/--
The `n`-th operation of a call of task `t` meets the `n`-th of these worlds and
does not fail.
-/
def succeeds (t : Tid) (worlds : Nat → World) : Handler Op Op.Ans PyExc Nat :=
  fun op n =>
    match (worlds n).answer t op (.plain op) with
    | some (answer, _) => (answer, n + 1)
    | none => (.error (.other (py "no answer")), n + 1)

section

variable {t : Tid} {worlds : Nat → World} {id : UUID} {p : Photo}

theorem succeeds_select (query : Query) {n : Nat} {rows : query.Answer}
    (h : query.answer ((worlds n).view t) [] = some rows) :
    succeeds t worlds (.select query) n = (.ok rows, n + 1) := by
  simp [succeeds, World.answer, Choice.plain, h]

theorem succeeds_getObject {name : Str} {n : Nat} {object : StoredObject}
    (h : (worlds n).objects name = some object) :
    succeeds t worlds (.getObject name) n = (.ok object.data, n + 1) := by
  simp [succeeds, World.answer, Choice.plain, h]

theorem getById_succeeds {n : Nat}
    (hp : ((worlds n).view t).photo id = some p) :
    ∃ analysis, (PhotoRepository.getById id).run (succeeds t worlds) n =
      (.ok (some ⟨p, analysis⟩), n + 2) := by
  have hphoto : succeeds t worlds (.select (.photo id)) n = (.ok (some p), n + 1) :=
    succeeds_select _ (congrArg some hp)
  have hanalyses : ∃ rows, succeeds t worlds
      (.select (.analyses ([p].map Photo.photoId))) (n + 1) = (.ok rows, n + 2) :=
    ⟨_, succeeds_select _ rfl⟩
  obtain ⟨rows, hanalyses⟩ := hanalyses
  unfold PhotoRepository.getById
  simp [run_bind, run_call, hphoto, loadAnalyses, hanalyses]

theorem getFile_succeeds {name : Str} {n : Nat} {object : StoredObject}
    (h : (worlds n).objects name = some object) :
    (ObjectStorage.getFile name).run (succeeds t worlds) n =
      (.ok object.data, n + 1) := by
  rw [ObjectStorage.getFile, run_tryExcept, run_call, succeeds_getObject h]

theorem getPhotoContent_succeeds {n : Nat} {object : StoredObject}
    (hp : ((worlds n).view t).photo id = some p)
    (hobject : (worlds (n + 2)).objects p.objectKey = some object) :
    (PhotoService.getPhotoContent id).run (succeeds t worlds) n =
      (.ok (.content object.data (PhotoService.extToMime p.objectKey) p.filename),
        n + 3) := by
  obtain ⟨analysis, hrow⟩ := getById_succeeds hp
  unfold PhotoService.getPhotoContent
  simp [run_bind, hrow, run_tryExcept, getFile_succeeds hobject]

end

/-! ## Every committed photo -/

variable {settings : Settings} {states : Nat → State} {t : Tid} {id : UUID}

/-- The bytes of the file are stored under the key of the photo. -/
def Stored (state : State) (p : Photo) (file : UploadFile) : Prop :=
  ∃ ext contentType, PhotoService.validate file.data = .ok (ext, contentType) ∧
    state.world.objects p.objectKey = some ⟨file.data, contentType⟩

/-- A reader gets the file back with its content type and its name. -/
def Served (states : Nat → State) (t : Tid) (p : Photo) (file : UploadFile) :
    Prop :=
  ∃ ext contentType, PhotoService.validate file.data = .ok (ext, contentType) ∧
    (PhotoService.getPhotoContent p.photoId).run
        (succeeds t fun n => (states n).world) 0 =
      (.ok (.content file.data contentType
        (PhotoService.filenameOr file.filename p.photoId ext)), 3)

/-- The name, if one is given, is not longer than its column. -/
def UploadFile.NameFits (file : UploadFile) : Prop :=
  ∀ name, file.filename = some name → name.length ≤ 512

theorem nameFits_iff {file : UploadFile} {ext contentType : Str}
    (h : PhotoService.validate file.data = .ok (ext, contentType)) (photoId : UUID) :
    file.NameFits ↔
      (PhotoService.filenameOr file.filename photoId ext).length ≤ 512 := by
  have hdefault : (photoId.text ++ 46 :: ext).length ≤ 512 := by
    rcases PhotoService.validate_ok h with ⟨rfl, -⟩ | ⟨rfl, -⟩ <;>
      rw [List.length_append, UUID.length_text] <;> decide
  unfold UploadFile.NameFits
  rcases file.filename with _ | (_ | ⟨c, rest⟩)
  · exact iff_of_true (fun name hname => nomatch hname) hdefault
  · refine iff_of_true ?_ hdefault
    rintro name ⟨⟩
    exact Nat.zero_le 512
  · refine ⟨fun hname => hname _ rfl, fun hlength => ?_⟩
    rintro name ⟨⟩
    exact hlength

theorem Inv.content {M : Nat} {L : Ledger} (hI : Inv M L) {row : Photo}
    {file : UploadFile} (h : L.CreatedFrom row file) :
    ∃ ext contentType, PhotoService.validate file.data = .ok (ext, contentType) ∧
      L.objects row.objectKey = some ⟨file.data, contentType⟩ ∧
      row.objectKey = PhotoService.objectKey row.photoId ext ∧
      row.filename =
        Column.cut 512 (PhotoService.filenameOr file.filename row.photoId ext) := by
  obtain ⟨-, ⟨ext, contentType, hvalid, hobject⟩, traceId, batchId, ext',
    contentType', now, hvalid', -, hrow⟩ := hI.stored row file h
  rw [hvalid, Except.ok.injEq, Prod.mk.injEq] at hvalid'
  obtain ⟨rfl, rfl⟩ := hvalid'
  refine ⟨ext, contentType, hvalid, hobject, ?_, congrArg Photo.filename hrow⟩
  exact (congrArg Photo.objectKey hrow).trans
    (PhotoService.cut_objectKey row.photoId hvalid)

theorem reachable_states (h : Reachable settings (states 0))
    (hlead : ∀ n, (system settings).Leads (states n) (states (n + 1))) (n : Nat) :
    (system settings).Leads (states 0) (states n) ∧
      Reachable settings (states n) := by
  induction n with
  | zero => exact ⟨⟨[], rfl⟩, h⟩
  | succ n ih => exact ⟨ih.1.trans _ (hlead n), ih.2.trans _ (hlead n)⟩

section

variable {p row : Photo} {file : UploadFile}

theorem stored_of_created (h : Reachable settings (states 0))
    (hp : (states 0).world.db.committed.photo row.photoId = some p)
    (hcreated : (states 0).world.ledger.CreatedFrom row file) : Stored (states 0) p file := by
  have hI := reachable_inv h
  obtain ⟨ext, contentType, hvalid, hobject, -⟩ := hI.content hcreated
  obtain ⟨p', hp', hidentity⟩ := (hI.stored row file hcreated).1
  obtain rfl : p = p' := Option.some.inj (hp.symm.trans hp')
  obtain ⟨-, -, hobjectKey, -⟩ := Photo.identity_eq hidentity
  exact ⟨ext, contentType, hvalid, hobjectKey ▸ hobject⟩

/-- What a reader gets, whatever happens between its operations. -/
theorem content_of_created (h : Reachable settings (states 0))
    (hlead : ∀ n, (system settings).Leads (states n) (states (n + 1)))
    (hidle : ∀ n, (states n).world.db.writes t = [])
    (hp : (states 0).world.db.committed.photo row.photoId = some p)
    (hcreated : (states 0).world.ledger.CreatedFrom row file) :
    ∃ ext contentType, PhotoService.validate file.data = .ok (ext, contentType) ∧
      (PhotoService.getPhotoContent p.photoId).run
          (succeeds t fun n => (states n).world) 0 =
        (.ok (.content file.data contentType
          (Column.cut 512 (PhotoService.filenameOr file.filename p.photoId ext))), 3) := by
  have hI := reachable_inv h
  obtain ⟨ext, contentType, hvalid, -, hkey, hname⟩ := hI.content hcreated
  obtain ⟨p', hp', hidentity⟩ := (hI.stored row file hcreated).1
  obtain rfl : p = p' := Option.some.inj (hp.symm.trans hp')
  obtain ⟨hid, hfilename, hobjectKey, -⟩ := Photo.identity_eq hidentity
  refine ⟨ext, contentType, hvalid, ?_⟩
  have hrow : ((states 0).world.view t).photo p.photoId = some p := by
    rw [World.view, TxStore.view_of_clean (hidle 0), hid]
    exact hp
  have hlater : (states 2).world.objects p.objectKey =
      some ⟨file.data, contentType⟩ := by
    obtain ⟨hlead₂, hreach₂⟩ := reachable_states h hlead 2
    obtain ⟨ext', contentType', hvalid', hobject', -⟩ := Inv.content
      (reachable_inv hreach₂) (hcreated.mono (reachable_grows h hlead₂))
    rw [hvalid, Except.ok.injEq, Prod.mk.injEq] at hvalid'
    rw [hobjectKey, hvalid'.2]
    exact hobject'
  rw [getPhotoContent_succeeds hrow hlater, hobjectKey, hkey,
    PhotoService.extToMime_objectKey hvalid, hfilename, hname, hid]

theorem served_iff_nameFits (h : Reachable settings (states 0))
    (hlead : ∀ n, (system settings).Leads (states n) (states (n + 1)))
    (hidle : ∀ n, (states n).world.db.writes t = [])
    (hp : (states 0).world.db.committed.photo row.photoId = some p)
    (hcreated : (states 0).world.ledger.CreatedFrom row file) :
    Served states t p file ↔ file.NameFits := by
  obtain ⟨ext, contentType, hvalid, hread⟩ :=
    content_of_created h hlead hidle hp hcreated
  rw [nameFits_iff hvalid p.photoId, ← Column.cut_eq_self]
  constructor
  · rintro ⟨ext', contentType', hvalid', hserved⟩
    rw [hvalid, Except.ok.injEq, Prod.mk.injEq] at hvalid'
    obtain ⟨rfl, rfl⟩ := hvalid'
    rw [hread] at hserved
    injection hserved with hreply
    injection hreply with hcontent
    injection hcontent
  · intro hwhole
    exact ⟨ext, contentType, hvalid, hwhole ▸ hread⟩

end

/--
The operations of the reading call are answered in later and later states, with
anything happening between them.
-/
theorem photo_served_iff (states : Nat → State) (h : Reachable settings (states 0))
    (hlead : ∀ n, (system settings).Leads (states n) (states (n + 1)))
    (hidle : ∀ n, (states n).world.db.writes t = []) {p : Photo}
    (hp : (states 0).world.db.committed.photo id = some p) :
    (∃ row file, row.photoId = id ∧
      (states 0).world.ledger.CreatedFrom row file) ∧
    ∀ row file, row.photoId = id → (states 0).world.ledger.CreatedFrom row file →
      Stored (states 0) p file ∧ (Served states t p file ↔ file.NameFits) := by
  refine ⟨(reachable_inv h).created id p hp, ?_⟩
  rintro row file rfl hcreated
  exact ⟨stored_of_created h hp hcreated,
    served_iff_nameFits h hlead hidle hp hcreated⟩

theorem photo_served_uploaded : ∃ state p,
    Reachable defaultSettings state ∧
    state.world.db.committed.photo jpegId = some p ∧ Stored state p jpegFile ∧
    Served (fun _ => state) 1 p jpegFile := by
  obtain ⟨state, hreach, huploaded⟩ := reachable_of_any defaultSettings
    uploads (P := Uploaded (py "r") jpegFile) (by decide +kernel)
  have hcreated := huploaded.created
  have hp := huploaded.photo
  have hidle := huploaded.2.2.2
  obtain ⟨hstored, hserved⟩ := (photo_served_iff (fun _ => state) hreach
    (fun _ => ⟨[], rfl⟩) (fun _ => hidle) hp).2 _ jpegFile rfl hcreated
  refine ⟨state, _, hreach, hp, hstored, hserved.mpr ?_⟩
  rintro name ⟨⟩
  decide

/-- A valid image whose name has 512 characters and a space. -/
def paddedFile : UploadFile :=
  { jpegFile with filename := some (List.replicate 512 97 ++ [32]) }

set_option maxRecDepth 4096 in
/-- Its name comes back without the space. -/
theorem photo_not_served :
    ¬∀ (states : Nat → State) (t : Tid) (p row : Photo) (file : UploadFile),
      Reachable defaultSettings (states 0) →
      (∀ n, (system defaultSettings).Leads (states n) (states (n + 1))) →
      (∀ n, (states n).world.db.writes t = []) →
      (states 0).world.db.committed.photo row.photoId = some p →
      (states 0).world.ledger.CreatedFrom row file → Served states t p file := by
  intro hserved
  obtain ⟨state, hreach, huploaded⟩ := reachable_of_any defaultSettings
    (uploading (py "r") paddedFile) (P := Uploaded (py "r") paddedFile) (by decide +kernel)
  have hcreated := huploaded.created
  have hp := huploaded.photo
  have hidle := huploaded.2.2.2
  have hlead : ∀ n : Nat, (system defaultSettings).Leads state state := fun _ => ⟨[], rfl⟩
  have hname := (served_iff_nameFits hreach hlead (fun _ => hidle) hp hcreated).mp
    (hserved (fun _ => state) 1 _ _ _ hreach hlead (fun _ => hidle) hp hcreated)
  have hlength := hname _ rfl
  simp at hlength

end PhotoAnalysis

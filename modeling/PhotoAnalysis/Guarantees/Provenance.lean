import PhotoAnalysis.AnalyzerStub
import PhotoAnalysis.Guarantees.Photos
import PhotoAnalysis.Refinement.Provenance

/-!
# Whose result it is

Where the publishers alone write to the topic, the result of a photo is what the
columns keep of the analyzer's answer to a request for that photo under its own
object key, and under that key are the bytes that were uploaded.
-/

namespace PhotoAnalysis

open Foundation Program

variable {settings : Settings} {state state' : State} {t : Tid}
variable {trace : Trace Op Op.Ans PyExc} {schedule : Schedule}

/-! ## Messages of the publishers -/

/-- Whoever sends announces a photo, acknowledged or not. -/
theorem announced_of_sending (h : Reachable settings state) {client : ClientId}
    {value key : Bytes} {resume : Except PyExc Unit → Py (Option Reply)}
    {loop : Py (Option Reply)}
    (htask : state.tasks t =
      .running (.await (.sendAndWait client value key) resume) loop) (acked : Bool) :
    ∃ id p, state.world.db.committed.photo id = some p ∧
      Announces ⟨some value, some key, acked⟩ p := by
  have ht := (reachable_safe h).tasks t
  rw [htask] at ht
  obtain ⟨-, L, -, -, hnow⟩ := ht
  have hguar := (hnow.now _ (reachable_inv h) .ok (.ok ()) _ rfl).1
  obtain ⟨L₁, hact, hnote, -⟩ := hguar.move
  have htopic : L₁.topic = state.world.ledger.topic ++ [⟨some value, some key, true⟩] := by
    rcases hnote with heq | ⟨event, -, heq⟩
    · exact (congrArg Ledger.topic heq).symm
    · exact (congrArg Ledger.topic heq).symm
  have hother : L₁.topic ≠ state.world.ledger.topic := by
    rw [htopic]
    simp
  rcases hact with rfl | hact
  · exact absurd rfl hother
  · cases hact with
    | send hsend =>
        obtain rfl := List.singleton_inj.mp (List.append_cancel_left htopic)
        obtain ⟨id, p, hp, hannounces⟩ := hsend rfl
        exact ⟨id, p, hp, hannounces⟩
    | _ => exact absurd rfl hother

/-- Every message announces a photo. -/
def OwnTopic (state : State) : Prop :=
  ∀ record ∈ state.world.topic, ∃ id p, state.world.db.committed.photo id = some p ∧
    Announces record p

theorem OwnTopic.next (h : Reachable settings state) (hown : OwnTopic state)
    {label : Label Entry Choice World.External}
    (hlabel : ∀ value key, label ≠ .external (.produce value key))
    (hnext : (system settings).next state label = some state') : OwnTopic state' := by
  have hlead : (system settings).Leads state state' :=
    ⟨[label], by simp [Machine.follow, hnext]⟩
  have hgrows := reachable_grows h hlead
  have hlater : ∀ record, (∃ id p, state.world.db.committed.photo id = some p ∧
      Announces record p) → ∃ id p, state'.world.db.committed.photo id = some p ∧
        Announces record p := by
    rintro record ⟨id, p, hp, hannounces⟩
    obtain ⟨q, hq, hidentity, -⟩ := hgrows.photo hp
    exact ⟨id, q, hq, hannounces.congr hidentity⟩
  have hsame : state'.world.topic = state.world.topic → OwnTopic state' := by
    intro htopic record hrecord
    exact hlater record (hown record (htopic ▸ hrecord))
  cases Machine.goes_of_next _ hnext with
  | start tid entry htask | again tid loop htask | returned tid reply loop htask
  | raised tid exc loop htask | crash tid now loop htask => exact hsame rfl
  | step tid choice op resume loop answer world htask hperform =>
      rcases World.perform_sends hperform with heq | ⟨client, value, key, acked, rfl, heq⟩
      · exact hsame heq
      · intro record hrecord
        have hmem : record ∈ state.world.topic ++ [⟨some value, some key, acked⟩] := by
          rw [← heq]
          exact hrecord
        rcases List.mem_append.mp hmem with hold | hnew
        · exact hlater record (hown record hold)
        · rw [List.mem_singleton.mp hnew]
          exact hlater _ (announced_of_sending h htask acked)
  | external event =>
      cases event with
      | produce value key => exact absurd rfl (hlabel value key)
      | tick | stop => exact hsame rfl

theorem follow_ownTopic (h : Reachable settings state) (hown : OwnTopic state)
    (hfollow : (system settings).follow state schedule = some state')
    (halone : ∀ value key, .external (.produce value key) ∉ schedule) :
    OwnTopic state' := by
  induction schedule generalizing state with
  | nil =>
      cases hfollow
      exact hown
  | cons label schedule ih =>
      simp only [Machine.follow, Option.bind_eq_some_iff] at hfollow
      obtain ⟨middle, hnext, hrest⟩ := hfollow
      have hmiddle : Reachable settings middle :=
        Machine.Leads.trans _ h ⟨[label], by simp [Machine.follow, hnext]⟩
      refine ih hmiddle (hown.next h (fun value key heq => ?_) hnext) hrest
        fun value key hmem => halone value key (List.mem_cons_of_mem label hmem)
      exact halone value key (heq ▸ List.mem_cons_self)

theorem objectKey_received (photoId objectKey : Str) (createdAt : Time) (traceId : Str) :
    Consumer.textField (received photoId objectKey createdAt traceId) (py "object_key") =
      objectKey := rfl

/-- What is read in a message that announces a photo. -/
theorem Announces.fields {record : ConsumerRecord} {p : Photo} (h : Announces record p)
    (hkey : Json.Scalar p.objectKey) {interpreter : Interpreter}
    {payload : List (Str × Json)}
    (hloads : Json.loads interpreter.nesting record.value = .ok (.dict payload)) :
    Consumer.textField payload (py "photo_id") = p.photoId.text ∧
      Consumer.textField payload (py "object_key") = p.objectKey := by
  obtain ⟨createdAt, traceId, htrace, hvalue⟩ := h
  rw [hvalue, loads_payload interpreter createdAt (scalar_text _) hkey htrace] at hloads
  obtain rfl := Json.dict.inj (Except.ok.inj hloads)
  exact ⟨textField_received .., objectKey_received ..⟩

/-! ## Results -/

/-- The photo a result belongs to, and what is behind the result. -/
structure Result (state : State) (trace : Trace Op Op.Ans PyExc) (row : AnalysisResult)
    (p : Photo) : Prop where
  photo : state.world.db.committed.photo row.photoId = some p
  done : p.status = .done
  answered : ∃ t response,
    (t, ⟨.analyzePhoto row.photoId.text p.objectKey, .ok response⟩) ∈ trace ∧
      row.response = response.stored
  stored : ∃ file created contentType, state.world.ledger.CreatedFrom created file ∧
    created.photoId = row.photoId ∧
    state.world.objects p.objectKey = some ⟨file.data, contentType⟩

theorem result_of_replay
    (h : (system settings).replay start [] schedule = some (state, trace))
    (halone : ∀ value key, .external (.produce value key) ∉ schedule) {row : AnalysisResult}
    (hrow : row ∈ state.world.db.committed.analyses.rows) : ∃ p, Result state trace row p := by
  have hrun : (system settings).Run start state trace := .replay _ .start h
  have hreach : Reachable settings state := hrun.leads
  have hI := reachable_inv hreach
  have hown : OwnTopic state := follow_ownTopic ⟨[], rfl⟩ (fun _ hmem => by cases hmem)
    (Machine.follow_of_replay _ h) halone
  have hsourced := run_sourced hrun
  have hanalysis : state.world.db.committed.analysis row.photoId = some row :=
    Table.find_of_mem hrow
  have hphoto : ∃ p, state.world.db.committed.photo row.photoId = some p := by
    cases hp : state.world.db.committed.photo row.photoId with
    | some p => exact ⟨p, rfl⟩
    | none =>
        have hnone := hI.orphan row.photoId hp
        rw [show state.world.ledger.tables.analysis row.photoId = some row from hanalysis]
          at hnone
        cases hnone
  obtain ⟨p, hp⟩ := hphoto
  have hpid : p.photoId = row.photoId := Tables.photoId_of_photo hp
  obtain ⟨life, hshows⟩ := hI.life row.photoId _ (Tables.loaded_of_photo hp)
  have hdone : p.status = .done := by
    have hresult := hshows.result
    rw [show state.world.ledger.tables.analysis row.photoId = some row from hanalysis]
      at hresult
    rw [show p.status = life.status from hshows.status]
    cases life with
    | done n result hn => rfl
    | _ => cases hresult
  obtain ⟨response, ⟨t, photoId, objectKey, hanswered, hparse⟩, hresponse⟩ :=
    hsourced.rows row hrow
  obtain ⟨record, hrecord, interpreter, payload, hloads, rfl, rfl⟩ :=
    hsourced.asked t photoId objectKey _ hanswered
  obtain ⟨id, q, hq, hannounces⟩ := hown record hrecord
  obtain ⟨hid, hkey⟩ := hannounces.fields (hI.objectKey_ok hq).1 hloads
  have hqid : q.photoId = row.photoId := by
    rw [hid, UUID.parse_text] at hparse
    exact Option.some.inj hparse
  have hqp : q = p := by
    have hqq := hq
    rw [← Tables.photoId_of_photo hq, hqid] at hqq
    exact Option.some.inj (hqq.symm.trans hp)
  subst hqp
  obtain ⟨created, file, hcreatedId, hcreated⟩ := hI.created row.photoId q hp
  obtain ⟨⟨p', hp', hidentity⟩, ⟨ext, contentType, -, hstored⟩, -⟩ :=
    hI.stored created file hcreated
  rw [hcreatedId] at hp'
  obtain rfl : q = p' := Option.some.inj (hp.symm.trans hp')
  refine ⟨q, hp, hdone, ⟨t, response, ?_, hresponse⟩, file, created, contentType, hcreated,
    hcreatedId, ?_⟩
  · rw [hid, hkey, hpid] at hanswered
    exact hanswered
  · rw [(Photo.identity_eq hidentity).2.2.1]
    exact hstored

theorem result_answered
    (h : (system settings).replay start [] schedule = some (state, trace))
    (halone : ∀ value key, .external (.produce value key) ∉ schedule) :
    ∀ row ∈ state.world.db.committed.analyses.rows, ∃ p, Result state trace row p :=
  fun _ hrow => result_of_replay h halone hrow

/-- A photo on its way from the upload to its result. -/
theorem result_answered_upload :
    ∃ state trace, (system defaultSettings).replay start []
        (uploads ++ publishes ++ receives 2 ++ analyzes 2) = some (state, trace) ∧
      state.world.db.committed.analyses.rows.length = 1 ∧
      ∀ row ∈ state.world.db.committed.analyses.rows, ∃ p, Result state trace row p := by
  have hlength : ((system defaultSettings).replay start []
      (uploads ++ publishes ++ receives 2 ++ analyzes 2)).any
        (fun result => result.1.world.db.committed.analyses.rows.length = 1) = true := by
    decide +kernel
  have halone : ∀ value key, (.external (.produce value key) :
      Label Entry Choice World.External) ∉
        uploads ++ publishes ++ receives 2 ++ analyzes 2 := by
    simp [uploads, uploading, publishes, receives, analyzes, goes]
  cases hreplay : (system defaultSettings).replay start []
      (uploads ++ publishes ++ receives 2 ++ analyzes 2) with
  | none =>
      rw [hreplay] at hlength
      cases hlength
  | some result =>
      rw [hreplay, Option.any_some, decide_eq_true_iff] at hlength
      exact ⟨result.1, result.2, rfl, hlength, result_answered hreplay halone⟩

/-! ## With the stub -/

/-- Whenever the analyzer has answered, it has answered as the stub does. -/
def AnswersAsStub (trace : Trace Op Op.Ans PyExc) : Prop :=
  ∀ t photoId objectKey response, (t, ⟨.analyzePhoto photoId objectKey, .ok response⟩) ∈ trace →
    AnalyzerStub.analyze objectKey = .ok response

/-- A result the stub can have given. -/
structure StubResult (row : AnalysisResult) : Prop where
  faces : 0 ≤ row.facesCount ∧ row.facesCount < 6
  blur : ∃ step ≤ 1000, row.blurScore = Double.quotient step 1000 ∧
    row.isBlurred = decide (600 < step)
  hash : row.perceptualHash.length = 16 ∧
    ∀ c ∈ row.perceptualHash, ∃ d, d < 16 ∧ c = Text.hexDigit d

theorem StubResult.of_analyze {objectKey : Str} {row : AnalysisResult}
    (h : AnalyzerStub.analyze objectKey = .ok row.response) : StubResult row := by
  unfold AnalyzerStub.analyze at h
  split at h
  · have hresponse := Except.ok.inj h
    generalize hdigest : Sha256.digest _ = digest at hresponse
    have hlength : digest.length = 32 := hdigest ▸ Sha256.length_digest _
    have hfaces : row.facesCount = ((digest.getD 0 0).toNat % 6 : Nat) :=
      (congrArg AnalyzePhotoResponse.facesCount hresponse).symm
    have hhash : row.perceptualHash = (AnalyzerStub.hex digest).take 16 :=
      (congrArg AnalyzePhotoResponse.perceptualHash hresponse).symm
    refine ⟨?_, ⟨AnalyzerStub.blurStep digest, AnalyzerStub.blurStep_le digest, ?_, ?_⟩,
      ?_, ?_⟩
    · rw [hfaces]
      omega
    · exact (congrArg AnalyzePhotoResponse.blurScore hresponse).symm
    · rw [← AnalyzerStub.isBlurred_answer]
      exact (congrArg AnalyzePhotoResponse.isBlurred hresponse).symm
    · rw [hhash, List.length_take, AnalyzerStub.hex, List.length_flatMap]
      simp [hlength]
    · intro c hc
      rw [hhash] at hc
      obtain ⟨byte, -, hmem⟩ := List.mem_flatMap.mp (List.mem_of_mem_take hc)
      exact Text.mem_hexDigits hmem
  · cases h

/-- The column holds all of the stub's hash. -/
theorem stored_of_analyze {objectKey : Str} {response : AnalyzePhotoResponse}
    (h : AnalyzerStub.analyze objectKey = .ok response) : response.stored = response := by
  have hresult : StubResult ⟨0, response.facesCount, response.isBlurred,
    response.blurScore, response.perceptualHash, 0⟩ := .of_analyze h
  have hhash : response.perceptualHash.length = 16 := hresult.hash.1
  have hcut : Column.cut 64 response.perceptualHash = response.perceptualHash :=
    Column.cut_eq_self.mpr (by omega)
  rw [AnalyzePhotoResponse.stored, hcut]

/--
The result of a photo is the stub's answer for its object key, so it is the same in
any two runs, however often and by whomever the photo has been analyzed.
-/
theorem stub_results
    (h : (system settings).replay start [] schedule = some (state, trace))
    (halone : ∀ value key, .external (.produce value key) ∉ schedule)
    (hstub : AnswersAsStub trace) :
    ∀ row ∈ state.world.db.committed.analyses.rows, StubResult row ∧
      ∃ p, state.world.db.committed.photo row.photoId = some p ∧ p.status = .done ∧
        AnalyzerStub.analyze p.objectKey = .ok row.response := by
  intro row hrow
  obtain ⟨p, hresult⟩ := result_of_replay h halone hrow
  obtain ⟨t, response, hmem, hrowResponse⟩ := hresult.answered
  have hanswer := hstub t _ p.objectKey response hmem
  rw [← stored_of_analyze hanswer, ← hrowResponse] at hanswer
  exact ⟨.of_analyze hanswer, p, hresult.photo, hresult.done, hanswer⟩

/-- The entry is no answer of the analyzer, or one of the stub. -/
def stubbed : Tid × Performed Op Op.Ans PyExc → Bool
  | (_, ⟨.analyzePhoto _ objectKey, .ok response⟩) =>
      decide (AnalyzerStub.analyze objectKey = .ok response)
  | _ => true

/-- The stub answers at the first attempt. -/
def stubAnalyzes (t : Tid) : Schedule :=
  match AnalyzerStub.analyze (PhotoService.objectKey jpegId (py "jpg")) with
  | .ok response => goes t 2 ++ [.step t (.time 1), .step t (.response response),
      .step t (.time 3)] ++ goes t 9
  | .error _ => []

theorem stub_results_upload :
    ∃ state trace, (system defaultSettings).replay start []
        (uploads ++ publishes ++ receives 2 ++ stubAnalyzes 2) = some (state, trace) ∧
      state.world.db.committed.analyses.rows.length = 1 ∧
      ∀ row ∈ state.world.db.committed.analyses.rows, StubResult row ∧
        ∃ p, state.world.db.committed.photo row.photoId = some p ∧ p.status = .done ∧
          AnalyzerStub.analyze p.objectKey = .ok row.response := by
  have hany : ((system defaultSettings).replay start []
      (uploads ++ publishes ++ receives 2 ++ stubAnalyzes 2)).any
        (fun result => result.1.world.db.committed.analyses.rows.length = 1 ∧
          result.2.all stubbed) = true := by decide +kernel
  have halone : ∀ value key, (.external (.produce value key) :
      Label Entry Choice World.External) ∉
        uploads ++ publishes ++ receives 2 ++ stubAnalyzes 2 := by
    unfold stubAnalyzes
    split <;> simp [uploads, uploading, publishes, receives, goes]
  cases hreplay : (system defaultSettings).replay start []
      (uploads ++ publishes ++ receives 2 ++ stubAnalyzes 2) with
  | none =>
      rw [hreplay] at hany
      cases hany
  | some result =>
      rw [hreplay, Option.any_some, decide_eq_true_iff] at hany
      have hstub : AnswersAsStub result.2 := fun t photoId objectKey response hmem =>
        of_decide_eq_true (List.all_eq_true.mp hany.2 _ hmem)
      exact ⟨result.1, result.2, rfl, hany.1, stub_results hreplay halone hstub⟩

end PhotoAnalysis

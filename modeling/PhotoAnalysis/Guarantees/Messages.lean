import PhotoAnalysis.Api.Middleware
import PhotoAnalysis.Guarantees.Photos
import PhotoAnalysis.Refinement.Sending

/-!
# What the publisher sends and the consumer makes of it

A request id comes in as a header and goes through the trace id variable, a column,
JSON and UTF-8 into the variable of a worker.  Whatever the publisher is about to
send, the consumer hands to the processor with the photo's id and object key and
under what the column holds of the id of the request that uploaded the photo.
-/

namespace PhotoAnalysis

open Foundation Program

variable {M : Nat} {t : Tid} {L L' : Ledger} {settings : Settings} {state : State}

/-! ## Which request a photo comes from -/

/-- The id of the request, if it is an upload. -/
def Entry.uploads : Entry → Option Str
  | createPhoto requestId _ | createBatch requestId _ => some requestId
  | _ => none

/-- An upload of this request has inserted the photo. -/
def Ledger.UploadedBy (L : Ledger) (p : Photo) (requestId : Str) : Prop :=
  ∃ t entry before file batchId ws row, L.arrivals t = some ⟨entry, before⟩ ∧
    entry.uploads = some requestId ∧ Uploads file requestId batchId row ∧
    .committed t ws ∈ L.events ∧ .addPhoto row ∈ ws ∧ p.identity = row.identity

theorem Ledger.UploadedBy.mono {p q : Photo} {requestId : Str}
    (h : L.UploadedBy p requestId) (hg : Grows L L') (hq : q.identity = p.identity) :
    L'.UploadedBy q requestId := by
  obtain ⟨t, entry, before, file, batchId, ws, row, ha, hentry, hup, hcommitted, hrow,
    hidentity⟩ := h
  exact ⟨t, entry, before, file, batchId, ws, row, hg.arrivals _ _ ha, hentry, hup,
    hg.events _ hcommitted, hrow, hq.trans hidentity⟩

theorem Tx.uploadedBy {ws : List Write} (h : Tx M t L ws) {row : Photo}
    (hrow : .addPhoto row ∈ ws) : ∃ requestId, (L.commit t ws).UploadedBy row requestId := by
  have hcommitted : .committed t ws ∈ (L.commit t ws).events := List.mem_cons_self
  rcases h.inserts hrow with ⟨requestId, file, before, ha, -, hup, -⟩ |
    ⟨requestId, files, before, batchId, now, rows, ha, -, hmem, -, hrows⟩
  · exact ⟨requestId, t, _, before, file, none, ws, row, ha, rfl, hup, hcommitted, hrow, rfl⟩
  · obtain ⟨file, -, hup, -⟩ := forall₂_right hrows hmem
    exact ⟨requestId, t, _, before, file, _, ws, row, ha, rfl, hup, hcommitted, hrow, rfl⟩

theorem Act.uploadedBy (hI : Inv M L) (h : Act M t L L')
    (hall : ∀ id p, L.tables.photo id = some p → ∃ requestId, L.UploadedBy p requestId)
    (id : UUID) (p : Photo) (hp : L'.tables.photo id = some p) :
    ∃ requestId, L'.UploadedBy p requestId := by
  have hg := h.grows hI
  have hsame : L'.tables = L.tables → ∃ requestId, L'.UploadedBy p requestId := by
    intro htables
    obtain ⟨requestId, hup⟩ := hall id p (htables ▸ hp)
    exact ⟨requestId, hup.mono hg rfl⟩
  cases h with
  | commit hlive ha htx =>
      rcases hI.photo_origin htx hp with ⟨q, hq, hidentity, -⟩ | ⟨-, hrow, -⟩
      · obtain ⟨requestId, hup⟩ := hall id q hq
        exact ⟨requestId, hup.mono hg hidentity⟩
      · exact htx.uploadedBy hrow
  | _ => exact hsame rfl

/-- Every committed photo comes from an upload. -/
theorem photo_uploadedBy (h : Reachable settings state) {id : UUID} {p : Photo}
    (hp : state.world.ledger.tables.photo id = some p) :
    ∃ requestId, state.world.ledger.UploadedBy p requestId := by
  refine reachable_induct (P := fun L => ∀ id p, L.tables.photo id = some p →
    ∃ requestId, L.UploadedBy p requestId) ?_ ⟨[], rfl⟩ h (fun _ _ h => nomatch h) id p hp
  rintro t locked L L' hI ⟨L₁, hact, hnote, -⟩ hall
  have h₁ : ∀ id p, L₁.tables.photo id = some p → ∃ requestId, L₁.UploadedBy p requestId := by
    rcases hact with rfl | hact
    · exact hall
    · exact hact.uploadedBy hI hall
  rcases hnote with rfl | ⟨event, hevent, rfl⟩
  · exact h₁
  · intro id p hp
    obtain ⟨requestId, hup⟩ := h₁ id p hp
    exact ⟨requestId, hup.mono (.note L₁ event) rfl⟩

/-! ## What an event becomes -/

/-- The processor at work on the photo, under the id of the request. -/
def delivered (process : Str → Str → Py Unit) (requestId photoId objectKey : Str) :
    Py Unit := do
  let token ← wait (.setTraceId (.str requestId))
  ((withSession (process photoId objectKey)).tryExcept fun exc =>
      if exc.isException then pure () else .raise exc).tryFinally do
    let _ ← wait (.setTraceId token)

theorem log_str (interpreter : Interpreter) (level : LogLevel) (text : Str) :
    Consumer.log interpreter level (.str text) = pure () :=
  if_pos (interpreter.logs_str level text)

theorem handleMessage_payload {photoId objectKey requestId : Str} (createdAt : Time)
    (hid : Json.Scalar photoId ∧ photoId ≠ []) (hkey : Json.Scalar objectKey ∧ objectKey ≠ [])
    (hrequest : Json.Scalar requestId ∧ requestId ≠ []) {record : ConsumerRecord}
    (hvalue : record.value = Text.utf8Encode (Json.dumps
      (KafkaEventProducer.payload photoId objectKey createdAt requestId)))
    (interpreter : Interpreter) (process : Str → Str → Py Unit) :
    Consumer.handleMessage interpreter process record =
      delivered process requestId photoId objectKey := by
  obtain ⟨hmissingId, hmissingKey⟩ :=
    isMissing_received createdAt requestId hid.2 hkey.2
  have htrace : Consumer.traceIdOf (received photoId objectKey createdAt requestId) =
      .str requestId := by
    obtain ⟨c, rest, rfl⟩ := List.exists_cons_of_ne_nil hrequest.2
    rfl
  rw [Consumer.handleMessage, hvalue,
    loads_payload interpreter createdAt hid.1 hkey.1 hrequest.1]
  simp only [hmissingId, hmissingKey, Bool.or_self, Bool.false_eq_true, if_false]
  rw [Consumer.processPayload, htrace]
  simp only [log_str]
  rfl

/-- At every operation of the program the trace id of task `t` is this one. -/
def Under (t : Tid) (traceId : Json) {α : Type} : Py α → World → Prop
  | .ret _, w => w.traceId t = traceId
  | .raise _, w => w.traceId t = traceId
  | .await op resume, w => w.traceId t = traceId ∧
      ∀ choice answer w', World.perform t op choice w = some (answer, w') →
        ∀ w'', w''.traceId t = w'.traceId t → Under t traceId (resume answer) w''

theorem under_of_plain {α : Type} {program : Py α} (h : program.Uses Op.Plain)
    {traceId : Json} {w : World} (hw : w.traceId t = traceId) :
    Under t traceId program w := by
  induction program generalizing w with
  | ret value => exact hw
  | raise exc => exact hw
  | await op resume ih =>
      refine ⟨hw, fun choice answer w' hperform w'' hother => ih answer (h.2 answer) ?_⟩
      have hkeeps := (Keeps.perform hperform).traceId (h.1 ▸ nofun)
      rw [hother, hkeeps, hw]

/-! ## End to end -/

theorem Ledger.UploadedBy.traceId {p : Photo} {requestId : Str}
    (h : L.UploadedBy p requestId) :
    p.traceId = some (Column.cut 64 requestId) ∧ Json.Scalar (Column.cut 64 requestId) := by
  obtain ⟨t, entry, before, file, batchId, ws, row, -, -, hup, -, -, hidentity⟩ := h
  obtain ⟨htrace, hfits⟩ := hup.traceId
  exact ⟨(Photo.identity_eq hidentity).2.2.2.2.1.trans htrace,
    scalar_of_storable (Column.storable_of_holds (Column.holds_cut hfits))⟩

theorem text_ne_nil (id : UUID) : id.text ≠ [] := by
  intro hnil
  have hlength := UUID.length_text id
  rw [hnil] at hlength
  cases hlength

theorem requestId_ne_nil (headers : List Api.Header) (fresh : UUID) :
    Api.RequestIdMiddleware.requestId headers fresh ≠ [] := by
  unfold Api.RequestIdMiddleware.requestId
  split
  · exact List.cons_ne_nil _ _
  · exact text_ne_nil fresh

/-- What becomes of the message that announces a photo. -/
structure Understood (settings : Settings) (p : Photo) (requestId : Str)
    (value : Bytes) : Prop where
  photoId : UUID.parse p.photoId.text = some p.photoId
  delivered : ∀ record : ConsumerRecord, record.value = some value →
    ∀ interpreter process, Consumer.handleMessage interpreter process record =
      delivered process requestId p.photoId.text p.objectKey
  traceId : ∀ t w, w.traceId t = .str requestId → Under t (.str requestId)
    (withSession (AnalysisProcessor.process settings p.photoId.text p.objectKey)) w

/-- A message is delivered under one id. -/
theorem Understood.requestId_eq {p : Photo} {requestId requestId' : Str} {value : Bytes}
    (h : Understood settings p requestId value) (h' : Understood settings p requestId' value) :
    requestId = requestId' := by
  have hdelivered := (h.delivered ⟨some value, none, false⟩ rfl (.ofLimit 1)
    fun _ _ => pure ()).symm.trans (h'.delivered _ rfl _ _)
  injection hdelivered with hop
  injection hop with hvalue
  injection hvalue

/-- The value a task is about to hand to Kafka. -/
def sending : TaskState Op Op.Ans PyExc Reply → Option Bytes
  | .running (.await (.sendAndWait _ value _) _) _ => some value
  | _ => none

theorem sending_eq {task : TaskState Op Op.Ans PyExc Reply} {value : Bytes}
    (h : sending task = some value) : ∃ client key resume loop,
      task = .running (.await (.sendAndWait client value key) resume) loop := by
  unfold sending at h
  split at h
  · cases h
    exact ⟨_, _, _, _, rfl⟩
  · cases h

/-- The photo of a message, and the message under what the column holds of the id. -/
theorem understood_of_sending (h : Reachable settings state) {value : Bytes}
    (hsending : sending (state.tasks t) = some value) :
    ∃ p, state.world.db.committed.photo p.photoId = some p ∧
      ∀ requestId, state.world.ledger.UploadedBy p requestId → requestId ≠ [] →
        Understood settings p (Column.cut 64 requestId) value := by
  obtain ⟨client, key, resume, loop, htask⟩ := sending_eq hsending
  obtain ⟨row, ⟨p, hp, hidentity⟩, traceId, hlabel, hvalue⟩ := told_of_sending h htask
  obtain ⟨hid, -, hkey, -, htrace, -⟩ := Photo.identity_eq hidentity
  rw [← hid] at hp hvalue
  rw [← hkey] at hvalue
  refine ⟨p, hp, fun requestId huploaded hrequest => ?_⟩
  obtain ⟨hstored, hscalar⟩ := huploaded.traceId
  have hne : Column.cut 64 requestId ≠ [] := by
    obtain ⟨c, rest, rfl⟩ := List.exists_cons_of_ne_nil hrequest
    exact List.cons_ne_nil _ _
  obtain rfl : traceId = Column.cut 64 requestId :=
    hlabel _ (htrace ▸ hstored) hne
  refine ⟨UUID.parse_text _, fun record hrecord interpreter process => ?_, fun t w hw => ?_⟩
  · refine handleMessage_payload row.createdAt ⟨scalar_text _, text_ne_nil _⟩
      ((reachable_inv h).objectKey_ok hp) ⟨hscalar, hne⟩ ?_ interpreter process
    exact hrecord.trans hvalue.symm
  · generalize p.photoId.text = photoId
    exact under_of_plain (withSession_plain (process_plain photoId p.objectKey)) hw

theorem message_understood_iff (h : Reachable settings state) {value : Bytes}
    (hsending : sending (state.tasks t) = some value) :
    ∃ p, state.world.db.committed.photo p.photoId = some p ∧
      (∃ requestId, state.world.ledger.UploadedBy p requestId) ∧
      ∀ requestId, state.world.ledger.UploadedBy p requestId →
        (∃ headers fresh, requestId = Api.RequestIdMiddleware.requestId headers fresh) →
        Understood settings p (Column.cut 64 requestId) value ∧
          (Understood settings p requestId value ↔ requestId.length ≤ 64) := by
  obtain ⟨p, hp, hunderstood⟩ := understood_of_sending h hsending
  refine ⟨p, hp, photo_uploadedBy h hp, ?_⟩
  rintro requestId huploaded ⟨headers, fresh, hrequest⟩
  have hcut := hunderstood requestId huploaded (hrequest ▸ requestId_ne_nil headers fresh)
  refine ⟨hcut, fun hwhole => ?_, fun hlength => ?_⟩
  · exact Column.cut_eq_self.mp (hcut.requestId_eq hwhole)
  · rwa [Column.cut_eq_self.mpr hlength] at hcut

/-- Task 1 is about to send the message of the photo. -/
def announcing (requestId : Str) : Schedule :=
  uploading requestId jpegFile ++ [.start 1 (.outboxPublisher 0)] ++ goes 1 10 ++
    [.step 1 (.rows [jpegId])] ++ goes 1 3

theorem Uploaded.uploadedBy {requestId : Str} (h : Uploaded requestId jpegFile state)
    (hfits : (PhotoService.newPhoto jpegId jpegFile.filename (py "jpg") requestId none).fits) :
    state.world.ledger.UploadedBy (uploadedRow requestId jpegFile) requestId := by
  obtain ⟨⟨entry, before⟩, harrival, rfl⟩ := Option.map_eq_some_iff.mp h.1
  have hup : Uploads jpegFile requestId none (uploadedRow requestId jpegFile) :=
    ⟨py "jpg", py "image/jpeg", 0, by decide, hfits, rfl⟩
  exact ⟨0, _, before, jpegFile, none, _, _, harrival, rfl, hup,
    Ledger.mem_commitsOf (h.2.1 ▸ List.mem_singleton_self _), List.mem_singleton_self _, rfl⟩

/-- The upload of a client that sends `X-Request-ID: r`. -/
theorem message_understood_header : ∃ state value p, Reachable defaultSettings state ∧
    sending (state.tasks 1) = some value ∧ Understood defaultSettings p (py "r") value := by
  obtain ⟨state, hreach, hsome, huploaded⟩ := reachable_of_any defaultSettings
    (announcing (py "r"))
    (P := fun state => (sending (state.tasks 1)).isSome ∧ Uploaded (py "r") jpegFile state)
    (by decide +kernel)
  obtain ⟨value, hvalue⟩ := Option.isSome_iff_exists.mp hsome
  obtain ⟨p, hp, -, hunderstood⟩ := message_understood_iff hreach hvalue
  obtain rfl := huploaded.eq_row hp
  refine ⟨state, value, uploadedRow (py "r") jpegFile, hreach, hvalue, ?_⟩
  exact (hunderstood (py "r") (huploaded.uploadedBy (by decide))
    ⟨[(Api.xRequestId, [114])], 0, by decide⟩).2.mpr (by decide)

/-- The header of a client: 64 characters and a space. -/
def paddedHeader : Bytes := List.replicate 64 97 ++ [32]

set_option maxRecDepth 2048 in
/-- The worker does not get to see the space. -/
theorem message_not_understood :
    ¬∀ (state : State) (t : Tid) (value : Bytes), Reachable defaultSettings state →
      sending (state.tasks t) = some value →
      ∃ p, state.world.db.committed.photo p.photoId = some p ∧
        ∀ requestId, state.world.ledger.UploadedBy p requestId →
          (∃ headers fresh, requestId = Api.RequestIdMiddleware.requestId headers fresh) →
          Understood defaultSettings p requestId value := by
  intro h
  obtain ⟨state, hreach, hsome, huploaded⟩ := reachable_of_any defaultSettings
    (announcing (Text.latin1Decode paddedHeader))
    (P := fun state => (sending (state.tasks 1)).isSome ∧
      Uploaded (Text.latin1Decode paddedHeader) jpegFile state) (by decide +kernel)
  obtain ⟨value, hvalue⟩ := Option.isSome_iff_exists.mp hsome
  have huploadedBy := huploaded.uploadedBy (by decide)
  obtain ⟨p, hp, hwhole⟩ := h state 1 value hreach hvalue
  obtain rfl := huploaded.eq_row hp
  obtain ⟨p, hp, hcut⟩ := understood_of_sending hreach hvalue
  obtain rfl := huploaded.eq_row hp
  have heq := (hcut _ huploadedBy (by decide)).requestId_eq
    (hwhole _ huploadedBy ⟨[(Api.xRequestId, paddedHeader)], 0, rfl⟩)
  have hlength := Column.cut_eq_self.mp heq
  exact absurd hlength (by decide)

end PhotoAnalysis

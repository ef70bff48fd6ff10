import PhotoAnalysis.Core.Clock
import PhotoAnalysis.Refinement.Processor
import PhotoAnalysis.Refinement.Publisher

/-!
# The consumer keeps its guarantee

What the publisher writes the consumer reads back, so a record that announces a
photo reaches the processor.  An offset is committed only after the records
before it have been settled.
-/

namespace PhotoAnalysis

open Foundation Program

variable {M : Nat} {t : Tid} {arrival : Arrival}
variable {position : Nat} {id : UUID}

/-! ## Reading what was published -/

theorem scalar_isoformat (time : Time) : Json.Scalar time.isoformat := by
  intro c hc
  have := Time.mem_isoformat hc
  simp only [Text.isScalar, Bool.and_eq_true, decide_eq_true_eq,
    Bool.not_eq_true', Bool.and_eq_false_iff, decide_eq_false_iff_not]
  omega

theorem scalar_ascii {s : Str} (h : ∀ c ∈ s, c < 128) : Json.Scalar s := by
  intro c hc
  have := h c hc
  simp only [Text.isScalar, Bool.and_eq_true, decide_eq_true_eq,
    Bool.not_eq_true', Bool.and_eq_false_iff, decide_eq_false_iff_not]
  omega

/-- What the consumer makes of an event. -/
def received (photoId objectKey : Str) (createdAt : Time) (traceId : Str) :
    List (Str × Json) :=
  (KafkaEventProducer.payload photoId objectKey createdAt traceId).map
    fun entry => (entry.1, .str entry.2)

theorem loads_payload {photoId objectKey traceId : Str} (interpreter : Interpreter)
    (createdAt : Time) (hid : Json.Scalar photoId) (hkey : Json.Scalar objectKey)
    (htrace : Json.Scalar traceId) :
    Json.loads interpreter.nesting (Text.utf8Encode (Json.dumps
      (KafkaEventProducer.payload photoId objectKey createdAt traceId))) =
        .ok (.dict (received photoId objectKey createdAt traceId)) := by
  obtain ⟨bytes, hbytes, hloads⟩ := Json.loads_dumps interpreter.nesting_pos
    (KafkaEventProducer.payload photoId objectKey createdAt traceId)
    (by simp [KafkaEventProducer.payload]) (by
        intro entry hentry
        simp only [KafkaEventProducer.payload, List.mem_cons, List.not_mem_nil,
          or_false] at hentry
        rcases hentry with rfl | rfl | rfl | rfl
        · exact ⟨scalar_ascii (s := py "photo_id") (by decide), hid⟩
        · exact ⟨scalar_ascii (s := py "object_key") (by decide), hkey⟩
        · exact ⟨scalar_ascii (s := py "created_at") (by decide),
            scalar_isoformat createdAt⟩
        · exact ⟨scalar_ascii (s := py "trace_id") (by decide), htrace⟩)
  rw [hbytes, hloads]
  rfl

theorem textField_received (photoId objectKey : Str) (createdAt : Time)
    (traceId : Str) :
    Consumer.textField (received photoId objectKey createdAt traceId)
      (py "photo_id") = photoId := rfl

theorem isMissing_received {photoId objectKey : Str} (createdAt : Time)
    (traceId : Str) (hid : photoId ≠ []) (hkey : objectKey ≠ []) :
    Consumer.isMissing (received photoId objectKey createdAt traceId)
        (py "photo_id") = false ∧
      Consumer.isMissing (received photoId objectKey createdAt traceId)
        (py "object_key") = false := by
  have hp : Consumer.isMissing (received photoId objectKey createdAt traceId)
      (py "photo_id") = photoId.isEmpty := rfl
  have ho : Consumer.isMissing (received photoId objectKey createdAt traceId)
      (py "object_key") = objectKey.isEmpty := rfl
  rw [hp, ho]
  simp [hid, hkey]

/-- The text of a stored photo's key can be sent. -/
theorem Inv.objectKey_ok {L : Ledger} (hI : Inv M L) {p : Photo}
    (hp : L.tables.photo id = some p) :
    Json.Scalar p.objectKey ∧ p.objectKey ≠ [] := by
  obtain ⟨row, file, hrow, hcreated⟩ := hI.created id p hp
  obtain ⟨⟨p', hp', hidentity⟩, -, uploadId, batchId, hup⟩ := hI.stored row file hcreated
  rw [hrow, hp, Option.some.injEq] at hp'
  subst hp'
  rw [(Photo.identity_eq hidentity).2.2.1]
  refine ⟨scalar_of_storable (Column.storable_of_holds hup.objectKey_holds), ?_⟩
  obtain ⟨ext, hkey⟩ := hup.objectKey
  have hfolder : py "photos/" ≠ [] := by decide
  simp [hkey, hfolder, PhotoService.objectKey]

/-! ## One message -/

section

variable {settings : Settings}

theorem log_spec {P : World → Prop} (interpreter : Interpreter) (level : LogLevel)
    (value : Json) :
    Spec M t P (Consumer.log interpreter level value) fun _ => P := by
  unfold Consumer.log
  split
  · exact .ret fun w hI h => h
  · exact .raise fun w hI h => h

theorem processPayload_spec {known : Prop} {payload : List (Str × Json)}
    (hknown : known → UUID.parse (Consumer.textField payload (py "photo_id")) =
      some id) (hM : settings.workerMaxAttempts.toNat = M) :
    Spec M t (Clean t arrival position fun L =>
        known → (L.tables.photo id).isSome)
      (Consumer.processPayload settings.interpreter
        (AnalysisProcessor.process settings) payload)
      fun _ => Clean t arrival position fun L => known → L.Handled id := by
  have hhandled : ∀ locks, Lasting M t locks fun L => known → L.Handled id :=
    fun _ => .imp _ (.of_growing (.handled id))
  unfold Consumer.processPayload
  generalize Consumer.textField payload (py "photo_id") = photoId at hknown ⊢
  generalize Consumer.textField payload (py "object_key") = objectKey
  generalize Consumer.traceIdOf payload = value
  refine .exists_ fun traceId => ?_
  refine .bind (fun token => Clean t arrival position fun L =>
    known → (L.tables.photo id).isSome) ?_ fun token => ?_
  · refine (spec_sure rfl (spec_setTraceId (.imp _ (.of_growing ?_)))).post ?_
    · rintro L L' hI hg h
      obtain ⟨p, hp⟩ := Option.isSome_iff_exists.mp h
      obtain ⟨q, hq, -⟩ := hg.photo hp
      simp [hq]
    · rintro (exc | token) w hI h
      · exact h.elim
      · exact ⟨_, h⟩
  refine .tryFinally (fun _ => Clean t arrival position fun L =>
    known → L.Handled id) ?_ fun outcome => ?_
  · refine .tryExcept (fun _ => Clean t arrival position fun L =>
      known → L.Handled id) ?_ fun exc => ?_
    · refine (withSession_spec (hhandled _)
        (.exists_ fun traceId => process_spec hknown hM)).post ?_
      rintro (exc | value) w hI h <;> exact h
    · split
      · exact log_spec _ _ _
      · exact .raise fun w hI h => h
  · refine .exists_ fun traceId => .seq (Clean t arrival position fun L =>
      known → L.Handled id) ?_ (fun _ => .ret fun w hI h => h) fun _ _ _ h => h
    exact (spec_setTraceId (hhandled _)).post fun outcome w hI h => ⟨_, h⟩

/-- Without knowing what the message is about. -/
theorem handleMessage_safe (arrival : Arrival) (position : Nat)
    (message : ConsumerRecord)
    (hM : settings.workerMaxAttempts.toNat = M) :
    Spec M t (Clean t arrival position fun _ => True)
      (Consumer.handleMessage settings.interpreter
        (AnalysisProcessor.process settings) message)
      fun _ => Clean t arrival position fun _ => True := by
  unfold Consumer.handleMessage
  split
  · exact log_spec _ _ _
  · exact log_spec _ _ _
  · exact .raise fun w hI h => h
  next payload hloads =>
    split
    · exact log_spec _ _ _
    · have hpayload : Spec M t (Clean t arrival position fun L =>
          False → (L.tables.photo 0).isSome)
          (Consumer.processPayload settings.interpreter
            (AnalysisProcessor.process settings) payload)
          fun _ => Clean t arrival position fun L => False → L.Handled 0 :=
        processPayload_spec nofun hM
      refine hpayload.conseq ?_ ?_
      · exact fun w _ h => h.mono fun _ => nofun
      · exact fun outcome w _ h => h.mono fun _ => trivial
  · split
    · exact log_spec _ _ _
    · exact .raise fun w hI h => h

/-- A message that announces a photo is handled before its offset is due. -/
theorem handleMessage_announced {L : Ledger} (hI : Inv M L) {p : Photo}
    (hp : L.tables.photo id = some p) {message : ConsumerRecord}
    (h : Announces message p) (interpreter : Interpreter)
    (process : Str → Str → Py Unit) :
    ∃ payload, UUID.parse (Consumer.textField payload (py "photo_id")) = some id ∧
      Consumer.handleMessage interpreter process message =
        Consumer.processPayload interpreter process payload := by
  obtain ⟨createdAt, traceId, htrace, hvalue⟩ := h
  obtain ⟨hscalar, hkey⟩ := hI.objectKey_ok hp
  have hid : p.photoId = id := Tables.photoId_of_photo hp
  have hne : p.photoId.text ≠ [] := by
    intro hnil
    have := UUID.length_text p.photoId
    simp [hnil] at this
  refine ⟨received p.photoId.text p.objectKey createdAt traceId, ?_, ?_⟩
  · rw [textField_received, UUID.parse_text, hid]
  · obtain ⟨hphoto, hobject⟩ := isMissing_received createdAt traceId hne hkey
    rw [Consumer.handleMessage, hvalue,
      loads_payload interpreter createdAt (scalar_text _) hscalar htrace]
    simp only [hphoto, hobject]
    rfl

theorem handleMessage_spec (message : ConsumerRecord) {i : Nat}
    (hM : settings.workerMaxAttempts.toNat = M) :
    Spec M t (Clean t arrival position fun L => L.topic[i]? = some message)
      (Consumer.handleMessage settings.interpreter
        (AnalysisProcessor.process settings) message)
      fun _ => Clean t arrival position (Ledger.Settled · i) := by
  have htopic : Growing M fun L => L.topic[i]? = some message :=
    fun _ _ _ hg h => hg.topic i message h
  by_cases hacked : message.acked
  · rintro w hI ⟨traceId, hat⟩
    obtain ⟨id, p, hp, hannounces⟩ :=
      hI.announced message (List.mem_of_getElem? hat.fact) hacked
    obtain ⟨payload, hparse, hrun⟩ := handleMessage_announced hI hp hannounces
      settings.interpreter (AnalysisProcessor.process settings)
    have hannounced : Growing M fun L =>
        ∃ p, L.tables.photo id = some p ∧ Announces message p := by
      rintro L L' - hg ⟨p, hp, h⟩
      obtain ⟨q, hq, hidentity, -⟩ := hg.photo hp
      exact ⟨q, hq, h.congr hidentity⟩
    have hpayload : Spec M t (Clean t arrival position fun L =>
        True → (L.tables.photo id).isSome)
        (Consumer.processPayload settings.interpreter
          (AnalysisProcessor.process settings) payload)
        fun _ => Clean t arrival position fun L => True → L.Handled id :=
      processPayload_spec (fun _ => hparse) hM
    rw [hrun]
    refine Discipline.Triple.post (frame_growing (htopic.and hannounced) hpayload) ?_ w
      hI ⟨⟨traceId, hat.mono fun _ _ => by simp [hp]⟩, hat.fact, p, hp, hannounces⟩
    rintro outcome w hI ⟨h, hmessage, p, hp, hannounces⟩
    refine h.mono fun hhandled => ⟨message, hmessage, fun _ => ?_⟩
    obtain ⟨q, hq, hdone⟩ := hhandled trivial
    rw [hp, Option.some.injEq] at hq
    exact ⟨id, p, hp, hannounces, hq ▸ hdone⟩
  · refine (frame_growing htopic
      (handleMessage_safe arrival position message hM)).conseq ?_ ?_
    · rintro w hI ⟨traceId, hat⟩
      exact ⟨⟨traceId, hat.mono fun _ => trivial⟩, hat.fact⟩
    · rintro outcome w hI ⟨h, hmessage⟩
      exact h.mono fun _ => ⟨message, hmessage, fun h => absurd h hacked⟩

/-! ## The loop -/

/-- Everything before the consumer's position has been settled. -/
def Caught (t : Tid) (arrival : Arrival) (w : World) : Prop :=
  ∃ position, Clean t arrival position
    (fun L => ∀ i < position, L.Settled i) w

theorem Growing.settledBefore (position : Nat) :
    Growing M fun L => ∀ i < position, L.Settled i :=
  fun _ _ _ hg h i hi => (h i hi).mono hg

/-- A task that still runs. -/
def Live (t : Tid) (arrival : Arrival) (w : World) : Prop :=
  ∃ position, Over t arrival position w

theorem Caught.live {w : World} (h : Caught t arrival w) : Live t arrival w := by
  obtain ⟨position, h⟩ := h
  exact ⟨position, h.adrift.over⟩

theorem startConsumer_spec {traceId : Json} :
    Spec M t (At t arrival ⟨[], position, traceId⟩ fun _ => True)
      (wait .startConsumer) fun answer w => match answer with
      | .ok _ => Caught t arrival w
      | .error _ => Live t arrival w := by
  refine (spec_startConsumer (J := fun n L => ∀ i < n, L.Settled i) (.const True)
    (fun n => .of_growing (.settledBefore n)) fun L hI _ => hI.settled).post ?_
  rintro (exc | value) w hI h
  · exact ⟨position, h.over⟩
  · obtain ⟨n, h⟩ := h
    exact ⟨n, traceId, h⟩

theorem getone_spec {traceId : Json} :
    Spec M t (At t arrival ⟨[], position, traceId⟩
        (fun L => ∀ i < position, L.Settled i)) (wait .getone)
      fun answer w => match answer with
      | .ok record => Clean t arrival (position + 1)
          (fun L => L.topic[position]? = some record) w ∧
            ∀ i < position, w.ledger.Settled i
      | .error _ => Caught t arrival w := by
  have hsettled := Growing.settledBefore (M := M) position
  have htopic : ∀ record, Growing M fun L => L.topic[position]? = some record :=
    fun record _ _ _ hg h => hg.topic position record h
  refine (spec_getone (J := fun record L => L.topic[position]? = some record ∧
    ∀ i < position, L.Settled i) (.of_growing hsettled)
    (fun record => .of_growing ((htopic record).and hsettled))
    fun L record hI h hrecord => ⟨hrecord, h⟩).post ?_
  rintro (exc | record) w hI h
  · exact ⟨position, traceId, h⟩
  · exact ⟨⟨traceId, h.mono fun h => h.1⟩, h.fact.2⟩

/-- The record is handled and its offset committed. -/
theorem consume_spec (message : ConsumerRecord)
    (hM : settings.workerMaxAttempts.toNat = M) :
    Spec M t (fun w => Clean t arrival (position + 1)
          (fun L => L.topic[position]? = some message) w ∧
        ∀ i < position, w.ledger.Settled i)
      (do Consumer.handleMessage settings.interpreter
            (AnalysisProcessor.process settings) message
          wait .commitOffset) fun _ => Caught t arrival := by
  refine .seq (Caught t arrival) ?_ (fun _ => ?_) fun _ _ _ h => h
  · refine (frame_growing (.settledBefore position)
      (handleMessage_spec message hM)).post ?_
    rintro outcome w hI ⟨h, hsettled⟩
    refine ⟨position + 1, h.mono fun hlast i hi => ?_⟩
    rcases Nat.lt_succ_iff_lt_or_eq.mp hi with hi | rfl
    · exact hsettled i hi
    · exact hlast
  · refine .exists_ fun position => .exists_ fun traceId => ?_
    exact (spec_commitOffset (.settledBefore position) fun L _ h => h).post
      fun outcome w hI h => ⟨position, traceId, h⟩

theorem consumerTurn_spec (hM : settings.workerMaxAttempts.toNat = M) :
    Spec M t (Caught t arrival)
      (Consumer.turn settings.interpreter (AnalysisProcessor.process settings))
      fun _ => Caught t arrival := by
  unfold Consumer.turn
  refine .seq (Caught t arrival) ?_ (fun stop => ?_) fun _ _ _ h => h
  · refine .exists_ fun position => .exists_ fun traceId => ?_
    exact (spec_local rfl (.of_growing (.settledBefore position))).post
      fun outcome w hI h => ⟨position, traceId, h⟩
  split
  · exact .ret fun w hI h => h
  refine .exists_ fun position => .exists_ fun traceId => ?_
  refine .bind (fun outcome w => match outcome with
    | .ok record => Clean t arrival (position + 1)
        (fun L => L.topic[position]? = some record) w ∧
          ∀ i < position, w.ledger.Settled i
    | .error _ => Caught t arrival w) (.attempt getone_spec) ?_
  rintro (exc | message)
  · dsimp only
    split
    · exact .ret fun w hI h => h
    · exact .raise fun w hI h => h
  · dsimp only
    rw [bind_eq, bind_eq, ← bind_assoc]
    exact .seq _ (consume_spec message hM) (fun _ => .ret fun w hI h => h)
      fun _ _ _ h => h

end

end PhotoAnalysis

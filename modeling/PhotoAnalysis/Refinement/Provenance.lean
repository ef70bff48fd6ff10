import PhotoAnalysis.Foundation.Record
import PhotoAnalysis.Refinement.Effects
import PhotoAnalysis.Refinement.Sending

/-!
# Where a result comes from

A discipline over the world and the record of the run.  What a task asks the
analyzer it has read in a message, and what it writes as the result of a photo the
analyzer has answered to a request about that photo.
-/

namespace PhotoAnalysis

open Foundation Program

/-- A world with the record of the run that led to it. -/
abbrev Chronicled := World × Trace Op Op.Ans PyExc

/-- Some message of the topic has these fields. -/
def Asked (topic : List ConsumerRecord) (photoId objectKey : Str) : Prop :=
  ∃ record ∈ topic, ∃ (interpreter : Interpreter) (payload : List (Str × Json)),
    Json.loads interpreter.nesting record.value = .ok (.dict payload) ∧
    Consumer.textField payload (py "photo_id") = photoId ∧
    Consumer.textField payload (py "object_key") = objectKey

/-- The analyzer has given this answer to a request about the photo. -/
def Heard (trace : Trace Op Op.Ans PyExc) (id : UUID) (response : AnalyzePhotoResponse) :
    Prop :=
  ∃ t photoId objectKey, (t, ⟨.analyzePhoto photoId objectKey, .ok response⟩) ∈ trace ∧
    UUID.parse photoId = some id

/-- The result is what is stored of such an answer. -/
def Answered (trace : Trace Op Op.Ans PyExc) (row : AnalysisResult) : Prop :=
  ∃ response, Heard trace row.photoId response ∧ row.response = response.stored

structure Sourced (w : Chronicled) : Prop where
  asked : ∀ t photoId objectKey answer,
    (t, ⟨.analyzePhoto photoId objectKey, answer⟩) ∈ w.2 →
      Asked w.1.topic photoId objectKey
  pending : ∀ t row, .addAnalysis row ∈ w.1.db.writes t → Answered w.2 row
  rows : ∀ row ∈ w.1.db.committed.analyses.rows, Answered w.2 row

/-- Nothing is taken off the topic or the record. -/
structure Extends (w w' : Chronicled) : Prop where
  topic : w.1.topic <+: w'.1.topic
  trace : w.2 <:+ w'.2

theorem Extends.refl (w : Chronicled) : Extends w w :=
  ⟨List.prefix_refl _, List.suffix_refl _⟩

theorem Extends.trans {w w' w'' : Chronicled} (h : Extends w w') (h' : Extends w' w'') :
    Extends w w'' :=
  ⟨h.topic.trans h'.topic, h.trace.trans h'.trace⟩

theorem Asked.extend {w w' : Chronicled} {photoId objectKey : Str}
    (h : Asked w.1.topic photoId objectKey) (hext : Extends w w') :
    Asked w'.1.topic photoId objectKey := by
  obtain ⟨record, hrecord, hrest⟩ := h
  exact ⟨record, hext.topic.subset hrecord, hrest⟩

theorem Heard.extend {w w' : Chronicled} {id : UUID} {response : AnalyzePhotoResponse}
    (h : Heard w.2 id response) (hext : Extends w w') : Heard w'.2 id response := by
  obtain ⟨t, photoId, objectKey, hmem, hid⟩ := h
  exact ⟨t, photoId, objectKey, hext.trace.subset hmem, hid⟩

theorem Answered.extend {w w' : Chronicled} {row : AnalysisResult}
    (h : Answered w.2 row) (hext : Extends w w') : Answered w'.2 row := by
  obtain ⟨response, hheard, hrow⟩ := h
  exact ⟨response, hheard.extend hext, hrow⟩

def sources : Discipline Chronicled where
  inv := Sourced
  guar := fun _ w w' => Sourced w' ∧ Extends w w'
  rely := fun _ => Extends
  rely_refl := fun _ => Extends.refl
  rely_trans := Extends.trans
  inv_of_guar := fun _ h => h.1
  rely_of_guar := fun _ h _ => h.2

variable {settings : Settings} {t : Tid} {w w' : Chronicled} {id : UUID}

/-! ## One operation -/

/-- Only a send adds to the topic. -/
theorem World.perform_sends {w w' : World} {op : Op} {choice : Choice}
    {answer : Except PyExc op.Ans} (h : World.perform t op choice w = some (answer, w')) :
    w'.topic = w.topic ∨ ∃ client value key acked, op = .sendAndWait client value key ∧
      w'.topic = w.topic ++ [⟨some value, some key, acked⟩] := by
  by_cases hop : op.concern = .send
  · cases op with
    | sendAndWait client value key =>
        rcases World.perform_cases h with ⟨exc, kept, hkept, -, rfl⟩ |
          ⟨exc, w₁, hw₁, -, rfl⟩ | h
        · cases kept <;> exact .inl rfl
        · cases hw₁
          exact .inr ⟨client, value, key, false, rfl, rfl⟩
        · cases choice <;> cases h
          exact .inr ⟨client, value, key, true, rfl, rfl⟩
    | _ => cases hop
  · exact .inl ((Keeps.perform h).topic hop)

theorem topic_of_perform {w w' : World} {op : Op} {choice : Choice}
    {answer : Except PyExc op.Ans} (h : World.perform t op choice w = some (answer, w')) :
    w.topic <+: w'.topic := by
  rcases World.perform_sends h with heq | ⟨client, value, key, acked, -, heq⟩
  · exact heq ▸ List.prefix_refl _
  · exact heq ▸ List.prefix_append _ _

theorem analysis_of_resolve {stmt : Stmt} {now : Time} {T : Tables} {row : AnalysisResult}
    (h : stmt.resolve now T = .ok (some (.addAnalysis row))) :
    ∃ hash, row.perceptualHash = Column.cut 64 hash ∧
      stmt = .insertAnalysis row.photoId row.facesCount row.isBlurred row.blurScore
        hash := by
  cases stmt with
  | insertAnalysis id faces blurred score hash =>
      simp only [Stmt.resolve] at h
      split at h
      · cases h
      split at h
      · cases h
      split at h
      · cases h
      · cases h
        exact ⟨hash, rfl, rfl⟩
  | insertPhoto photo =>
      simp only [Stmt.resolve] at h
      split at h
      · cases h
      split at h
      · cases h
      split at h <;> cases h
  | insertBatch id status =>
      simp only [Stmt.resolve] at h
      split at h <;> cases h
  | updatePhoto id status values =>
      simp only [Stmt.resolve] at h
      split at h
      · cases h
      split at h
      · cases h
      split at h
      · split at h <;> cases h
      · cases h
  | updateBatch id status best =>
      simp only [Stmt.resolve] at h
      split at h
      · cases h
      split at h <;> cases h

theorem Tables.analyses_writes {ws : List Write} {T : Tables} {row : AnalysisResult}
    (h : row ∈ (ws.foldl Write.apply T).analyses.rows) :
    row ∈ T.analyses.rows ∨ .addAnalysis row ∈ ws := by
  induction ws generalizing T with
  | nil => exact .inl h
  | cons write ws ih =>
      rcases ih h with hrow | hmem
      · cases write with
        | addAnalysis added =>
            have hadd : row ∈ (T.analyses.add added).rows := hrow
            unfold Table.add at hadd
            split at hadd
            · rcases List.mem_append.mp hadd with hold | hnew
              · exact .inl hold
              · rw [List.mem_singleton.mp hnew]
                exact .inr List.mem_cons_self
            · exact .inl hadd
        | _ => exact .inl hrow
      · exact .inr (List.mem_cons_of_mem write hmem)

/--
An operation that asks what a message says, or writes what was answered, keeps the
discipline; others cannot break it.
-/
theorem Sourced.perform {op : Op} {choice : Choice} {answer : Except PyExc op.Ans}
    (h : (system settings).recorded.perform t op choice w = some (answer, w'))
    (hw : Sourced w)
    (hask : ∀ photoId objectKey, op = .analyzePhoto photoId objectKey →
      Asked w.1.topic photoId objectKey)
    (hinsert : ∀ id faces blurred score hash,
      op = .execute (.insertAnalysis id faces blurred score hash) →
        Heard w.2 id ⟨faces, blurred, score, hash⟩) :
    Sourced w' ∧ Extends w w' := by
  obtain ⟨hperform, htrace⟩ := Machine.perform_of_recorded h
  have hext : Extends w w' :=
    ⟨topic_of_perform hperform, htrace ▸ List.suffix_cons _ _⟩
  have hdb := Transacts.perform hperform
  have hpending : ∀ row, .addAnalysis row ∈ w.1.db.writes t → Answered w'.2 row :=
    fun row hrow => (hw.pending t row hrow).extend hext
  refine ⟨⟨?_, ?_, ?_⟩, hext⟩
  · intro other photoId objectKey result hmem
    rw [htrace, List.mem_cons] at hmem
    rcases hmem with heq | hmem
    · injection heq with _ hop
      injection hop with hop
      exact (hask photoId objectKey hop.symm).extend hext
    · exact (hw.asked other photoId objectKey result hmem).extend hext
  · intro other row hrow
    by_cases hother : other = t
    · subst hother
      rcases hdb.writes with heq | heq | ⟨stmt, write, rfl, hresolve, heq⟩
      · exact hpending row (heq ▸ hrow)
      · rw [heq] at hrow
        cases hrow
      · rw [heq, List.mem_append, List.mem_singleton] at hrow
        rcases hrow with hrow | rfl
        · exact hpending row hrow
        · obtain ⟨hash, hhash, hstmt⟩ := analysis_of_resolve hresolve
          refine ⟨_, (hinsert _ _ _ _ _ (congrArg Op.execute hstmt)).extend hext, ?_⟩
          rw [AnalysisResult.response, hhash]
          rfl
    · rw [(Spared.perform hperform hother).writes] at hrow
      exact (hw.pending other row hrow).extend hext
  · intro row hrow
    rcases hdb.committed with heq | heq
    · exact (hw.rows row (heq ▸ hrow)).extend hext
    · rw [heq] at hrow
      rcases Tables.analyses_writes hrow with hold | hmem
      · exact (hw.rows row hold).extend hext
      · exact hpending row hmem

/-! ## The rules -/

abbrev Traces (settings : Settings) (t : Tid) {α : Type} (P : Chronicled → Prop)
    (program : Py α) (Q : Except PyExc α → Chronicled → Prop) : Prop :=
  sources.Triple (system settings).recorded.perform t P program Q

/-- An assertion about the topic and the record that more of them leaves true. -/
def Enduring (P : Chronicled → Prop) : Prop :=
  ∀ {w w'}, Extends w w' → P w → P w'

theorem Enduring.steady {P : Chronicled → Prop} (h : Enduring P) : sources.Steady t P :=
  fun _ _ hrely _ => h hrely

theorem enduring_asked (photoId objectKey : Str) :
    Enduring fun w => Asked w.1.topic photoId objectKey :=
  fun hext h => h.extend hext

/-- An operation that neither asks nor writes a result. -/
def Op.isCalm (op : Op) : Bool := op.effect ≠ .ask && op.effect ≠ .insertAnalysis

theorem traces_calm {P : Chronicled → Prop} (hP : Enduring P) {op : Op} (hop : op.isCalm) :
    Traces settings t P (wait op) fun _ => P := by
  refine .call (fun _ => hP.steady) fun w choice answer w' hw hp h => ?_
  have hguar := Sourced.perform h hw (fun _ _ heq => by subst heq; cases hop)
    fun _ _ _ _ _ heq => by subst heq; cases hop
  exact ⟨hguar, hP hguar.2 hp⟩

theorem traces_does {α : Type} {P : Chronicled → Prop} (hP : Enduring P)
    {effects : List DataEffect} {program : Py α} (h : program.Uses (Op.Does effects))
    (hask : DataEffect.ask ∉ effects) (hinsert : DataEffect.insertAnalysis ∉ effects) :
    Traces settings t P program fun _ => P :=
  .uses h fun _ hop => traces_calm hP (by
    simp [Op.isCalm, hop.ne hask (by simp), hop.ne hinsert (by simp)])

/-- A program without operations. -/
theorem traces_silent {α : Type} {P : Chronicled → Prop} {program : Py α}
    (h : ∀ p : Op → Prop, program.Uses p) :
    Traces settings t P program fun _ _ => True := by
  have huses : Traces settings t (fun _ => True) program fun _ _ => True :=
    .uses (h fun _ => False) fun _ hop => hop.elim
  exact .conseq huses (fun _ _ _ => trivial) fun _ _ _ h => h

theorem traces_withSession {α : Type} {P : Chronicled → Prop} {body : Py α}
    (h : Traces settings t P body fun _ _ => True) :
    Traces settings t P (withSession body) fun _ _ => True := by
  refine .tryFinally (fun _ _ => True) h fun outcome => ?_
  refine .post (traces_calm (P := fun _ => True) (fun _ h => h) rfl) ?_
  rintro (exc | value) w _ _ <;> trivial

/-! ## The worker -/

section

variable {photoId objectKey : Str}

theorem traces_analyze (hid : UUID.parse photoId = some id) :
    Traces settings t (fun w => Asked w.1.topic photoId objectKey)
      (AnalyzerGrpcClient.analyze photoId objectKey) fun answer w =>
        Asked w.1.topic photoId objectKey ∧
          ∀ response, answer = .ok response → Heard w.2 id response := by
  refine .call (fun answer w w' hrely _ h => ⟨h.1.extend hrely, fun response hok =>
    (h.2 response hok).extend hrely⟩) fun w choice answer w' hw hp h => ?_
  have hguar := Sourced.perform h hw (fun _ _ heq => by cases heq; exact hp)
    fun _ _ _ _ _ heq => by cases heq
  refine ⟨hguar, hp.extend hguar.2, ?_⟩
  rintro response rfl
  refine ⟨t, photoId, objectKey, ?_, hid⟩
  rw [(Machine.perform_of_recorded h).2]
  exact List.mem_cons_self

theorem traces_upsert (response : AnalyzePhotoResponse) :
    Traces settings t (fun w => Heard w.2 id response)
      (AnalysisResultRepository.upsert id response) fun _ _ => True := by
  refine .seq (fun _ => True) ?_ (fun _ => .ret fun _ _ _ => trivial) fun _ _ _ h => h
  refine .call (fun _ _ _ _ _ _ => trivial) fun w choice answer w' hw hp h => ?_
  refine ⟨Sourced.perform h hw (fun _ _ heq => by cases heq) ?_, trivial⟩
  intro id' faces blurred score hash heq
  cases heq
  exact hp

theorem traces_retryLoop (hid : UUID.parse photoId = some id) (remaining attempt : Nat)
    (progress : AnalysisProcessor.Progress) (hprogress : progress.response = none) :
    Traces settings t (fun w => Asked w.1.topic photoId objectKey)
      (AnalysisProcessor.retryLoop settings photoId objectKey id remaining attempt progress)
      fun answer w => ∀ last response, answer = .ok last → last.response = some response →
        Heard w.2 id response := by
  induction remaining generalizing attempt progress with
  | zero =>
      refine .ret fun w _ _ last response hlast hresponse => ?_
      cases hlast
      rw [hprogress] at hresponse
      cases hresponse
  | succ remaining ih =>
      have hcalm : ∀ {op : Op}, op.isCalm →
          Traces settings t (fun w => Asked w.1.topic photoId objectKey) (wait op)
            fun _ w => Asked w.1.topic photoId objectKey :=
        traces_calm (enduring_asked photoId objectKey)
      have herror : ∀ (exc : PyExc) (w : Chronicled) (last : AnalysisProcessor.Progress)
          (response : AnalyzePhotoResponse), (.error exc : Except PyExc _) = .ok last →
            last.response = some response → Heard w.2 id response :=
        fun _ _ _ _ hok => by cases hok
      unfold AnalysisProcessor.retryLoop
      refine .bind (fun outcome w => Asked w.1.topic photoId objectKey ∧
        ∀ response, outcome = .ok response → Heard w.2 id response)
          (.attempt (traces_analyze hid)) ?_
      rintro (exc | response)
      · dsimp only
        split
        · exact .raise fun w _ _ => herror exc w
        · refine .seq _ (.conseq (hcalm rfl) (fun _ _ h => h.1)
            fun _ _ _ h => h) (fun _ => ?_) fun exc w _ _ => herror exc w
          refine .seq _ (traces_does (enduring_asked photoId objectKey)
            (execute_does rfl : Program.Uses (Op.Does [.progress]) _) (by simp) (by simp))
            (fun _ => ?_) fun exc w _ _ => herror exc w
          refine .seq _ (hcalm rfl) (fun _ => ?_) fun exc w _ _ => herror exc w
          split
          · refine .ret fun w _ _ last response hlast hresponse => ?_
            cases hlast
            cases hresponse
          · refine .seq _ (.ofExcept fun w _ h => h) (fun delay => ?_)
              fun exc w _ _ => herror exc w
            exact .seq _ (hcalm rfl) (fun _ => ih _ _ rfl)
              fun exc w _ _ => herror exc w
      · refine .ret fun w _ h last response' hlast hresponse => ?_
        cases hlast
        cases hresponse
        exact h.2 response rfl

theorem traces_terminalWrite (progress : AnalysisProcessor.Progress) :
    Traces settings t (fun w => ∀ response, progress.response = some response →
        Heard w.2 id response)
      (AnalysisProcessor.terminalWrite id progress) fun _ _ => True := by
  have hrest : ∀ {α : Type} {program : Py α}, program.Uses (Op.Does [.progress]) →
      Traces settings t (fun _ => True) program fun _ _ => True :=
    fun h => traces_does (fun _ h => h) h (by simp) (by simp)
  unfold AnalysisProcessor.terminalWrite
  split
  next response hresponse =>
    refine .seq _ (.conseq (traces_upsert response) (fun _ _ h => h response hresponse)
      fun _ _ _ h => h) (fun _ => hrest ?_) fun _ _ _ h => h
    exact .bind (execute_does rfl) fun _ => .bind (wait_nothing rfl) fun _ =>
      .bind (wait_nothing rfl) fun _ => wait_nothing rfl
  next =>
    refine .conseq (hrest ?_) (fun _ _ _ => trivial) fun _ _ _ h => h
    exact .bind (execute_does rfl) fun _ => .bind (wait_nothing rfl) fun _ =>
      .bind (wait_nothing rfl) fun _ => wait_nothing rfl

theorem traces_process (photoId objectKey : Str) :
    Traces settings t (fun w => Asked w.1.topic photoId objectKey)
      (AnalysisProcessor.process settings photoId objectKey) fun _ _ => True := by
  have hcalm : ∀ {op : Op}, op.isCalm →
      Traces settings t (fun w => Asked w.1.topic photoId objectKey) (wait op)
        fun _ w => Asked w.1.topic photoId objectKey :=
    traces_calm (enduring_asked photoId objectKey)
  unfold AnalysisProcessor.process
  split
  · exact .raise fun _ _ _ => trivial
  next photoUuid hid =>
    refine .seq _ (hcalm rfl) (fun rowcount => ?_) fun _ _ _ _ => trivial
    refine .seq _ (hcalm rfl) (fun _ => ?_) fun _ _ _ _ => trivial
    split
    · exact .post (hcalm rfl) fun _ _ _ _ => trivial
    · refine .seq _ (hcalm rfl) (fun _ => ?_) fun _ _ _ _ => trivial
      refine .seq _ (hcalm rfl) (fun t0 => ?_) fun _ _ _ _ => trivial
      have hheard : ∀ progress : AnalysisProcessor.Progress, Enduring fun w =>
          ∀ response, progress.response = some response → Heard w.2 photoUuid response :=
        fun progress w w' hext h response hsome => (h response hsome).extend hext
      refine .bind (fun progress w => ∀ response, progress.response = some response →
        Heard w.2 photoUuid response) ?_ fun progress => ?_
      · refine (traces_retryLoop hid _ _ _ rfl).post ?_
        rintro (exc | progress) w _ h
        · trivial
        · exact fun response hresponse => h progress response rfl hresponse
      · refine .seq _ (traces_calm (hheard progress) rfl) (fun t1 => ?_)
          fun _ _ _ _ => trivial
        exact .seq _ (traces_calm (hheard progress) rfl)
          (fun _ => traces_terminalWrite progress) fun _ _ _ _ => trivial

theorem traces_handleMessage (interpreter : Interpreter) (message : ConsumerRecord) :
    Traces settings t (fun w => message ∈ w.1.topic)
      (Consumer.handleMessage interpreter (AnalysisProcessor.process settings) message)
      fun _ _ => True := by
  have htrivial : Enduring fun _ => True := fun _ h => h
  unfold Consumer.handleMessage
  split
  · exact traces_silent fun _ => log_uses _ _ _
  · exact traces_silent fun _ => log_uses _ _ _
  · exact .raise fun _ _ _ => trivial
  next payload hloads =>
    split
    · exact traces_silent fun _ => log_uses _ _ _
    · unfold Consumer.processPayload
      have hprocess : ∀ photoId objectKey : Str,
          Traces settings t (fun w => Asked w.1.topic photoId objectKey)
            (AnalysisProcessor.process settings photoId objectKey) fun _ _ => True :=
        traces_process
      have hasked : ∀ w : Chronicled, message ∈ w.1.topic → Asked w.1.topic
          (Consumer.textField payload (py "photo_id"))
          (Consumer.textField payload (py "object_key")) :=
        fun w hmem => ⟨message, hmem, interpreter, payload, hloads, rfl, rfl⟩
      generalize Consumer.textField payload (py "photo_id") = photoId at hprocess hasked ⊢
      generalize Consumer.textField payload (py "object_key") = objectKey
        at hprocess hasked ⊢
      generalize Consumer.traceIdOf payload = value
      refine .seq (fun w => Asked w.1.topic photoId objectKey)
        (.conseq (traces_calm (enduring_asked photoId objectKey) rfl)
          (fun w _ h => hasked w h) fun _ _ _ h => h) (fun token => ?_)
        fun _ _ _ _ => trivial
      refine .tryFinally (fun _ _ => True) (.tryExcept (fun _ _ => True) ?_ fun exc =>
        traces_silent fun _ => log_or_raise_uses _ _ _ _) fun outcome => ?_
      · refine (traces_withSession (hprocess _ _)).post ?_
        rintro (exc | value) w _ _ <;> trivial
      · refine .post (traces_does htrivial
          (.bind (wait_nothing rfl) fun _ => uses_ret _ : Program.Uses (Op.Does []) _)
          (by simp) (by simp)) ?_
        rintro (exc | value) w _ _ <;> trivial
  · exact traces_silent fun _ => log_or_raise_uses _ _ _ _

end

theorem mem_of_getone {w w' : World} {choice : Choice} {message : ConsumerRecord}
    (h : World.perform t .getone choice w = some (.ok message, w')) :
    message ∈ w.topic := by
  rcases World.perform_cases h with ⟨_, _, _, heq, -⟩ | ⟨_, _, _, heq, -⟩ | h
  · cases heq
  · cases heq
  · cases choice <;> try cases h
    simp only [World.answer] at h
    split at h
    next record hrecord =>
      cases h
      exact List.mem_of_getElem? hrecord
    next => cases h

theorem traces_turn (interpreter : Interpreter) :
    Traces settings t (fun _ => True)
      (Consumer.turn interpreter (AnalysisProcessor.process settings))
      fun _ _ => True := by
  have htrivial : Enduring fun _ => True := fun _ h => h
  refine .seq _ (traces_calm htrivial rfl) (fun stop => ?_) fun _ _ _ h => h
  split
  · exact .ret fun _ _ h => h
  refine .bind (fun outcome w => ∀ message, outcome = .ok message →
    message ∈ w.1.topic) (.attempt ?_) fun outcome => ?_
  · refine .call (fun answer w w' hrely _ h message hok =>
      hrely.topic.subset (h message hok)) fun w choice answer w' hw _ h => ?_
    have hguar := Sourced.perform h hw (fun _ _ heq => by cases heq)
      fun _ _ _ _ _ heq => by cases heq
    refine ⟨hguar, ?_⟩
    rintro message rfl
    obtain ⟨hperform, -⟩ := Machine.perform_of_recorded h
    refine (topic_of_perform hperform).subset ?_
    exact mem_of_getone hperform
  cases outcome with
  | error exc =>
      dsimp only
      split
      · exact .ret fun _ _ _ => trivial
      · exact .raise fun _ _ _ => trivial
  | ok message =>
      refine .seq _ (.conseq (traces_handleMessage interpreter message)
        (fun _ _ h => h message rfl) fun _ _ _ h => h) (fun _ => ?_) fun _ _ _ h => h
      exact .seq _ (traces_calm htrivial rfl) (fun _ => .ret fun _ _ h => h)
        fun _ _ _ h => h

/-! ## All schedules -/

theorem Sourced.opened (t : Tid) (entry : Entry) (hw : Sourced w) :
    Sourced ((system settings).recorded.opened t entry w) ∧
      Extends w ((system settings).recorded.opened t entry w) :=
  ⟨⟨hw.asked, hw.pending, hw.rows⟩, List.prefix_refl _, List.suffix_refl _⟩

theorem Sourced.closed (t : Tid) (outcome : Outcome) (hw : Sourced w) :
    Sourced ((system settings).recorded.closed t outcome w) ∧
      Extends w ((system settings).recorded.closed t outcome w) := by
  refine ⟨⟨hw.asked, fun other row hrow => ?_, hw.rows⟩, List.prefix_refl _,
    List.suffix_refl _⟩
  by_cases hother : other = t
  · subst hother
    have hnone : ((w.1.rollback other).db.writes other) = [] := w.1.db.writes_rollback other
    have hmem : .addAnalysis row ∈ (w.1.rollback other).db.writes other := hrow
    rw [hnone] at hmem
    cases hmem
  · refine hw.pending other row ?_
    rw [← (w.1.db.kept_finish w.1.db.committed hother).writes]
    exact hrow

theorem Sourced.external (event : World.External) (hw : Sourced w) :
    Sourced ((system settings).recorded.external event w) ∧
      Extends w ((system settings).recorded.external event w) := by
  have hext : Extends w ((system settings).recorded.external event w) := by
    refine ⟨?_, List.suffix_refl _⟩
    cases event with
    | produce value key => exact List.prefix_append _ _
    | tick | stop => exact List.prefix_refl _
  refine ⟨⟨fun other photoId objectKey answer hmem =>
    (hw.asked other photoId objectKey answer hmem).extend hext, ?_, ?_⟩, hext⟩
  · intro other row hrow
    refine hw.pending other row ?_
    cases event with
    | _ => exact hrow
  · intro row hrow
    refine hw.rows row ?_
    cases event with
    | _ => exact hrow

theorem sources_turn {program : Py (Option Reply)} {P : Chronicled → Prop}
    (h : Traces settings t P program fun _ _ => True) :
    Traces settings t P program
      (sources.TurnPost (system settings).recorded t fun _ => True) := by
  refine h.post ?_
  rintro (exc | (_ | reply)) w hw -
  · exact hw.closed t _
  · trivial
  · exact hw.closed t _

theorem routine_traces (entry : Entry) (w : Chronicled) :
    sources.SafeTask (system settings).recorded t (routine settings entry).first
      (routine settings entry).loop w := by
  have hsafe : ∀ {first loop : Py (Option Reply)},
      Traces settings t (fun _ => True) first (fun _ _ => True) →
      Traces settings t (fun _ => True) loop (fun _ _ => True) →
        sources.SafeTask (system settings).recorded t first loop w :=
    fun hfirst hloop => ⟨fun _ => True, fun _ _ _ _ h => h,
      fun w hw _ => sources_turn hloop w hw trivial,
      fun w' _ hw => sources_turn hfirst w' hw trivial⟩
  have hcalm : DataEffect.ask ∉ entry.effects → DataEffect.insertAnalysis ∉ entry.effects →
      sources.SafeTask (system settings).recorded t (routine settings entry).first
        (routine settings entry).loop w := by
    intro hask hinsert
    obtain ⟨hfirst, hloop⟩ := routine_does settings entry
    exact hsafe (traces_does (fun _ h => h) hfirst hask hinsert)
      (traces_does (fun _ h => h) hloop hask hinsert)
  cases entry with
  | worker =>
      refine hsafe ?_ (traces_turn settings.interpreter)
      exact .seq _ (traces_calm (fun _ h => h) rfl) (fun _ => .ret fun _ _ h => h)
        fun _ _ _ h => h
  | _ => exact hcalm (by simp [Entry.effects]) (by simp [Entry.effects])

theorem system_traces (settings : Settings) :
    sources.Upholds (system settings).recorded (fun _ _ => True) fun _ _ => True where
  idle_steady := fun _ _ _ _ _ h => h
  busy_steady := fun _ _ _ _ _ h => h
  busy_step := fun _ _ _ _ _ _ _ _ => trivial
  start := fun tid entry _ hw _ =>
    ⟨hw.opened tid entry, trivial, routine_traces entry _⟩
  crash := fun tid _ hw _ => hw.closed tid none
  external := fun event _ hw => ⟨(hw.external event).1, fun _ => (hw.external event).2⟩

theorem run_sourced {state : State} {trace : Trace Op Op.Ans PyExc}
    (h : (system settings).Run start state trace) : Sourced (state.world, trace) := by
  have hempty : Sourced (World.initial, ([] : Trace Op Op.Ans PyExc)) := by
    refine ⟨?_, ?_, ?_⟩
    · intro t photoId objectKey answer hmem
      cases hmem
    · intro t row hmem
      cases hmem
    · intro row hmem
      cases hmem
  exact (Discipline.SafePool.leads (system_traces settings)
    (.initial hempty fun _ => trivial) h.recorded).inv

end PhotoAnalysis

import PhotoAnalysis.Guarantees.Photos

/-!
# Where a claimed photo ends

A call of the processor by itself, against a database that is up and an analyzer
that answers what it likes.  What is stored of an outcome has to fit the columns, and
a pause before another attempt has to be a number of seconds; where that fails, the
photo stays in `processing`.
-/

namespace PhotoAnalysis

open Foundation Program

/-! ## The surroundings of a call -/

/--
The outcomes of the analyzer calls in their order, the readings of the clock, and
what the other tasks do between two operations of this one.
-/
structure Surroundings where
  analyzer : Nat → Except PyExc AnalyzePhotoResponse
  clock : Nat → Nat
  others : Nat → World → World

/-- The world, with the analyzer calls and the operations made so far. -/
structure Course where
  world : World
  calls : Nat
  steps : Nat

namespace Course

def goOn (E : Surroundings) (c : Course) (w : World) : Course :=
  { c with world := E.others c.steps w, steps := c.steps + 1 }

end Course

namespace Surroundings

def choice (E : Surroundings) (n : Nat) : Op → Choice
  | .monotonic => .time (E.clock n)
  | _ => .ok

/-- Everything but the analyzer works; an operation that never ends raises. -/
def handler (E : Surroundings) (t : Tid) : Handler Op Op.Ans PyExc Course
  | .analyzePhoto photoId objectKey, c =>
      (E.analyzer c.calls,
        { c.goOn E (c.world.ask photoId objectKey) with calls := c.calls + 1 })
  | op, c =>
      match c.world.answer t op (E.choice c.steps op) with
      | some (answer, w) => (answer, c.goOn E w)
      | none => (.error (.other (py "no answer")), c)

theorem handler_execute (E : Surroundings) {t : Tid} {c : Course} {stmt : Stmt}
    {answer : Except PyExc Nat} {w : World}
    (h : c.world.execute t stmt = some (answer, w)) :
    E.handler t (.execute stmt) c = (answer, c.goOn E w) := by
  simp [handler, choice, World.answer, h]

theorem handler_sleep (E : Surroundings) (t : Tid) (c : Course) (seconds : Rat) :
    E.handler t (.sleep seconds) c =
      if seconds < (floatBound : Rat) then (.ok (), c.goOn E c.world)
      else (.error (.other (py "no answer")), c) := by
  by_cases h : seconds < (floatBound : Rat)
  · simp [handler, choice, World.answer, h]
  · simp [handler, choice, World.answer, h]

end Surroundings

/-! ## The photo while a task works on it -/

/-- A photo of the status, which has a result exactly when it is done. -/
def Tables.HasStatus (tables : Tables) (id : UUID) (status : PhotoStatus) : Prop :=
  (∃ p, tables.photo id = some p ∧ p.status = status) ∧
    ((tables.analysis id).isSome ↔ status = .done)

/--
Task `t` has the open writes `ws`, the committed photo has the status, and no other
task holds the rows a call of the processor writes.
-/
structure Works (t : Tid) (id : UUID) (status : PhotoStatus) (ws : List Write)
    (w : World) : Prop where
  writes : w.db.writes t = ws
  status : w.db.committed.HasStatus id status
  free : w.db.Free t [.photo id, .analysis id]

/-- Other tasks leave the photo and the locks on its rows to task `t`. -/
def Surroundings.Apart (E : Surroundings) (t : Tid) (id : UUID) : Prop :=
  ∀ n status ws w, Works t id status ws w → Works t id status ws (E.others n w)

namespace Works

variable {t : Tid} {id : UUID} {status : PhotoStatus} {ws : List Write} {w : World}

theorem view (h : Works t id status ws w) :
    w.view t = ws.foldl Write.apply w.db.committed := by
  rw [World.view, TxStore.view, h.writes]

theorem free_finish {db : Database} {tables : Tables}
    (h : db.Free t [.photo id, .analysis id]) :
    (db.finish t tables).Free t [.photo id, .analysis id] := by
  intro k hk
  simp only [TxStore.finish]
  split
  · exact .inl rfl
  · exact h k hk

theorem free_write {db : Database} {write : Write} (hfree : db.Free t write.keys)
    (h : db.Free t [.photo id, .analysis id]) :
    (db.write t write hfree).Free t [.photo id, .analysis id] := by
  intro k hk
  simp only [TxStore.write]
  split
  · exact .inr rfl
  · exact h k hk

theorem execute (h : Works t id status ws w) {stmt : Stmt} {write : Write}
    (hresolve : stmt.resolve (w.now t) (w.view t) = .ok (some write))
    (hkeys : ∀ k ∈ write.keys, k = .photo id ∨ k = .analysis id) :
    ∃ w', w.execute t stmt = some (.ok 1, w') ∧
      Works t id status (ws ++ [write]) w' := by
  have hfree : w.db.Free t write.keys := by
    intro k hk
    refine h.free k ?_
    simpa using hkeys k hk
  have hexecute : w.execute t stmt = some (.ok 1,
      { w.begin t with db := w.db.write t write hfree }.note
        (.executed t stmt 1)) := by
    rw [World.execute, hresolve]
    exact dif_pos hfree
  exact ⟨_, hexecute, by simp [World.note, World.begin, h.writes], h.status,
    free_write hfree h.free⟩

/-- The transaction of a statement that raises is lost. -/
theorem execute_error (h : Works t id status ws w) {stmt : Stmt} {exc : PyExc}
    (hresolve : stmt.resolve (w.now t) (w.view t) = .error exc) :
    ∃ w', w.execute t stmt = some (.error exc, w') ∧ Works t id status [] w' := by
  refine ⟨_, by rw [World.execute, hresolve], ?_⟩
  exact ⟨w.db.writes_rollback t, h.status, free_finish h.free⟩

theorem commit (h : Works t id status ws w) {status' : PhotoStatus}
    (hstatus : ∀ tables : Tables, tables.HasStatus id status →
      (ws.foldl Write.apply tables).HasStatus id status') :
    Works t id status' [] (w.commit t) := by
  refine ⟨w.db.writes_commit t, ?_, free_finish h.free⟩
  have hview := hstatus _ h.status
  rw [← h.view] at hview
  exact hview

theorem of_db_eq {w' : World} (h : Works t id status ws w) (hdb : w'.db = w.db) :
    Works t id status ws w' := by
  obtain ⟨hwrites, hstatus, hfree⟩ := h
  exact ⟨by rw [hdb, hwrites], by rw [hdb]; exact hstatus, by rw [hdb]; exact hfree⟩

end Works

namespace Tables.HasStatus

variable {tables : Tables} {id : UUID} {status : PhotoStatus}

theorem set (h : tables.HasStatus id status) {values : PhotoValues}
    (hdone : values.status.getD status = .done ↔ status = .done) :
    (Write.apply tables (.setPhoto id values)).HasStatus id
      (values.status.getD status) := by
  obtain ⟨⟨p, hp, rfl⟩, hanalysis⟩ := h
  refine ⟨⟨p.set values, by simp [hp], rfl⟩, ?_⟩
  rw [analysis_setPhoto, hanalysis, hdone]

/-- The two writes of a response. -/
theorem finish (h : tables.HasStatus id .processing) {row : AnalysisResult}
    (hrow : row.photoId = id) (attempts : Nat) :
    ([.addAnalysis row, .setPhoto id (PhotoRepository.doneValues attempts)].foldl
      Write.apply tables).HasStatus id .done := by
  obtain ⟨⟨p, hp, -⟩, hanalysis⟩ := h
  have hnone : tables.analysis id = none := by simpa using hanalysis
  refine ⟨⟨p.set (PhotoRepository.doneValues attempts), by simp [hp], rfl⟩, ?_⟩
  simp [hnone, hrow]

end Tables.HasStatus

namespace AnalysisProcessor

/-! ## Operations of a call -/

variable {E : Surroundings} {t : Tid} {id : UUID} {status : PhotoStatus}
variable {ws : List Write} {k : Nat}

/-- With `k` analyzer calls made. -/
def Stands (t : Tid) (id : UUID) (status : PhotoStatus) (ws : List Write) (k : Nat)
    (c : Course) : Prop :=
  Works t id status ws c.world ∧ c.calls = k

theorem Stands.goOn (hE : E.Apart t id) {c : Course} {w : World}
    (hcalls : c.calls = k) (hw : Works t id status ws w) :
    Stands t id status ws k (c.goOn E w) :=
  ⟨hE _ _ _ _ hw, hcalls⟩

theorem ends_wait (hE : E.Apart t id) {status' : PhotoStatus} {ws' : List Write}
    {op : Op} {α : Type} {next : op.Ans → Py α} {Q : Except PyExc α → Course → Prop}
    (h : ∀ c, Works t id status ws c.world → ∃ value w,
      E.handler t op c = (.ok value, c.goOn E w) ∧ Works t id status' ws' w)
    (hnext : ∀ value, Ends (E.handler t) (Stands t id status' ws' k) (next value) Q) :
    Ends (E.handler t) (Stands t id status ws k) ((wait op).bind next) Q := by
  refine .bind (fun _ => Stands t id status' ws' k) (.call ?_) hnext
  rintro c ⟨hw, hcalls⟩
  obtain ⟨value, w, hhandler, hw'⟩ := h c hw
  rw [hhandler]
  exact .goOn hE hcalls hw'

theorem ends_count (hE : E.Apart t id) {metric : Metric} {amount : Int} {α : Type}
    {next : Unit → Py α} {Q : Except PyExc α → Course → Prop}
    (hnext : Ends (E.handler t) (Stands t id status ws k) (next ()) Q) :
    Ends (E.handler t) (Stands t id status ws k)
      ((wait (.count metric amount)).bind next) Q :=
  ends_wait hE (fun _ hw => ⟨(), _, rfl, hw.of_db_eq rfl⟩) fun _ => hnext

theorem ends_commit (hE : E.Apart t id) {status' : PhotoStatus} {α : Type}
    {next : Unit → Py α} {Q : Except PyExc α → Course → Prop}
    (hstatus : ∀ tables : Tables, tables.HasStatus id status →
      (ws.foldl Write.apply tables).HasStatus id status')
    (hnext : Ends (E.handler t) (Stands t id status' [] k) (next ()) Q) :
    Ends (E.handler t) (Stands t id status ws k) ((wait .commit).bind next) Q :=
  ends_wait hE (fun _ hw => ⟨(), _, rfl, hw.commit hstatus⟩) fun _ => hnext

/-- The values of an update of the photo either fit, or the transaction is lost. -/
theorem ends_update (hE : E.Apart t id) {guard : Option PhotoStatus}
    {values : PhotoValues} {α : Type} {next : Nat → Py α}
    {Q : Except PyExc α → Course → Prop}
    (hphoto : ∀ tables : Tables,
      (ws.foldl Write.apply tables).photo id = tables.photo id)
    (hguard : guard.all (status = ·))
    (hfits : values.fits = true → Ends (E.handler t)
      (Stands t id status (ws ++ [.setPhoto id values]) k) (next 1) Q)
    (hmisfit : ¬values.fits = true → ∀ exc c,
      Stands t id status [] k c → Q (.error exc) c) :
    Ends (E.handler t) (Stands t id status ws k)
      ((wait (.execute (.updatePhoto id guard values))).bind next) Q := by
  have hresolve : ∀ w, Works t id status ws w →
      (Stmt.updatePhoto id guard values).resolve (w.now t) (w.view t) =
        if values.fits then .ok (some (.setPhoto id values)) else .error Stmt.tooLong := by
    intro w hw
    obtain ⟨⟨p, hp, rfl⟩, -⟩ := hw.status
    have hview : (w.view t).photo id = some p := by rw [hw.view, hphoto, hp]
    simp only [Stmt.resolve, hview, hguard, if_true]
    cases hstorable : values.storable <;> simp [PhotoValues.fits, hstorable]
  cases h : values.fits with
  | true =>
      simp only [h, if_true] at hresolve
      refine .bind (fun rowcount c => rowcount = 1 ∧
        Stands t id status (ws ++ [.setPhoto id values]) k c) (.call ?_) ?_
      · rintro c ⟨hw, hcalls⟩
        obtain ⟨w, hexecute, hw'⟩ := hw.execute (hresolve _ hw) (by simp [Write.keys])
        rw [E.handler_execute hexecute]
        exact ⟨rfl, .goOn hE hcalls hw'⟩
      · rintro rowcount c ⟨rfl, hc⟩
        exact hfits h c hc
  | false =>
      simp only [h, Bool.false_eq_true, if_false] at hresolve
      rintro c ⟨hw, hcalls⟩
      obtain ⟨w, hexecute, hw'⟩ := hw.execute_error (hresolve _ hw)
      rw [run_bind, run_call, E.handler_execute hexecute]
      exact hmisfit (Bool.eq_false_iff.mp h) _ _ (.goOn hE hcalls hw')

theorem ends_insert (hE : E.Apart t id) {response : AnalyzePhotoResponse} {α : Type}
    {next : Nat → Py α} {Q : Except PyExc α → Course → Prop}
    (hfits : Column.fits 64 response.perceptualHash = true →
      ∀ row : AnalysisResult, row.photoId = id → Ends (E.handler t)
        (Stands t id .processing [.addAnalysis row] k) (next 1) Q)
    (hmisfit : ¬Column.fits 64 response.perceptualHash = true → ∀ exc c,
      Stands t id .processing [] k c → Q (.error exc) c) :
    Ends (E.handler t) (Stands t id .processing [] k)
      ((wait (.execute (.insertAnalysis id response.facesCount response.isBlurred
        response.blurScore response.perceptualHash))).bind next) Q := by
  rintro c ⟨hw, hcalls⟩
  obtain ⟨⟨p, hp, -⟩, hanalysis⟩ := hw.status
  have hnone : (c.world.view t).analysis id = none := by
    rw [hw.view]
    simpa using hanalysis
  have hphoto : (c.world.view t).photo id = some p := by
    rw [hw.view]
    exact hp
  rw [run_bind, run_call]
  by_cases hhash : Column.fits 64 response.perceptualHash = true
  · have hresolve : (Stmt.insertAnalysis id response.facesCount response.isBlurred
        response.blurScore response.perceptualHash).resolve (c.world.now t)
        (c.world.view t) = .ok (some (.addAnalysis ⟨id, response.facesCount,
          response.isBlurred, response.blurScore,
          Column.cut 64 response.perceptualHash, c.world.now t⟩)) := by
      simp [Stmt.resolve, hhash, hnone, hphoto]
    obtain ⟨w, hexecute, hw'⟩ := hw.execute hresolve (by simp [Write.keys])
    rw [E.handler_execute hexecute]
    exact hfits hhash _ rfl _ (.goOn hE hcalls hw')
  · have hresolve : (Stmt.insertAnalysis id response.facesCount response.isBlurred
        response.blurScore response.perceptualHash).resolve (c.world.now t)
        (c.world.view t) = .error Stmt.tooLong := by
      simp [Stmt.resolve, hhash]
    obtain ⟨w, hexecute, hw'⟩ := hw.execute_error hresolve
    rw [E.handler_execute hexecute]
    exact hmisfit hhash _ _ (.goOn hE hcalls hw')

/-! ## What has to fit -/

def Retried (outcome : Except PyExc AnalyzePhotoResponse) : Prop :=
  ∃ exc, outcome = .error exc ∧ AnalyzerGrpcClient.classifyGrpcError exc = .retry

/-- The hash of a response, or the message kept of an error, fits its column. -/
def Storable : Except PyExc AnalyzePhotoResponse → Prop
  | .ok response => Column.fits 64 response.perceptualHash = true
  | .error exc =>
      Column.storable (AnalyzerGrpcClient.truncateErrorMessage exc.text
        AnalyzerGrpcClient.maxErrorMessageLength) = true

/-- The pause after this attempt is a number of seconds, and a finite one. -/
def Pauses (base : Rat) (attempt : Nat) : Prop :=
  attempt ≤ floatExponents ∧ base * 2 ^ (attempt - 1) < (floatBound : Rat)

/--
The next `turns` turns, from call `k` on, come only to outcomes that can be stored and
to pauses that end.
-/
def Bearable (base : Rat) (E : Surroundings) (k turns : Nat) : Prop :=
  ∀ i < turns, (∀ j < i, Retried (E.analyzer (k + j))) →
    Storable (E.analyzer (k + i)) ∧
      (Retried (E.analyzer (k + i)) → i + 1 < turns → Pauses base (k + i + 1))

section

variable {base : Rat}

theorem bearable_zero : Bearable base E k 0 :=
  fun _ hi => absurd hi (Nat.not_lt_zero _)

theorem bearable_succ {turns : Nat} :
    Bearable base E k (turns + 1) ↔ Storable (E.analyzer k) ∧
      (Retried (E.analyzer k) →
        (0 < turns → Pauses base (k + 1)) ∧ Bearable base E (k + 1) turns) := by
  constructor
  · intro h
    obtain ⟨hstorable, hpause⟩ :=
      h 0 (Nat.succ_pos _) fun j hj => absurd hj (Nat.not_lt_zero _)
    refine ⟨hstorable, fun hfirst => ⟨fun hturns => ?_, fun i hi hretried => ?_⟩⟩
    · exact hpause hfirst (Nat.succ_lt_succ hturns)
    · have hturn := h (i + 1) (Nat.succ_lt_succ hi) fun j hj => ?_
      · rw [Nat.add_right_comm]
        exact ⟨hturn.1, fun hagain hmore => hturn.2 hagain (Nat.succ_lt_succ hmore)⟩
      · cases j with
        | zero => exact hfirst
        | succ j =>
            have hj' := hretried j (Nat.lt_of_succ_lt_succ hj)
            rwa [Nat.add_right_comm] at hj'
  · rintro ⟨hfirst, hrest⟩ i hi hretried
    cases i with
    | zero =>
        exact ⟨hfirst, fun hagain hmore =>
          (hrest hagain).1 (Nat.lt_of_succ_lt_succ hmore)⟩
    | succ i =>
        have hturn := (hrest (hretried 0 (Nat.succ_pos _))).2 i
          (Nat.lt_of_succ_lt_succ hi) fun j hj => ?_
        · rw [Nat.add_right_comm] at hturn
          exact ⟨hturn.1, fun hagain hmore =>
            hturn.2 hagain (Nat.lt_of_succ_lt_succ hmore)⟩
        · have hj' := hretried (j + 1) (Nat.succ_lt_succ hj)
          rwa [Nat.add_right_comm]

/-- The pause before the next attempt. -/
theorem ends_pause (hE : E.Apart t id) {attempt : Nat} (hattempt : 0 < attempt) {α : Type}
    {next : Unit → Py α} {Q : Except PyExc α → Course → Prop}
    (hpauses : Pauses base attempt →
      Ends (E.handler t) (Stands t id status ws k) (next ()) Q)
    (hstuck : ¬Pauses base attempt → ∀ exc c, Stands t id status ws k c →
      Q (.error exc) c) :
    Ends (E.handler t) (Stands t id status ws k)
      ((Program.ofExcept (backoff base attempt)).bind fun delay =>
        (wait (.sleep delay)).bind next) Q := by
  unfold backoff
  split
  next hfloat =>
    by_cases hdelay : base * 2 ^ (attempt - 1) < (floatBound : Rat)
    · refine ends_wait hE (fun c hw => ⟨(), _, ?_, hw⟩) fun _ => hpauses ⟨by omega, hdelay⟩
      rw [E.handler_sleep, if_pos hdelay]
    · intro c hc
      rw [Program.ofExcept, ret_bind, run_bind, run_call, E.handler_sleep, if_neg hdelay]
      exact hstuck (fun hpauses => hdelay hpauses.2) _ c hc
  next hfloat =>
    intro c hc
    refine hstuck (fun hpauses => hfloat ?_) _ c hc
    have hle := hpauses.1
    omega

end

/-- The columns hold what the terminal write takes from the loop. -/
def Progress.Savable (progress : Progress) : Prop :=
  match progress.response with
  | some response => Column.fits 64 response.perceptualHash = true
  | none =>
      Column.fits 64 progress.lastCode = true ∧
        Column.storable progress.lastMessage = true

theorem start_savable : Progress.start.Savable := by
  constructor <;> decide

theorem holds_errorCode (exc : PyExc) :
    Column.holds 64 (AnalyzerGrpcClient.errorCodeFromException exc) = true := by
  have hname : ∀ status : GrpcStatus, Column.holds 64 status.name = true := by
    intro status
    cases status <;> decide
  have htimeout : Column.holds 64 (py "TIMEOUT") = true := by decide
  have hunknown : Column.holds 64 (py "UNKNOWN") = true := by decide
  cases exc with
  | rpc status text => exact hname status
  | timeout text => exact htimeout
  | _ => exact hunknown

theorem fail_savable {attempt : Nat} {exc : PyExc} :
    (Progress.fail attempt exc).Savable ↔ Storable (.error exc) :=
  and_iff_right (Column.fits_of_holds (holds_errorCode exc))

theorem storable_of_fits {n : Nat} {s : Str} (h : Column.fits n s = true) :
    Column.storable s = true :=
  ((Bool.and_eq_true _ _).mp h).1

theorem fits_error {values : PhotoValues} {code message : Str}
    (hcode : values.lastErrorCode = some (some code))
    (hmessage : values.lastErrorMessage = some (some message)) :
    values.fits = true ↔
      Column.fits 64 code = true ∧ Column.storable message = true := by
  simp only [PhotoValues.fits, PhotoValues.storable, hcode, hmessage, Option.bind_some,
    id_eq, Option.all_some, Bool.and_eq_true]
  constructor
  · rintro ⟨⟨-, hstorable⟩, hfits⟩
    exact ⟨hfits, hstorable⟩
  · rintro ⟨hfits, hstorable⟩
    exact ⟨⟨storable_of_fits hfits, hstorable⟩, hfits⟩

theorem fits_recorded {attempt : Nat} {exc : PyExc} :
    (PhotoRepository.attemptValues (Progress.fail attempt exc).attempts
      (Progress.fail attempt exc).lastCode
      (Progress.fail attempt exc).lastMessage).fits = true ↔
        Storable (.error exc) :=
  (fits_error rfl rfl).trans fail_savable

/-! ## The call -/

variable {settings : Settings} {photoId objectKey : Str}

/-- The call returns and the photo is terminal. -/
def Settled (id : UUID) (outcome : Except PyExc Unit) (c : Course) : Prop :=
  outcome = .ok () ∧ ∃ p, c.world.db.committed.photo id = some p ∧
    (p.status = .done ∨ p.status = .failed)

/-- The call raises and the photo stays claimed. -/
def Stuck (id : UUID) (outcome : Except PyExc Unit) (c : Course) : Prop :=
  (∃ exc, outcome = .error exc) ∧
    ∃ p, c.world.db.committed.photo id = some p ∧ p.status = .processing

theorem stuck_of_stands {exc : PyExc} {c : Course}
    (h : Stands t id .processing [] k c) : Stuck id (.error exc) c :=
  ⟨⟨exc, rfl⟩, h.1.status.1⟩

theorem settled_of_stands {c : Course} (h : Stands t id status [] k c)
    (hstatus : status = .done ∨ status = .failed) : Settled id (.ok ()) c := by
  obtain ⟨p, hp, rfl⟩ := h.1.status.1
  exact ⟨rfl, p, hp, hstatus⟩

theorem ends_settled (hE : E.Apart t id) {metric : Metric} {amount : Int}
    (hstatus : status = .done ∨ status = .failed) :
    Ends (E.handler t) (Stands t id status [] k) (wait (.count metric amount))
      (Settled id) :=
  .call fun _ hc =>
    settled_of_stands (.goOn hE hc.2 (hc.1.of_db_eq rfl)) hstatus

theorem retryLoop_ends (hE : E.Apart t id)
    (hexc : ∀ n exc, E.analyzer n = .error exc → exc.isException = true)
    {remaining attempt : Nat}
    (hturns : 0 < remaining →
      (attempt + remaining : Int) = settings.workerMaxAttempts + 1)
    (hattempt : attempt = k + 1) {progress : Progress} (hresponse : progress.response = none)
    (hsavable : progress.Savable) :
    Ends (E.handler t) (Stands t id .processing [] k)
      (retryLoop settings photoId objectKey id remaining attempt progress)
      fun outcome c => match outcome with
        | .ok progress => (∃ k', Stands t id .processing [] k' c) ∧
            (progress.Savable ↔
              Bearable settings.retryBackoffBaseSeconds E k remaining)
        | .error exc => Stuck id (.error exc) c ∧
            ¬Bearable settings.retryBackoffBaseSeconds E k remaining := by
  induction remaining generalizing attempt progress k with
  | zero => exact .ret fun c hc => ⟨⟨k, hc⟩, iff_of_true hsavable bearable_zero⟩
  | succ remaining ih =>
      refine .bind (fun outcome c => outcome = E.analyzer k ∧
        Stands t id .processing [] (k + 1) c) (.attempt (.call ?_)) fun outcome => ?_
      · rintro c ⟨hw, rfl⟩
        exact ⟨rfl, hE _ _ _ _ (hw.of_db_eq rfl), rfl⟩
      refine .given fun houtcome => ?_
      rw [bearable_succ, ← houtcome]
      cases outcome with
      | ok response =>
          refine .ret fun c hc => ⟨⟨k + 1, hc⟩, ?_⟩
          refine (and_iff_left fun hretried => ?_).symm
          obtain ⟨exc, hraises, -⟩ := hretried
          cases hraises
      | error exc =>
          have hisException := hexc k exc houtcome.symm
          simp only [hisException, Bool.not_true, Bool.false_eq_true, if_false,
            PhotoRepository.recordAttempt, bind_eq, bind_assoc, pure_eq_ret, ret_bind]
          refine ends_count hE (ends_update hE (fun _ => rfl) rfl ?_ ?_)
          · intro hfits
            have hstorable : Storable (.error exc) := fits_recorded.mp hfits
            refine ends_commit hE (fun _ hstatus =>
              (hstatus.set Iff.rfl : Tables.HasStatus _ id .processing)) ?_
            split
            next hlast =>
              refine .ret fun c hc => ⟨⟨_, hc⟩, ?_⟩
              refine iff_of_true (fail_savable.mpr hstorable) ⟨hstorable, ?_⟩
              rintro ⟨exc', hraises, hretry⟩
              obtain rfl := Except.error.inj hraises
              rcases hlast with hdecision | hattempt
              · exact absurd (hdecision.symm.trans hretry) (by decide)
              · have hlast := hturns (Nat.succ_pos _)
                obtain rfl : remaining = 0 := by omega
                exact ⟨fun h => absurd h (Nat.lt_irrefl 0), bearable_zero⟩
            next hlast =>
              have hretried : Retried (.error exc) := by
                refine ⟨exc, rfl, ?_⟩
                cases hdecision : AnalyzerGrpcClient.classifyGrpcError exc with
                | retry => rfl
                | noRetry => exact absurd (.inl hdecision) hlast
              have hnext : 0 < remaining → ((attempt + 1 : Nat) + remaining : Int) =
                  settings.workerMaxAttempts + 1 := by
                have hturn := hturns (Nat.succ_pos _)
                intro
                push_cast at hturn ⊢
                omega
              have hmore : 0 < remaining := by
                have hturn := hturns (Nat.succ_pos _)
                by_contra hzero
                exact hlast (.inr (by omega))
              subst hattempt
              refine ends_pause hE (Nat.succ_pos _) (fun hpauses => ?_)
                fun hendless exc' c hc => ⟨stuck_of_stands hc, fun hall => ?_⟩
              · simpa [hstorable, hretried, hpauses] using
                  ih hnext rfl rfl (fail_savable.mpr hstorable)
              · exact hendless ((hall.2 hretried).1 hmore)
          · intro hmisfit exc' c hc
            exact ⟨stuck_of_stands hc, fun hall => hmisfit (fits_recorded.mpr hall.1)⟩

theorem terminalWrite_ends (hE : E.Apart t id) {progress : Progress} :
    Ends (E.handler t) (Stands t id .processing [] k) (terminalWrite id progress)
      fun outcome c => (progress.Savable → Settled id outcome c) ∧
        (¬progress.Savable → Stuck id outcome c) := by
  unfold terminalWrite Progress.Savable
  cases progress.response with
  | some response =>
      simp only [AnalysisResultRepository.upsert, PhotoRepository.markDone, bind_eq,
        bind_assoc, pure_eq_ret, ret_bind]
      refine ends_insert hE (fun hfits row hrow => ?_) ?_
      · refine ends_update hE (fun _ => rfl) rfl (fun _ => ?_)
          fun hmisfit => absurd rfl hmisfit
        refine ends_commit hE (fun _ hstatus => hstatus.finish hrow _) ?_
        refine ends_count hE ((ends_settled hE (.inl rfl)).post fun outcome c hc => ?_)
        exact ⟨fun _ => hc, fun hmisfit => absurd hfits hmisfit⟩
      · intro hmisfit exc c hc
        exact ⟨fun hfits => absurd hfits hmisfit, fun _ => stuck_of_stands hc⟩
  | none =>
      simp only [PhotoRepository.markFailed, bind_eq, bind_assoc, pure_eq_ret, ret_bind]
      refine ends_update hE (fun _ => rfl) rfl (fun hfits => ?_) ?_
      · refine ends_commit hE (fun _ hstatus =>
          (hstatus.set (by simp [PhotoRepository.failedValues]) :
            Tables.HasStatus _ id .failed)) ?_
        refine ends_count hE ((ends_settled hE (.inr rfl)).post fun outcome c hc => ?_)
        exact ⟨fun _ => hc, fun hmisfit =>
          absurd ((fits_error rfl rfl).mp hfits) hmisfit⟩
      · intro hmisfit exc c hc
        exact ⟨fun hfits => absurd ((fits_error rfl rfl).mpr hfits) hmisfit,
          fun _ => stuck_of_stands hc⟩

/-- A won claim comes to an end exactly when all it comes to can be borne. -/
theorem process_ends (hparse : UUID.parse photoId = some id) (hE : E.Apart t id)
    (hexc : ∀ n exc, E.analyzer n = .error exc → exc.isException = true) :
    Ends (E.handler t) (Stands t id .pending [] 0) (process settings photoId objectKey)
      fun outcome c =>
        (Bearable settings.retryBackoffBaseSeconds E 0 settings.workerMaxAttempts.toNat →
          Settled id outcome c) ∧
        (¬Bearable settings.retryBackoffBaseSeconds E 0 settings.workerMaxAttempts.toNat →
          Stuck id outcome c) := by
  unfold process
  simp only [hparse, PhotoRepository.claimForProcessing, PhotoRepository.claimStmt,
    bind_eq]
  refine ends_update hE (fun _ => rfl) rfl (fun _ => ?_)
    fun hmisfit => absurd rfl hmisfit
  refine ends_commit hE (fun _ hstatus =>
    (hstatus.set (by simp) : Tables.HasStatus _ id .processing)) ?_
  rw [if_neg Nat.one_ne_zero]
  unfold analyzeClaimed
  simp only [bind_eq]
  refine ends_count hE (ends_wait hE
    (fun _ hw => ⟨_, _, rfl, hw.of_db_eq rfl⟩) fun t0 => ?_)
  have hturns : 0 < settings.workerMaxAttempts.toNat →
      ((1 : Nat) + settings.workerMaxAttempts.toNat : Int) =
        settings.workerMaxAttempts + 1 := by omega
  refine .bind (fun progress c => (∃ k', Stands t id .processing [] k' c) ∧
      (progress.Savable ↔ Bearable settings.retryBackoffBaseSeconds E 0
        settings.workerMaxAttempts.toNat))
    ((retryLoop_ends hE hexc hturns rfl rfl start_savable).post ?_) fun progress => ?_
  · rintro (exc | progress) c hc
    · exact ⟨fun hall => absurd hall hc.2, fun _ => hc.1⟩
    · exact hc
  · rintro c ⟨⟨k', hc⟩, hsavable⟩
    rw [← hsavable]
    suffices hwrite : Ends (E.handler t) (Stands t id .processing [] k') _
        fun outcome c => (progress.Savable → Settled id outcome c) ∧
          (¬progress.Savable → Stuck id outcome c) from hwrite c hc
    refine ends_wait hE (fun _ hw => ⟨_, _, rfl, hw.of_db_eq rfl⟩) fun t1 => ?_
    exact ends_count hE (terminalWrite_ends hE)

theorem not_settled_of_stuck {outcome : Except PyExc Unit} {c : Course}
    (h : Stuck id outcome c) : ¬Settled id outcome c := by
  obtain ⟨⟨exc, rfl⟩, -⟩ := h
  rintro ⟨hreturns, -⟩
  cases hreturns

/-- How the call ends that finds the photo in world `w`. -/
def SettledBy (E : Surroundings) (t : Tid) (settings : Settings)
    (photoId objectKey : Str) (id : UUID) (w : World) : Prop :=
  Settled id ((process settings photoId objectKey).run (E.handler t) ⟨w, 0, 0⟩).1
    ((process settings photoId objectKey).run (E.handler t) ⟨w, 0, 0⟩).2

theorem not_settledBy {w : World} (hparse : UUID.parse photoId = some id)
    (hw : Works t id .pending [] w) (hE : E.Apart t id)
    (hexc : ∀ n exc, E.analyzer n = .error exc → exc.isException = true)
    (h : ¬Bearable settings.retryBackoffBaseSeconds E 0
      settings.workerMaxAttempts.toNat) :
    ¬SettledBy E t settings photoId objectKey id w :=
  not_settled_of_stuck ((process_ends hparse hE hexc ⟨w, 0, 0⟩ ⟨hw, rfl⟩).2 h)

/-- An analyzer that always gives the same answer, and no other tasks. -/
def alone (outcome : Except PyExc AnalyzePhotoResponse) : Surroundings where
  analyzer := fun _ => outcome
  clock := fun n => n
  others := fun _ w => w

theorem alone_apart {outcome : Except PyExc AnalyzePhotoResponse} :
    (alone outcome).Apart t id :=
  fun _ _ _ _ h => h

theorem alone_never {answer : AnalyzePhotoResponse} (n : Nat) (exc : PyExc)
    (h : (alone (.ok answer)).analyzer n = .error exc) : exc.isException = true := by
  cases h

theorem uploads_works : ∃ state, Reachable defaultSettings state ∧
    Works 5 jpegId .pending [] state.world := by
  obtain ⟨state, hreach, hwrites, hphoto, hanalysis, hfree⟩ := reachable_of_any
    defaultSettings uploads
    (P := fun state => state.world.db.writes 5 = [] ∧
      (state.world.db.committed.photo jpegId).map Photo.status = some .pending ∧
      state.world.db.committed.analysis jpegId = none ∧
      state.world.db.Free 5 [.photo jpegId, .analysis jpegId]) (by decide +kernel)
  refine ⟨state, hreach, hwrites, ⟨?_, ?_⟩, hfree⟩
  · simpa using hphoto
  · simp [hanalysis]

/-- A hash one character longer than its column. -/
def longHash : AnalyzePhotoResponse := ⟨1, false, 0#64, List.replicate 65 97⟩

end AnalysisProcessor

end PhotoAnalysis

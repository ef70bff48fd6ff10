import PhotoAnalysis.Foundation.Protocol
import PhotoAnalysis.Ledger.Chronicle
import PhotoAnalysis.Refinement.Footprints

/-!
# What a worker counts

The counters of a worker against the history of its transactions.  A worker
follows a protocol in which every commit leaves behind the counts that are due
for it.
-/

namespace PhotoAnalysis

open Foundation Program PhotoRepository

/-! ## Counters -/

/-- The labels `reason` of `photo_analysis_failed_total`. -/
def failureReasons : List Str := [py "no_retry", py "retries_exhausted"]

/-- The sum over reasons of `photo_analysis_failed_total`. -/
def failedTotal (counters : Metric → Int) : Int :=
  (failureReasons.map fun reason => counters (.photoAnalysisFailedTotal reason)).sum

/-- What the counters of a worker are meant to show. -/
inductive Gauge where
  | started
  | completed
  | failed
  | handledDone
  | handledFailed
  | handledSkipped
  deriving DecidableEq, Repr

def Gauge.metrics : Gauge → List Metric
  | started => [.photoAnalysisStartedTotal]
  | completed => [.photoAnalysisCompletedTotal]
  | failed => failureReasons.map .photoAnalysisFailedTotal
  | handledDone => [.workerMessagesProcessedTotal (py "done")]
  | handledFailed => [.workerMessagesProcessedTotal (py "failed")]
  | handledSkipped => [.workerMessagesProcessedTotal (py "skipped")]

def Gauge.read (counters : Metric → Int) (gauge : Gauge) : Int :=
  (gauge.metrics.map counters).sum

/-- No gauge is read off this metric. -/
def Metric.untracked : Metric → Bool
  | photoAnalysisDurationSeconds | analyzerGrpcErrorsTotal _ => true
  | _ => false

/-! ## The history of one task -/

def Event.tid : Event → Tid
  | executed tid _ _ | committed tid _ | raised tid _ _ _ => tid

/-- A claim that updated no row. -/
def Event.isMiss : Event → Bool
  | executed _ (.updatePhoto id status values) rowcount =>
      Stmt.updatePhoto id status values = claimStmt id && rowcount = 0
  | _ => false

def Event.isCommit : Event → Bool
  | committed _ _ => true
  | _ => false

/-- The last thing task `t` did was a claim that updated no row. -/
def missed (t : Tid) : List Event → Bool
  | [] => false
  | event :: events => if event.tid = t then event.isMiss else missed t events

/-- How many claims of task `t` updated no row and committed. -/
def skips (t : Tid) : List Event → Nat
  | [] => 0
  | event :: events => skips t events +
      if event.tid = t ∧ event.isCommit ∧ missed t events then 1 else 0

/-- What the history says a gauge should show. -/
def tally (t : Tid) (events : List Event) : Gauge → Nat
  | .started => (broughtBy t .processing events).length
  | .completed | .handledDone => (broughtBy t .done events).length
  | .failed | .handledFailed => (broughtBy t .failed events).length
  | .handledSkipped => skips t events

/-! ## The protocol -/

/-- How far a worker has come with a message. -/
inductive Phase where
  | idle
  /-- its claim has updated no row -/
  | missed
  | matched (id : UUID)
  /-- it owns the photo -/
  | working (id : UUID)
  /-- its transaction brings the photo to `status` -/
  | ending (id : UUID) (status : PhotoStatus)
  /-- what it has committed is still to be counted -/
  | counting (due : List Gauge) (owned : Option UUID)
  /-- an exception is on its way out -/
  | leaving
  deriving DecidableEq, Repr

namespace Phase

def due : Phase → List Gauge
  | counting gauges _ => gauges
  | _ => []

/-- After the counts that are due. -/
def count (gauges : List Gauge) (owned : Option UUID) : Phase :=
  match gauges, owned with
  | [], some id => working id
  | [], none => idle
  | gauges, owned => counting gauges owned

/-- What a commit leaves to be counted. -/
def commit : Phase → Phase
  | missed => counting [.handledSkipped] none
  | matched id => counting [.started] (some id)
  | ending _ .done => counting [.completed, .handledDone] none
  | ending _ .failed => counting [.failed, .handledFailed] none
  | phase => phase

def commits : Phase → Bool
  | missed | matched _ | working _ | ending _ _ => true
  | _ => false

/-- The session can be closed. -/
def closes : Phase → Bool
  | idle | working _ | leaving => true
  | _ => false

end Phase

/-- A statement about the photo by its owner. -/
inductive Stmt.Own (id : UUID) : Stmt → Prop
  | update (values : PhotoValues) (h : ∀ status ∈ values.status, status.terminal) :
      Own id (.updatePhoto id none values)
  | insert (faces : Int) (blurred : Bool) (score : Double) (hash : Str) :
      Own id (.insertAnalysis id faces blurred score hash)

namespace Phase

/-- The photo's status and the rowcount tell where a statement leads. -/
def execute (stmt : Stmt) (rowcount : Nat) : Phase → Option Phase
  | idle =>
      match stmt with
      | .updatePhoto id _ _ => some (if rowcount = 0 then missed else matched id)
      | _ => none
  | working id =>
      match stmt with
      | .updatePhoto _ _ values =>
          match values.status with
          | some status => if rowcount = 0 then none else some (ending id status)
          | none => some (working id)
      | _ => some (working id)
  | _ => none

def allowed (phase : Phase) : Op → Prop
  | .execute stmt => phase = idle ∧ (∃ id, stmt = claimStmt id) ∨
      ∃ id, phase = working id ∧ stmt.Own id
  | .commit => phase.commits
  | .close => phase.closes
  | .count metric amount => metric.untracked ∧ (∃ id, phase = working id) ∨
      amount = 1 ∧ ∃ gauge due owned, phase = counting (gauge :: due) owned ∧
        metric ∈ gauge.metrics
  | .stopIsSet | .getone | .commitOffset | .startConsumer => phase = idle
  | .setTraceId _ | .monotonic | .sleep _ | .analyzePhoto _ _ => phase.closes
  | _ => False

def next (phase : Phase) : (op : Op) → Except PyExc op.Ans → Option Phase
  | .execute stmt, .ok rowcount => phase.execute stmt rowcount
  | .execute _, .error _ => some leaving
  | .commit, .ok _ => some phase.commit
  | .commit, .error _ => some leaving
  | .close, _ => some idle
  | .count _ _, .ok _ =>
      match phase with
      | counting (_ :: due) owned => some (count due owned)
      | phase => some phase
  | .count _ _, .error _ | .monotonic, .error _ | .setTraceId _, .error _ => none
  | _, _ => some phase

end Phase

/-- How a worker goes about a message. -/
def workerProtocol : Protocol Op Op.Ans PyExc Phase := ⟨Phase.allowed, Phase.next⟩

/-! ## The worker follows the protocol -/

section

variable {settings : Settings} {id : UUID}

/-- A call that returns has left nothing behind; one that raises has its session open. -/
def Phase.Left {α : Type} : Except PyExc α → Phase → Prop
  | .ok _, phase => phase = .idle
  | .error _, phase => phase.closes

/-- Within the work on a photo. -/
def Phase.Works {α : Type} (id : UUID) : Except PyExc α → Phase → Prop
  | .ok _, phase => phase = .working id
  | .error _, phase => phase.closes

theorem works_bind {α β : Type} (id : UUID) {program : Py α} {next : α → Py β} {phase : Phase}
    {post : Except PyExc β → Phase → Prop}
    (h : program.Follows workerProtocol (Phase.Works id) phase)
    (hnext : ∀ value, (next value).Follows workerProtocol post (.working id))
    (herror : ∀ exc phase, phase.closes → post (.error exc) phase) :
    (program.bind next).Follows workerProtocol post phase := by
  refine Follows.bind (fun _ phase' => phase' = .working id) (h.mono ?_) ?_
  · rintro (exc | value) phase' hphase
    · exact herror exc phase' hphase
    · exact hphase
  · rintro value phase' rfl
    exact hnext value

/-- A statement of the owner's that leaves the status alone. -/
theorem execute_works {stmt : Stmt} (hown : stmt.Own id)
    (h : ∀ rowcount, Phase.execute stmt rowcount (.working id) = some (.working id)) :
    (wait (.execute stmt)).Follows workerProtocol (Phase.Works id) (.working id) := by
  refine Follows.call (.inr ⟨id, rfl, hown⟩) ?_
  rintro (exc | rowcount) phase' hnext
  · cases Option.some.inj hnext
    rfl
  · exact (Option.some.inj ((h rowcount).symm.trans hnext)).symm

theorem commit_works : (wait .commit).Follows workerProtocol (Phase.Works id)
    (.working id) := by
  refine Follows.call rfl ?_
  rintro (exc | value) phase' hnext <;> cases Option.some.inj hnext <;> rfl

/-- What is neither counted nor part of a transaction. -/
theorem aside_works {op : Op} (hallowed : Phase.allowed (.working id) op)
    (hnext : ∀ answer phase', Phase.next (.working id) op answer = some phase' →
      phase' = .working id) :
    (wait op).Follows workerProtocol (Phase.Works id) (.working id) := by
  refine Follows.call hallowed ?_
  rintro (exc | value) phase' h <;> cases hnext _ _ h <;> rfl

theorem untracked_works {metric : Metric} {amount : Int} (h : metric.untracked) :
    (wait (.count metric amount)).Follows workerProtocol (Phase.Works id)
      (.working id) := by
  refine aside_works (.inl ⟨h, id, rfl⟩) ?_
  rintro (exc | value) phase' hnext
  · cases hnext
  · exact (Option.some.inj hnext).symm

/-- The count that is due next. -/
theorem count_bind {β : Type} {metric : Metric} {gauge : Gauge} {gauges : List Gauge}
    {owned : Option UUID} {next : Unit → Py β} {post : Except PyExc β → Phase → Prop}
    (hmetric : metric ∈ gauge.metrics)
    (hnext : (next ()).Follows workerProtocol post (.count gauges owned)) :
    ((wait (.count metric 1)).bind next).Follows workerProtocol post
      (.counting (gauge :: gauges) owned) := by
  refine ⟨.inr ⟨rfl, gauge, gauges, owned, rfl, hmetric⟩, ?_⟩
  rintro (exc | value) phase' h
  · cases h
  · cases Option.some.inj h
    exact hnext

/-- The last count of a message. -/
theorem count_last {metric : Metric} {gauge : Gauge} (hmetric : metric ∈ gauge.metrics) :
    (wait (.count metric 1)).Follows workerProtocol Phase.Left
      (.counting [gauge] none) := by
  refine Follows.call (.inr ⟨rfl, gauge, [], none, rfl, hmetric⟩) ?_
  rintro (exc | value) phase' h
  · cases h
  · cases Option.some.inj h
    rfl

/-- An update by the owner to a terminal status, committed and counted. -/
theorem end_bind {β : Type} {values : PhotoValues} {status : PhotoStatus}
    {next : Unit → Py β} {post : Except PyExc β → Phase → Prop}
    (hterminal : status.terminal) (hvalues : values.status = some status)
    (hnext : (next ()).Follows workerProtocol post (Phase.commit (.ending id status)))
    (herror : ∀ exc phase, phase.closes → post (.error exc) phase) :
    ((wait (.execute (.updatePhoto id none values))).bind fun _ =>
      (wait .commit).bind next).Follows workerProtocol post (.working id) := by
  have hown : (Stmt.updatePhoto id none values).Own id :=
    .update values fun s hs => by
      cases Option.some.inj (hvalues.symm.trans hs)
      exact hterminal
  refine ⟨.inr ⟨id, rfl, hown⟩, ?_⟩
  rintro (exc | rowcount) phase' h
  · cases Option.some.inj h
    exact herror _ _ rfl
  · simp only [workerProtocol, Phase.next, Phase.execute, hvalues] at h
    split at h
    · cases h
    · cases Option.some.inj h
      refine ⟨rfl, ?_⟩
      rintro (exc | value) phase' h
      · cases Option.some.inj h
        exact herror _ _ rfl
      · cases Option.some.inj h
        exact hnext

theorem mem_failed_metrics (decision : RetryDecision) :
    .photoAnalysisFailedTotal (AnalysisProcessor.failureReason decision) ∈
      Gauge.failed.metrics := by
  cases decision <;>
    simp [AnalysisProcessor.failureReason, Gauge.metrics, failureReasons]

theorem terminalWrite_follows (progress : AnalysisProcessor.Progress) :
    (AnalysisProcessor.terminalWrite id progress).Follows workerProtocol Phase.Left
      (.working id) := by
  have herror : ∀ exc phase, phase.closes →
      Phase.Left (α := Unit) (.error exc) phase := fun _ _ h => h
  unfold AnalysisProcessor.terminalWrite
  cases progress.response with
  | some response =>
      refine works_bind id ?_ (fun _ => ?_) herror
      · exact works_bind id (execute_works (.insert ..) fun _ => rfl)
          (fun _ => rfl) fun _ _ h => h
      · change (((wait _).bind fun _ => Program.ret ()).bind _).Follows _ _ _
        rw [Program.bind_assoc]
        refine end_bind (.inl rfl) rfl ?_ herror
        exact count_bind (.head _) (count_last (.head _))
  | none =>
      change (((wait _).bind fun _ => Program.ret ()).bind _).Follows _ _ _
      rw [Program.bind_assoc]
      refine end_bind (.inr rfl) rfl ?_ herror
      exact count_bind (mem_failed_metrics progress.decision) (count_last (.head _))

theorem retryLoop_follows (photoId objectKey : Str) (remaining attempt : Nat)
    (progress : AnalysisProcessor.Progress) :
    (AnalysisProcessor.retryLoop settings photoId objectKey id remaining attempt
      progress).Follows workerProtocol (Phase.Works id) (.working id) := by
  induction remaining generalizing attempt progress with
  | zero => exact rfl
  | succ remaining ih =>
      have herror : ∀ exc phase, phase.closes →
          Phase.Works (α := AnalysisProcessor.Progress) id (.error exc) phase :=
        fun _ _ h => h
      unfold AnalysisProcessor.retryLoop
      refine works_bind id ?_ (fun outcome => ?_) herror
      · refine Follows.attempt (Follows.call rfl ?_)
        rintro (exc | response) phase' h <;> exact (Option.some.inj h).symm
      · cases outcome with
        | ok response => exact rfl
        | error exc =>
            dsimp only
            split
            · exact rfl
            refine works_bind id (untracked_works rfl) (fun _ => ?_) herror
            refine works_bind id ?_ (fun _ => ?_) herror
            · exact works_bind id (execute_works (.update _ nofun) fun _ => rfl)
                (fun _ => rfl) fun _ _ h => h
            refine works_bind id commit_works (fun _ => ?_) herror
            split
            · exact rfl
            refine works_bind id (Follows.ofExcept ?_) (fun delay => ?_) herror
            · cases AnalysisProcessor.backoff settings.retryBackoffBaseSeconds attempt with
              | error exc => exact rfl
              | ok delay => exact rfl
            refine works_bind id (aside_works rfl ?_) (fun _ => ih _ _) herror
            rintro (exc | value) phase' h <;> exact (Option.some.inj h).symm

theorem analyzeClaimed_follows (photoId objectKey : Str) :
    (AnalysisProcessor.analyzeClaimed settings photoId objectKey id).Follows
      workerProtocol Phase.Left (.counting [.started] (some id)) := by
  have herror : ∀ exc phase, phase.closes →
      Phase.Left (α := Unit) (.error exc) phase := fun _ _ h => h
  have hclock : (wait .monotonic).Follows workerProtocol (Phase.Works id)
      (.working id) := by
    refine aside_works rfl ?_
    rintro (exc | value) phase' h
    · cases h
    · exact (Option.some.inj h).symm
  unfold AnalysisProcessor.analyzeClaimed
  refine count_bind (.head _) (works_bind id hclock (fun t0 => ?_) herror)
  refine works_bind id (retryLoop_follows _ _ _ _ _) (fun progress => ?_) herror
  refine works_bind id hclock (fun t1 => ?_) herror
  refine works_bind id (untracked_works rfl) (fun _ => ?_) herror
  exact terminalWrite_follows progress

theorem process_follows (photoId objectKey : Str) :
    (AnalysisProcessor.process settings photoId objectKey).Follows workerProtocol
      Phase.Left .idle := by
  unfold AnalysisProcessor.process
  cases UUID.parse photoId with
  | none => exact rfl
  | some photoUuid =>
      refine ⟨.inl ⟨rfl, photoUuid, rfl⟩, ?_⟩
      rintro (exc | rowcount) phase h
      · cases Option.some.inj h
        exact rfl
      · cases Option.some.inj h
        by_cases hzero : rowcount = 0
        · rw [if_pos hzero]
          refine ⟨rfl, ?_⟩
          rintro (exc | value) phase h
          · cases Option.some.inj h
            exact rfl
          · cases Option.some.inj h
            simp only [hzero, if_true]
            exact count_last (.head _)
        · rw [if_neg hzero]
          refine ⟨rfl, ?_⟩
          rintro (exc | value) phase h
          · cases Option.some.inj h
            exact rfl
          · cases Option.some.inj h
            simp only [hzero, if_false]
            exact analyzeClaimed_follows photoId objectKey

/-- Between two messages. -/
abbrev Phase.Resting {α : Type} : Except PyExc α → Phase → Prop :=
  fun _ phase => phase = .idle

theorem aside_idle {op : Op} (hallowed : Phase.allowed .idle op)
    (hnext : ∀ answer phase', Phase.next .idle op answer = some phase' →
      phase' = .idle) :
    (wait op).Follows workerProtocol Phase.Resting .idle :=
  Follows.call hallowed hnext

theorem idle_bind {α β : Type} {program : Py α} {next : α → Py β}
    (h : program.Follows workerProtocol Phase.Resting .idle)
    (hnext : ∀ value, (next value).Follows workerProtocol Phase.Resting .idle) :
    (program.bind next).Follows workerProtocol Phase.Resting .idle := by
  refine Follows.bind (fun _ phase => phase = .idle) (h.mono ?_) ?_
  · rintro (exc | value) phase h <;> exact h
  · rintro value phase rfl
    exact hnext value

theorem setTraceId_idle (value : Json) :
    (wait (.setTraceId value)).Follows workerProtocol Phase.Resting .idle := by
  refine aside_idle rfl ?_
  rintro (exc | token) phase h
  · cases h
  · exact (Option.some.inj h).symm

/-- A session is closed on every path. -/
theorem withSession_follows {α : Type} {body : Py α}
    (h : body.Follows workerProtocol Phase.Left .idle) :
    (withSession body).Follows workerProtocol Phase.Resting .idle := by
  refine Follows.tryFinally Phase.Left h fun outcome phase hphase => ?_
  have hcloses : phase.closes := by
    cases outcome with
    | ok value =>
        have hidle : phase = .idle := hphase
        subst hidle
        rfl
    | error exc => exact hphase
  refine Follows.call hcloses ?_
  rintro (exc | value) phase' hnext
  · exact (Option.some.inj hnext).symm
  · exact (Option.some.inj hnext).symm

/-- A program without operations. -/
theorem silent_follows {program : Py Unit} (h : ∀ p : Op → Prop, program.Uses p) :
    program.Follows workerProtocol Phase.Resting .idle := by
  have hstays : Stays workerProtocol (fun phase => phase = .idle) program :=
    .uses (h fun _ => False) fun _ _ _ hop => hop.elim
  refine (hstays .idle rfl).mono ?_
  rintro (exc | value) phase hidle <;> exact hidle

theorem caught_follows {body : Py Unit} {catcher : PyExc → Py Unit}
    (h : body.Follows workerProtocol Phase.Resting .idle)
    (hcatcher : ∀ exc, (catcher exc).Follows workerProtocol Phase.Resting .idle) :
    (body.tryExcept catcher).Follows workerProtocol Phase.Resting .idle := by
  refine Follows.tryExcept (fun _ phase => phase = .idle) (h.mono ?_) ?_
  · rintro (exc | value) phase hidle <;> exact hidle
  · rintro exc phase rfl
    exact hcatcher exc

/-- The trace id is put back on every path. -/
theorem restored_follows {body : Py Unit} {token : Json}
    (h : body.Follows workerProtocol Phase.Resting .idle) :
    (body.tryFinally do let _ ← wait (.setTraceId token)).Follows workerProtocol
      Phase.Resting .idle := by
  refine Follows.tryFinally Phase.Resting h fun outcome phase hidle => ?_
  cases (hidle : phase = .idle)
  refine Follows.mono (idle_bind (setTraceId_idle token) fun _ => rfl) ?_
  rintro (exc | value) phase h <;> exact h

theorem processPayload_follows (interpreter : Interpreter) (payload : List (Str × Json)) :
    (Consumer.processPayload interpreter (AnalysisProcessor.process settings)
      payload).Follows workerProtocol Phase.Resting .idle := by
  unfold Consumer.processPayload
  generalize Consumer.textField payload (py "photo_id") = photoId
  generalize Consumer.textField payload (py "object_key") = objectKey
  generalize Consumer.traceIdOf payload = value
  have hprocess := @process_follows settings photoId objectKey
  exact idle_bind (setTraceId_idle value) fun token =>
    restored_follows (caught_follows (withSession_follows hprocess) fun exc =>
      silent_follows fun _ => log_or_raise_uses _ _ _ _)

theorem handleMessage_follows (interpreter : Interpreter) (message : ConsumerRecord) :
    (Consumer.handleMessage interpreter (AnalysisProcessor.process settings)
      message).Follows workerProtocol Phase.Resting .idle := by
  unfold Consumer.handleMessage
  split
  · exact silent_follows fun _ => log_uses _ _ _
  · exact silent_follows fun _ => log_uses _ _ _
  · exact rfl
  next payload hloads =>
    split
    · exact silent_follows fun _ => log_uses _ _ _
    · exact processPayload_follows interpreter payload
  · exact silent_follows fun _ => log_or_raise_uses _ _ _ _

/-- Both turns of the routine begin and end between two messages. -/
theorem worker_follows :
    (routine settings .worker).first.Follows workerProtocol Phase.Resting .idle ∧
      (routine settings .worker).loop.Follows workerProtocol Phase.Resting .idle := by
  have hidle : ∀ {op : Op}, Phase.allowed .idle op →
      (∀ answer, Phase.next .idle op answer = some .idle) →
      (wait op).Follows workerProtocol Phase.Resting .idle := fun hallowed hnext =>
    aside_idle hallowed fun answer phase h =>
      (Option.some.inj ((hnext answer).symm.trans h)).symm
  refine ⟨idle_bind (hidle rfl fun answer => by cases answer <;> rfl) fun _ => rfl,
    idle_bind (hidle rfl fun answer => by cases answer <;> rfl) fun stop => ?_⟩
  split
  · exact rfl
  refine idle_bind (Follows.attempt (hidle rfl fun answer => by cases answer <;> rfl))
    fun outcome => ?_
  cases outcome with
  | error exc =>
      dsimp only
      split <;> exact rfl
  | ok message =>
      exact idle_bind (handleMessage_follows settings.interpreter message) fun _ =>
        idle_bind (hidle rfl fun answer => by cases answer <;> rfl) fun _ => rfl

end

end PhotoAnalysis

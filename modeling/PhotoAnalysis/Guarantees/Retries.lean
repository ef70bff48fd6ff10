import PhotoAnalysis.Guarantees.Terminal

/-!
# The retry loop

A call of the processor by itself, with a log of its operations.  The outcomes of
the analyzer calls settle how many calls there are, what is committed in between,
how long the pauses are and what the photo ends with, as long as the pauses end and
the column holds the hash of the last answer.
-/

namespace PhotoAnalysis

open Foundation Program

/-! ## What the tables say of a photo's processing -/

/-- The columns the worker writes, and the result. -/
abbrev Standing :=
  Option (PhotoStatus × Nat × Option Str × Option Str) × Option AnalysisResult

def Tables.standing (tables : Tables) (id : UUID) : Standing :=
  ((tables.photo id).map Photo.progress, tables.analysis id)

/-- The other tasks leave task `t` its session and what it has written. -/
def Surroundings.LeavesAlone (E : Surroundings) (t : Tid) (id : UUID) : Prop :=
  ∀ n w, (E.others n w).db.writes t = w.db.writes t ∧
    (E.others n w).db.committed.standing id = w.db.committed.standing id

/-- What an `UPDATE photos` makes of the columns of the worker. -/
def PhotoValues.advance (values : PhotoValues)
    (progress : PhotoStatus × Nat × Option Str × Option Str) :
    PhotoStatus × Nat × Option Str × Option Str :=
  (values.status.getD progress.1, values.attempts.getD progress.2.1,
    (values.lastErrorCode.map (Option.map (Column.cut 64))).getD progress.2.2.1,
    values.lastErrorMessage.getD progress.2.2.2)

theorem Tables.standing_setPhoto (tables : Tables) (id : UUID) (values : PhotoValues) :
    (Write.apply tables (.setPhoto id values)).standing id =
      ((tables.standing id).1.map values.advance, (tables.standing id).2) := by
  simp only [standing, photo_setPhoto, analysis_setPhoto, if_true, Option.map_map]
  rfl

theorem Tables.standing_addAnalysis (tables : Tables) (row : AnalysisResult)
    (h : (tables.standing row.photoId).2 = none) :
    (Write.apply tables (.addAnalysis row)).standing row.photoId =
      ((tables.standing row.photoId).1, some row) := by
  have hnone : tables.analysis row.photoId = none := h
  simp [standing, hnone]

/-- The operations that write to the database. -/
def Op.isWrite : Op → Bool
  | execute _ | commit => true
  | _ => false

/-- The analyzer calls -/
def Op.asked : Op → Option (Str × Str)
  | analyzePhoto photoId objectKey => some (photoId, objectKey)
  | _ => none

/-- The pauses -/
def Op.slept : Op → Option Rat
  | sleep seconds => some seconds
  | _ => none

/-- The failures counted, by their reason -/
def Op.failed : Op → Option Str
  | count (.photoAnalysisFailedTotal reason) _ => some reason
  | _ => none

/-- The outcome of the analyzer call in attempt `i`. -/
def Surroundings.outcome (E : Surroundings) (i : Nat) :
    Except PyExc AnalyzePhotoResponse :=
  E.analyzer (i - 1)

/-- A statement fails, or it leaves what it resolves to in the session. -/
theorem Surroundings.execute_cases (E : Surroundings) (t : Tid) (c : Course)
    (stmt : Stmt) :
    (∃ exc c', E.handler t (.execute stmt) c = (.error exc, c')) ∨
      ∃ resolved w, stmt.resolve (c.world.now t) (c.world.view t) = .ok resolved ∧
        E.handler t (.execute stmt) c =
          (.ok (if resolved.isSome then 1 else 0), c.goOn E w) ∧
        w.db.writes t = c.world.db.writes t ++ resolved.toList ∧
        w.db.committed = c.world.db.committed := by
  cases hstmt : stmt.resolve (c.world.now t) (c.world.view t) with
  | error exc =>
      have hexecute : c.world.execute t stmt = some (.error exc, (c.world.rollback t).note
          (.raised t (.execute stmt) (c.world.db.writes t) exc)) := by
        rw [World.execute, hstmt]
      exact .inl ⟨exc, _, E.handler_execute hexecute⟩
  | ok resolved =>
      cases resolved with
      | none =>
          have hexecute : c.world.execute t stmt =
              some (.ok 0, (c.world.begin t).note (.executed t stmt 0)) := by
            rw [World.execute, hstmt]
          refine .inr ⟨none, _, rfl, E.handler_execute hexecute, ?_, rfl⟩
          simp [World.note, World.begin]
      | some write =>
          by_cases hfree : c.world.db.Free t write.keys
          · have hexecute : c.world.execute t stmt = some (.ok 1,
                { c.world.begin t with db := c.world.db.write t write hfree }.note
                  (.executed t stmt 1)) := by
              rw [World.execute, hstmt]
              exact dif_pos hfree
            refine .inr ⟨some write, _, rfl, E.handler_execute hexecute, ?_, rfl⟩
            simp [World.note, World.begin]
          · have hexecute : c.world.execute t stmt = none := by
              rw [World.execute, hstmt]
              exact dif_neg hfree
            refine .inl ⟨.other (py "no answer"), c, ?_⟩
            simp only [handler, choice, World.answer, hexecute]

namespace AnalysisProcessor

/-! ## The course of the attempts -/

/-- An outcome that is not followed by another attempt. -/
def final : Except PyExc AnalyzePhotoResponse → Bool
  | .ok _ => true
  | .error exc => AnalyzerGrpcClient.classifyGrpcError exc = .noRetry

/-- The first attempt whose outcome is final, or the last that is allowed. -/
def attemptsMade (outcome : Nat → Except PyExc AnalyzePhotoResponse)
    (maxAttempts : Nat) : Nat :=
  ((List.range' 1 maxAttempts).find? fun i => final (outcome i)).getD maxAttempts

/-- `record_attempt` after attempt `i` -/
def recordStmt (id : UUID) (i : Nat) (exc : PyExc) : Stmt :=
  .updatePhoto id none (PhotoRepository.attemptValues i
    (AnalyzerGrpcClient.errorCodeFromException exc)
    (AnalyzerGrpcClient.truncateErrorMessage exc.text
      AnalyzerGrpcClient.maxErrorMessageLength))

/-- The operations of attempt `i` of `n`. -/
def attemptOps (settings : Settings) (photoId objectKey : Str) (id : UUID) (n i : Nat) :
    Except PyExc AnalyzePhotoResponse → List Op
  | .ok _ => [.analyzePhoto photoId objectKey]
  | .error exc =>
      [.analyzePhoto photoId objectKey, .count (.analyzerGrpcErrorsTotal
          (AnalyzerGrpcClient.errorCodeFromException exc)) 1,
        .execute (recordStmt id i exc), .commit] ++
        if i < n then [.sleep (settings.retryBackoffBaseSeconds * 2 ^ (i - 1))] else []

/-- The statements of the terminal transaction after `n` attempts. -/
def terminalStmts (id : UUID) (n : Nat) :
    Except PyExc AnalyzePhotoResponse → List Stmt
  | .ok response =>
      [.insertAnalysis id response.facesCount response.isBlurred response.blurScore
          response.perceptualHash,
        .updatePhoto id none (PhotoRepository.doneValues n)]
  | .error exc =>
      [.updatePhoto id none (PhotoRepository.failedValues
        (AnalyzerGrpcClient.errorCodeFromException exc)
        (AnalyzerGrpcClient.truncateErrorMessage exc.text
          AnalyzerGrpcClient.maxErrorMessageLength) n)]

/-- The counters at the end of the call. -/
def terminalMetrics : Except PyExc AnalyzePhotoResponse → List Metric
  | .ok _ => [.photoAnalysisCompletedTotal, .workerMessagesProcessedTotal (py "done")]
  | .error exc =>
      [.photoAnalysisFailedTotal
          (failureReason (AnalyzerGrpcClient.classifyGrpcError exc)),
        .workerMessagesProcessedTotal (py "failed")]

theorem attemptsMade_spec (outcome : Nat → Except PyExc AnalyzePhotoResponse)
    {maxAttempts : Nat} (h : 1 ≤ maxAttempts) :
    1 ≤ attemptsMade outcome maxAttempts ∧
      attemptsMade outcome maxAttempts ≤ maxAttempts ∧
      (∀ i, 1 ≤ i → i < attemptsMade outcome maxAttempts → final (outcome i) = false) ∧
      (attemptsMade outcome maxAttempts = maxAttempts ∨
        final (outcome (attemptsMade outcome maxAttempts)) = true) := by
  unfold attemptsMade
  cases hfind : (List.range' 1 maxAttempts).find? fun i => final (outcome i) with
  | none =>
      refine ⟨h, Nat.le_refl _, fun i hi hlt => ?_, .inl rfl⟩
      simpa using List.find?_range'_eq_none.mp hfind i hi (Nat.lt_add_left 1 hlt)
  | some n =>
      obtain ⟨hfinal, hmem, hbefore⟩ := List.find?_range'_eq_some.mp hfind
      rw [List.mem_range'_1] at hmem
      refine ⟨hmem.1, by simp only [Option.getD_some]; omega, fun i hi hlt => ?_,
        .inr hfinal⟩
      simpa using hbefore i hi hlt

/-! ## Operations of a call -/

abbrev Log := List (Performed Op Op.Ans PyExc)

/-- All that the call has to write is written. -/
def WritesSucceed (log : Log) : Prop :=
  ∀ performed ∈ log, performed.1.isWrite = true → performed.2.isOk = true

instance (log : Log) : Decidable (WritesSucceed log) :=
  inferInstanceAs (Decidable (∀ performed ∈ log, _ → _))

/--
The session has the open writes `ws`, the photo stands so in the tables, `k` analyzer
calls have been made, and these are the operations so far.
-/
structure Underway (t : Tid) (id : UUID) (standing : Standing) (ws : List Write)
    (k : Nat) (ops : List Op) (s : Course × Log) : Prop where
  writes : s.1.world.db.writes t = ws
  standing : s.1.world.db.committed.standing id = standing
  calls : s.1.calls = k
  ops : s.2.map Sigma.fst = ops

/-- The two ways for a call to go wrong: a write fails, or a pause does not end. -/
def Spoiled (paused : Prop) (_ : PyExc) (s : Course × Log) : Prop :=
  ¬WritesSucceed s.2 ∨ ¬paused

section

variable {E : Surroundings} {t : Tid} {id : UUID} {standing standing' : Standing}
variable {ws ws' : List Write} {k : Nat} {ops : List Op} {α : Type}
variable {post : α → Course × Log → Prop} {paused : Prop}

theorem Underway.goOn (hE : E.LeavesAlone t id) {op : Op} {answer : Except PyExc op.Ans}
    {c : Course} {log : Log} {w : World} (hwrites : w.db.writes t = ws)
    (hstanding : w.db.committed.standing id = standing) (hcalls : c.calls = k)
    (hops : log.map Sigma.fst = ops) :
    Underway t id standing ws k (ops ++ [op]) (c.goOn E w, log ++ [⟨op, answer⟩]) := by
  obtain ⟨hw, hs⟩ := hE c.steps w
  refine ⟨hw.trans hwrites, hs.trans hstanding, hcalls, ?_⟩
  rw [List.map_append, hops]
  rfl

theorem ends_op (hE : E.LeavesAlone t id) {op : Op} {next : op.Ans → Py α}
    (hop : ∀ c, c.world.db.writes t = ws → c.world.db.committed.standing id = standing →
      ∃ value w, E.handler t op c = (.ok value, c.goOn E w) ∧ w.db.writes t = ws' ∧
        w.db.committed.standing id = standing')
    (hnext : ∀ value, Ends (logged (E.handler t))
      (Underway t id standing' ws' k (ops ++ [op])) (next value)
      (Ends.Exits post (Spoiled paused))) :
    Ends (logged (E.handler t)) (Underway t id standing ws k ops) ((wait op).bind next)
      (Ends.Exits post (Spoiled paused)) := by
  rintro ⟨c, log⟩ ⟨hwrites, hstanding, hcalls, hops⟩
  obtain ⟨value, w, hhandler, hw, hs⟩ := hop c hwrites hstanding
  rw [run_bind, run_call]
  simp only [logged, hhandler]
  exact hnext value _ (.goOn hE hw hs hcalls hops)

/-- An operation that touches no table. -/
theorem ends_quiet (hE : E.LeavesAlone t id) {op : Op} {next : op.Ans → Py α}
    (hop : ∀ c, ∃ value w, E.handler t op c = (.ok value, c.goOn E w) ∧
      w.db = c.world.db)
    (hnext : ∀ value, Ends (logged (E.handler t))
      (Underway t id standing ws k (ops ++ [op])) (next value)
      (Ends.Exits post (Spoiled paused))) :
    Ends (logged (E.handler t)) (Underway t id standing ws k ops) ((wait op).bind next)
      (Ends.Exits post (Spoiled paused)) := by
  refine ends_op hE (fun c hwrites hstanding => ?_) hnext
  obtain ⟨value, w, hhandler, hdb⟩ := hop c
  exact ⟨value, w, hhandler, by rw [hdb, hwrites], by rw [hdb, hstanding]⟩

theorem ends_counted (hE : E.LeavesAlone t id) {metric : Metric} {amount : Int}
    {next : Unit → Py α} (hnext : Ends (logged (E.handler t))
      (Underway t id standing ws k (ops ++ [.count metric amount])) (next ())
      (Ends.Exits post (Spoiled paused))) :
    Ends (logged (E.handler t)) (Underway t id standing ws k ops)
      ((wait (.count metric amount)).bind next) (Ends.Exits post (Spoiled paused)) :=
  ends_quiet hE (fun _ => ⟨(), _, rfl, rfl⟩) fun _ => hnext

theorem ends_committed (hE : E.LeavesAlone t id) {s : Standing} {next : Unit → Py α}
    (hstanding : ∀ tables : Tables, tables.standing id = standing →
      (ws.foldl Write.apply tables).standing id = s)
    (hnext : Ends (logged (E.handler t))
      (Underway t id s [] k (ops ++ [.commit])) (next ())
      (Ends.Exits post (Spoiled paused))) :
    Ends (logged (E.handler t)) (Underway t id standing ws k ops)
      ((wait .commit).bind next) (Ends.Exits post (Spoiled paused)) := by
  refine ends_op hE (fun c hw hs => ⟨(), _, rfl, c.world.db.writes_commit t, ?_⟩)
    fun _ => hnext
  subst hw
  exact hstanding _ hs

/-- A statement either succeeds or has spoiled the call. -/
theorem ends_executed (hE : E.LeavesAlone t id) {stmt : Stmt} {next : Nat → Py α}
    {P : Write → Prop}
    (hresolve : ∀ tables now resolved, tables.standing id = standing →
      stmt.resolve now (ws.foldl Write.apply tables) = .ok resolved →
      ∃ write, resolved = some write ∧ P write)
    (hnext : ∀ write, P write → Ends (logged (E.handler t))
      (Underway t id standing (ws ++ [write]) k (ops ++ [.execute stmt])) (next 1)
      (Ends.Exits post (Spoiled paused))) :
    Ends (logged (E.handler t)) (Underway t id standing ws k ops)
      ((wait (.execute stmt)).bind next) (Ends.Exits post (Spoiled paused)) := by
  rintro ⟨c, log⟩ ⟨hwrites, hstanding, hcalls, hops⟩
  have hspoiled : ∀ exc, ¬WritesSucceed (log ++ [⟨.execute stmt, .error exc⟩]) := by
    intro exc h
    exact Bool.false_ne_true (h ⟨.execute stmt, .error exc⟩ (by simp) rfl)
  rw [run_bind, run_call]
  rcases E.execute_cases t c stmt with ⟨exc, c', hhandler⟩ |
    ⟨resolved, w, hstmt, hhandler, hw, hs⟩
  · simp only [logged, hhandler]
    exact .inl (hspoiled exc)
  · rw [World.view, TxStore.view, hwrites] at hstmt
    obtain ⟨write, rfl, hP⟩ := hresolve _ _ _ hstanding hstmt
    simp only [logged, hhandler]
    refine hnext write hP _ (.goOn hE ?_ (hs ▸ hstanding) hcalls hops)
    rw [hw, hwrites]
    rfl

/-- The pause before the next attempt. -/
theorem ends_paused (hE : E.LeavesAlone t id) {base : Rat} {attempt : Nat}
    (hattempt : 0 < attempt) {next : Unit → Py α} (hpaused : paused → Pauses base attempt)
    (hnext : Pauses base attempt → Ends (logged (E.handler t))
      (Underway t id standing ws k (ops ++ [.sleep (base * 2 ^ (attempt - 1))])) (next ())
      (Ends.Exits post (Spoiled paused))) :
    Ends (logged (E.handler t)) (Underway t id standing ws k ops)
      ((Program.ofExcept (backoff base attempt)).bind fun delay =>
        (wait (.sleep delay)).bind next) (Ends.Exits post (Spoiled paused)) := by
  unfold backoff
  split
  next hfloat =>
    by_cases hdelay : base * 2 ^ (attempt - 1) < (floatBound : Rat)
    · refine ends_quiet hE (fun c => ⟨(), c.world, ?_, rfl⟩)
        fun _ => hnext ⟨by omega, hdelay⟩
      rw [E.handler_sleep, if_pos hdelay]
    · rintro ⟨c, log⟩ -
      rw [Program.ofExcept, ret_bind, run_bind, run_call]
      simp only [logged, E.handler_sleep, if_neg hdelay]
      exact .inr fun h => hdelay (hpaused h).2
  next hfloat =>
    intro s hs
    refine .inr fun h => hfloat ?_
    have hle := (hpaused h).1
    omega

/-! ## The call -/

variable {settings : Settings} {photoId objectKey : Str}

/-- All pauses of a call that makes `n` attempts end, from the one after attempt `i` on. -/
def PausesFrom (base : Rat) (n i : Nat) : Prop := ∀ j, i ≤ j → j < n → Pauses base j

theorem pausesFrom_self {base : Rat} {n : Nat} : PausesFrom base n n :=
  fun _ hj hlt => absurd hlt (Nat.not_lt_of_le hj)

theorem pausesFrom_of_lt {base : Rat} {n i : Nat} (h : i < n) :
    PausesFrom base n i ↔ Pauses base i ∧ PausesFrom base n (i + 1) := by
  refine ⟨fun hall => ⟨hall i (Nat.le_refl i) h, fun j hj => hall j (Nat.le_of_succ_le hj)⟩,
    ?_⟩
  rintro ⟨hfirst, hrest⟩ j hj hlt
  rcases Nat.eq_or_lt_of_le hj with rfl | hlater
  · exact hfirst
  · exact hrest j hlater hlt

/-- What the loop leaves in its variables after `n` attempts. -/
def Progress.Shows (progress : Progress) (n : Nat) :
    Except PyExc AnalyzePhotoResponse → Prop
  | .ok response => progress.attempts = n ∧ progress.response = some response
  | .error exc => progress = Progress.fail n exc

theorem updated_resolve {tables : Tables} {now : Time} {values : PhotoValues}
    {row : PhotoStatus × Nat × Option Str × Option Str}
    (hstanding : ((tables.standing id).1 = some row)) {resolved : Option Write}
    (h : (Stmt.updatePhoto id none values).resolve now tables = .ok resolved) :
    resolved = some (.setPhoto id values) := by
  obtain ⟨p, hp, -⟩ := Option.map_eq_some_iff.mp hstanding
  simp only [Stmt.resolve, hp, Option.all_none, if_true] at h
  split at h
  · cases h
  · split at h <;> cases h
    rfl

theorem inserted_resolve {tables : Tables} {now : Time} {response : AnalyzePhotoResponse}
    {q : PhotoStatus × Nat × Option Str × Option Str}
    (hstanding : tables.standing id = (some q, none)) {resolved : Option Write}
    (h : (Stmt.insertAnalysis id response.facesCount response.isBlurred
      response.blurScore response.perceptualHash).resolve now tables = .ok resolved) :
    ∃ write, resolved = some write ∧ ∃ result : AnalysisResult,
      write = .addAnalysis result ∧ result.photoId = id ∧
        result.response = response.stored := by
  obtain ⟨p, hp, -⟩ := Option.map_eq_some_iff.mp (congrArg Prod.fst hstanding)
  have hnone : tables.analysis id = none := congrArg Prod.snd hstanding
  simp only [Stmt.resolve, hp, hnone, Option.isSome_none, Option.isNone_some,
    Bool.false_eq_true, if_false] at h
  split at h <;> cases h
  exact ⟨_, rfl, _, rfl, rfl, rfl⟩

theorem ends_updated (hE : E.LeavesAlone t id) {values : PhotoValues}
    {p : PhotoStatus × Nat × Option Str × Option Str} {next : Nat → Py α}
    (hrow : ∀ tables : Tables, tables.standing id = standing →
      ((ws.foldl Write.apply tables).standing id).1 = some p)
    (hnext : Ends (logged (E.handler t)) (Underway t id standing
      (ws ++ [.setPhoto id values]) k (ops ++ [.execute (.updatePhoto id none values)]))
      (next 1) (Ends.Exits post (Spoiled paused))) :
    Ends (logged (E.handler t)) (Underway t id standing ws k ops)
      ((wait (.execute (.updatePhoto id none values))).bind next)
      (Ends.Exits post (Spoiled paused)) := by
  refine ends_executed hE (P := fun write => write = .setPhoto id values) ?_ ?_
  · intro tables now resolved hstanding hresolve
    exact ⟨_, updated_resolve (hrow tables hstanding) hresolve, rfl⟩
  · rintro write rfl
    exact hnext

/-- The operations of the attempts from `i` on. -/
def attemptsOps (E : Surroundings) (settings : Settings) (photoId objectKey : Str)
    (id : UUID) (n i : Nat) : List Op :=
  (List.range' i (n + 1 - i)).flatMap fun i =>
    attemptOps settings photoId objectKey id n i (E.outcome i)

theorem attemptsOps_eq {n i : Nat} (h : i ≤ n) :
    attemptsOps E settings photoId objectKey id n i =
      attemptOps settings photoId objectKey id n i (E.outcome i) ++
        attemptsOps E settings photoId objectKey id n (i + 1) := by
  obtain ⟨m, hm⟩ : ∃ m, n + 1 - i = m + 1 := ⟨n - i, by omega⟩
  rw [attemptsOps, hm, List.range'_succ, List.flatMap_cons, attemptsOps,
    show n + 1 - (i + 1) = m by omega]

theorem attemptsOps_last {n : Nat} :
    attemptsOps E settings photoId objectKey id n n =
      attemptOps settings photoId objectKey id n n (E.outcome n) := by
  rw [attemptsOps_eq (Nat.le_refl n), attemptsOps, Nat.sub_self]
  exact List.append_nil _

theorem retryLoop_attempts (hE : E.LeavesAlone t id)
    (hexc : ∀ n exc, E.analyzer n = .error exc → exc.isException = true)
    {n remaining i : Nat} (hn : n = attemptsMade E.outcome settings.workerMaxAttempts.toNat)
    (hmax : 1 ≤ settings.workerMaxAttempts) (hi : 1 ≤ i) (hin : i ≤ n)
    (hremaining : (i + remaining : Int) = settings.workerMaxAttempts + 1)
    {progress : Progress}
    (hpaused : paused → PausesFrom settings.retryBackoffBaseSeconds n i)
    {q : PhotoStatus × Nat × Option Str × Option Str} :
    Ends (logged (E.handler t)) (Underway t id (some q, none) [] (i - 1) ops)
      (retryLoop settings photoId objectKey id remaining i progress)
      (Ends.Exits (fun progress s => progress.Shows n (E.outcome n) ∧
        PausesFrom settings.retryBackoffBaseSeconds n i ∧
        ∃ q, Underway t id (some q, none) [] n
          (ops ++ attemptsOps E settings photoId objectKey id n i) s)
        (Spoiled paused)) := by
  obtain ⟨-, hle, hbefore, hlast⟩ := attemptsMade_spec E.outcome
    (show 1 ≤ settings.workerMaxAttempts.toNat by omega)
  rw [← hn] at hle hbefore hlast
  induction remaining generalizing i progress ops q with
  | zero => omega
  | succ remaining ih =>
      refine .bind (fun outcome s => outcome = E.outcome i ∧
        Underway t id (some q, none) [] i (ops ++ [.analyzePhoto photoId objectKey]) s)
        (.attempt (.call ?_)) fun outcome => ?_
      · rintro ⟨c, log⟩ ⟨hwrites, hstanding, hcalls, hops⟩
        obtain ⟨hw, hs⟩ := hE c.steps (c.world.ask photoId objectKey)
        refine ⟨by rw [Surroundings.outcome, ← hcalls]; rfl, hw.trans hwrites,
          hs.trans hstanding, ?_, ?_⟩
        · exact (congrArg (· + 1) hcalls).trans (Nat.sub_add_cancel hi)
        · simp [logged, hops]
      refine .given fun houtcome => ?_
      have hfinal : final outcome = true → i = n := by
        intro h
        rcases Nat.lt_or_eq_of_le hin with hlt | heq
        · rw [houtcome, hbefore i hi hlt] at h
          cases h
        · exact heq
      have hops : attemptsOps E settings photoId objectKey id n i =
          attemptOps settings photoId objectKey id n i outcome ++
            attemptsOps E settings photoId objectKey id n (i + 1) := by
        rw [attemptsOps_eq hin, houtcome]
      cases outcome with
      | ok response =>
          obtain rfl := hfinal rfl
          refine .ret fun s hs => ⟨?_, pausesFrom_self, q, ?_⟩
          · rw [← houtcome]
            exact ⟨rfl, rfl⟩
          · rw [attemptsOps_last, ← houtcome]
            exact hs
      | error exc =>
          have hisException := hexc (i - 1) exc houtcome.symm
          simp only [hisException, Bool.not_true, Bool.false_eq_true, if_false,
            PhotoRepository.recordAttempt, bind_eq, bind_assoc, pure_eq_ret, ret_bind]
          obtain ⟨q', hq'⟩ : ∃ q', q' = PhotoValues.advance
            (PhotoRepository.attemptValues i (Progress.fail i exc).lastCode
              (Progress.fail i exc).lastMessage) q := ⟨_, rfl⟩
          refine ends_counted hE (ends_updated hE (p := q) ?_ (ends_committed hE
            (s := (some q', none)) ?_ ?_))
          · intro tables hstanding
            exact congrArg Prod.fst hstanding
          · intro tables hstanding
            refine (Tables.standing_setPhoto tables id _).trans ?_
            rw [hstanding, hq']
            rfl
          split
          next hstop =>
            obtain rfl : i = n := by
              rcases hstop with hdecision | hattempt
              · exact hfinal (decide_eq_true hdecision)
              · omega
            refine .ret fun s hs => ⟨?_, pausesFrom_self, q', ?_⟩
            · rw [← houtcome]
              rfl
            · rw [attemptsOps_last, ← houtcome, attemptOps, if_neg (Nat.lt_irrefl i),
                List.append_nil]
              simp only [List.append_assoc, List.cons_append, List.nil_append] at hs
              exact hs
          next hgo =>
            rw [not_or] at hgo
            have hlt : i < n := by
              refine Nat.lt_of_le_of_ne hin fun heq => ?_
              rcases hlast with hM | hstop
              · omega
              · rw [← heq, ← houtcome] at hstop
                exact hgo.1 (of_decide_eq_true hstop)
            refine ends_paused hE hi (fun h => hpaused h i (Nat.le_refl i) hlt)
              fun hpauses => ?_
            have hnext : ((i + 1 : Nat) + remaining : Int) =
                settings.workerMaxAttempts + 1 := by
              push_cast at hremaining ⊢
              omega
            have hrest : paused → PausesFrom settings.retryBackoffBaseSeconds n (i + 1) :=
              fun h => (pausesFrom_of_lt hlt).mp (hpaused h) |>.2
            rw [hops, ← List.append_assoc, pausesFrom_of_lt hlt, and_iff_right hpauses]
            refine (ih (q := q') (Nat.le_succ_of_le hi) hlt hnext hrest).pre ?_
            intro s hs
            rw [attemptOps, if_pos hlt]
            simp only [List.append_assoc, List.cons_append, List.nil_append] at hs ⊢
            exact hs

/-- What the photo ends with after `n` attempts. -/
def Ended (id : UUID) (n : Nat) :
    Except PyExc AnalyzePhotoResponse → Standing → Prop
  | .ok response, standing => ∃ result : AnalysisResult, result.photoId = id ∧
      result.response = response ∧
      standing = (some (.done, n, none, none), some result)
  | .error exc, standing => ∃ message, message =
      AnalyzerGrpcClient.truncateErrorMessage exc.text
        AnalyzerGrpcClient.maxErrorMessageLength ∧
      message.length ≤ AnalyzerGrpcClient.maxErrorMessageLength ∧
      standing = (some (.failed, n,
        some (AnalyzerGrpcClient.errorCodeFromException exc), some message), none)

/-- What the columns keep of an outcome. -/
def kept (outcome : Except PyExc AnalyzePhotoResponse) :
    Except PyExc AnalyzePhotoResponse :=
  outcome.map AnalyzePhotoResponse.stored

/-- The hash of a response is not longer than its column. -/
def HashFits (outcome : Except PyExc AnalyzePhotoResponse) : Prop :=
  ∀ response, outcome = .ok response → response.perceptualHash.length ≤ 64

/-- The result is equal to the response exactly if nothing of its hash is cut off. -/
theorem ended_iff {n : Nat} {outcome : Except PyExc AnalyzePhotoResponse}
    {standing : Standing} (h : Ended id n (kept outcome) standing) :
    Ended id n outcome standing ↔ HashFits outcome := by
  cases outcome with
  | error exc => exact iff_of_true h fun response heq => nomatch heq
  | ok response =>
      obtain ⟨result, hid, hresult, hstanding⟩ := h
      constructor
      · rintro ⟨result', -, hresult', hstanding'⟩ _ ⟨⟩
        obtain rfl : result = result' :=
          Option.some.inj (congrArg Prod.snd (hstanding.symm.trans hstanding'))
        have hhash := congrArg AnalyzePhotoResponse.perceptualHash
          (hresult.symm.trans hresult')
        exact Column.cut_eq_self.mp hhash
      · intro hhash
        refine ⟨result, hid, hresult.trans ?_, hstanding⟩
        rw [AnalyzePhotoResponse.stored, Column.cut_eq_self.mpr (hhash response rfl)]

theorem length_truncate (message : Str) (limit : Nat) :
    (AnalyzerGrpcClient.truncateErrorMessage message limit).length ≤ limit := by
  unfold AnalyzerGrpcClient.truncateErrorMessage
  split
  next h => exact h
  next => exact List.length_take_le ..

theorem cut_errorCode (exc : PyExc) :
    Column.cut 64 (AnalyzerGrpcClient.errorCodeFromException exc) =
      AnalyzerGrpcClient.errorCodeFromException exc := by
  have hholds := holds_errorCode exc
  rw [Column.holds, Bool.and_eq_true, decide_eq_true_eq] at hholds
  exact Column.cut_eq_self.mpr hholds.2

/-- The operations of the terminal write. -/
def terminalOps (id : UUID) (n : Nat) (outcome : Except PyExc AnalyzePhotoResponse) :
    List Op :=
  (terminalStmts id n outcome).map .execute ++
    .commit :: (terminalMetrics outcome).map (.count · 1)

theorem ends_lastCount (hE : E.LeavesAlone t id) {metric : Metric} {amount : Int}
    {Q : Unit → Course × Log → Prop}
    (h : ∀ s, Underway t id standing ws k (ops ++ [.count metric amount]) s → Q () s) :
    Ends (logged (E.handler t)) (Underway t id standing ws k ops)
      (wait (.count metric amount)) (Ends.Exits Q (Spoiled paused)) :=
  .call fun _ hs => h _ (.goOn hE hs.writes hs.standing hs.calls hs.ops)

theorem terminalWrite_course (paused : Prop) (hE : E.LeavesAlone t id) {n : Nat}
    {progress : Progress}
    {outcome : Except PyExc AnalyzePhotoResponse} (hprogress : progress.Shows n outcome)
    {q : PhotoStatus × Nat × Option Str × Option Str} :
    Ends (logged (E.handler t)) (Underway t id (some q, none) [] k ops)
      (terminalWrite id progress) (Ends.Exits (fun _ s => ∃ standing,
        Ended id n (kept outcome) standing ∧
        Underway t id standing [] k (ops ++ terminalOps id n outcome) s)
        (Spoiled paused)) := by
  have hfirst : ∀ tables : Tables, tables.standing id = (some q, none) →
      (tables.standing id).1 = some q := fun tables h => congrArg Prod.fst h
  unfold terminalWrite
  cases outcome with
  | ok response =>
      obtain ⟨rfl, hresponse⟩ := hprogress
      simp only [hresponse, AnalysisResultRepository.upsert, PhotoRepository.markDone,
        bind_eq, bind_assoc, pure_eq_ret, ret_bind]
      refine ends_executed hE (P := fun write => ∃ result : AnalysisResult,
        write = .addAnalysis result ∧ result.photoId = id ∧
          result.response = response.stored) ?_ ?_
      · intro tables now resolved hstanding hresolve
        exact inserted_resolve hstanding hresolve
      · rintro write ⟨result, rfl, hid, hresult⟩
        have hadd : ∀ tables : Tables, tables.standing id = (some q, none) →
            (Write.apply tables (.addAnalysis result)).standing id =
              (some q, some result) := by
          intro tables hstanding
          subst hid
          rw [Tables.standing_addAnalysis _ _ (congrArg Prod.snd hstanding), hstanding]
        refine ends_updated hE (p := q) (fun tables h => congrArg Prod.fst (hadd tables h))
          (ends_committed hE (s := (some (.done, progress.attempts, none, none),
            some result)) ?_ (ends_counted hE (ends_lastCount hE fun s hs => ?_)))
        · intro tables hstanding
          refine (Tables.standing_setPhoto _ id _).trans ?_
          rw [hadd tables hstanding]
          rfl
        · refine ⟨_, ⟨result, hid, hresult, rfl⟩, ?_⟩
          simp only [List.append_assoc, List.cons_append, List.nil_append] at hs
          exact hs
  | error exc =>
      obtain rfl : progress = Progress.fail n exc := hprogress
      simp only [Progress.fail, PhotoRepository.markFailed, bind_eq, bind_assoc,
        pure_eq_ret, ret_bind]
      have hlength := length_truncate exc.text AnalyzerGrpcClient.maxErrorMessageLength
      refine ends_updated hE (p := q) hfirst (ends_committed hE (s := (some (.failed, n,
          some (AnalyzerGrpcClient.errorCodeFromException exc),
          some (AnalyzerGrpcClient.truncateErrorMessage exc.text
            AnalyzerGrpcClient.maxErrorMessageLength)), none)) ?_
        (ends_counted hE (ends_lastCount hE fun s hs => ⟨_, ⟨_, rfl, hlength, rfl⟩, ?_⟩)))
      · intro tables hstanding
        refine (Tables.standing_setPhoto tables id _).trans ?_
        simp only [hstanding, PhotoValues.advance, PhotoRepository.failedValues,
          Option.map_some, Option.getD_some, cut_errorCode]
      · simp only [List.append_assoc, List.cons_append, List.nil_append] at hs
        exact hs

/-- The operations of a call that makes `n` attempts, after its claim. -/
def claimedOps (E : Surroundings) (settings : Settings) (photoId objectKey : Str)
    (id : UUID) (n : Nat) (duration : Int) : List Op :=
  [.count .photoAnalysisStartedTotal 1, .monotonic] ++
    attemptsOps E settings photoId objectKey id n 1 ++
    [.monotonic, .count .photoAnalysisDurationSeconds duration] ++
    terminalOps id n (E.outcome n)

theorem analyzeClaimed_course (hE : E.LeavesAlone t id)
    (hexc : ∀ n exc, E.analyzer n = .error exc → exc.isException = true) {n : Nat}
    (hn : n = attemptsMade E.outcome settings.workerMaxAttempts.toNat)
    (hmax : 1 ≤ settings.workerMaxAttempts)
    {q : PhotoStatus × Nat × Option Str × Option Str} :
    Ends (logged (E.handler t)) (Underway t id (some q, none) [] 0 ops)
      (analyzeClaimed settings photoId objectKey id) (Ends.Exits (fun _ s =>
        PausesFrom settings.retryBackoffBaseSeconds n 1 ∧
          ∃ standing duration, Ended id n (kept (E.outcome n)) standing ∧
            Underway t id standing [] n
              (ops ++ claimedOps E settings photoId objectKey id n duration) s)
        (Spoiled (PausesFrom settings.retryBackoffBaseSeconds n 1))) := by
  have hpos : 1 ≤ n := hn ▸ (attemptsMade_spec E.outcome (by omega)).1
  have hturns : ((1 : Nat) + settings.workerMaxAttempts.toNat : Int) =
      settings.workerMaxAttempts + 1 := by omega
  unfold analyzeClaimed
  refine ends_counted hE (ends_quiet hE (fun c => ⟨_, _, rfl, rfl⟩) fun t0 => ?_)
  refine Ends.exits_bind _ (Spoiled _) (retryLoop_attempts hE hexc hn hmax
    (Nat.le_refl 1) hpos hturns fun h => h) ?_ fun _ _ h => h
  rintro progress s ⟨hprogress, hpauses, q, hs⟩
  suffices hlast : Ends (logged (E.handler t)) _ _ _ from hlast s hs
  refine ends_quiet hE (fun c => ⟨_, _, rfl, rfl⟩) fun t1 => ends_counted hE ?_
  refine (terminalWrite_course (PausesFrom settings.retryBackoffBaseSeconds n 1) hE
    hprogress).post ?_
  rintro (exc | value) s hs
  · exact hs
  · obtain ⟨standing, hended, hs⟩ := hs
    refine ⟨hpauses, standing, t1 - t0, hended, ?_⟩
    simp only [List.append_assoc, List.cons_append, List.nil_append] at hs
    simpa only [claimedOps, List.append_assoc, List.cons_append, List.nil_append] using hs

/-! ## What the log shows -/

/-- The statements of each committed transaction, after those that are open. -/
def transactions : List Stmt → List Op → List (List Stmt)
  | _, [] => []
  | stmts, .execute stmt :: ops => transactions (stmts ++ [stmt]) ops
  | stmts, .commit :: ops => stmts :: transactions [] ops
  | stmts, _ :: ops => transactions stmts ops

def attemptStmts (id : UUID) (i : Nat) : Except PyExc AnalyzePhotoResponse → Option (List Stmt)
  | .ok _ => none
  | .error exc => some [recordStmt id i exc]

theorem transactions_attempts {n : Nat} {rest : List Op} (is : List Nat) :
    transactions [] ((is.flatMap fun i =>
        attemptOps settings photoId objectKey id n i (E.outcome i)) ++ rest) =
      (is.filterMap fun i => attemptStmts id i (E.outcome i)) ++ transactions [] rest := by
  induction is with
  | nil => rfl
  | cons i is ih =>
      rw [List.flatMap_cons, List.append_assoc, List.filterMap_cons]
      cases E.outcome i with
      | ok response => exact ih
      | error exc =>
          simp only [attemptOps, attemptStmts]
          split
          · exact congrArg ([recordStmt id i exc] :: ·) ih
          · exact congrArg ([recordStmt id i exc] :: ·) ih

theorem transactions_terminal {n : Nat} {outcome : Except PyExc AnalyzePhotoResponse} :
    transactions [] (terminalOps id n outcome) = [terminalStmts id n outcome] := by
  cases outcome with
  | ok response => rfl
  | error exc => rfl

theorem asked_attempts {n : Nat} (is : List Nat) :
    (is.flatMap fun i => attemptOps settings photoId objectKey id n i
      (E.outcome i)).filterMap Op.asked = List.replicate is.length (photoId, objectKey) := by
  induction is with
  | nil => rfl
  | cons i is ih =>
      rw [List.flatMap_cons, List.filterMap_append, ih, List.length_cons,
        List.replicate_succ]
      cases E.outcome i with
      | ok response => rfl
      | error exc =>
          simp only [attemptOps]
          split <;> rfl

theorem failed_attempts {n : Nat} (is : List Nat) :
    (is.flatMap fun i => attemptOps settings photoId objectKey id n i
      (E.outcome i)).filterMap Op.failed = [] := by
  induction is with
  | nil => rfl
  | cons i is ih =>
      rw [List.flatMap_cons, List.filterMap_append, ih, List.append_nil]
      cases E.outcome i with
      | ok response => rfl
      | error exc =>
          simp only [attemptOps]
          split <;> rfl

theorem slept_attempts {n m i : Nat} (hi : 1 ≤ i) (hn : n + 1 = i + m)
    (hbefore : ∀ j, i ≤ j → j < n → final (E.outcome j) = false) :
    ((List.range' i m).flatMap fun i => attemptOps settings photoId objectKey id n i
      (E.outcome i)).filterMap Op.slept =
      (List.range' (i - 1) (n - i)).map fun j =>
        settings.retryBackoffBaseSeconds * 2 ^ j := by
  induction m generalizing i with
  | zero =>
      rw [show n - i = 0 by omega]
      rfl
  | succ m ih =>
      rw [List.range'_succ, List.flatMap_cons, List.filterMap_append]
      rcases Nat.lt_or_eq_of_le (show i ≤ n by omega) with hlt | rfl
      · obtain ⟨exc, hexc⟩ : ∃ exc, E.outcome i = .error exc := by
          cases houtcome : E.outcome i with
          | ok response => simpa [houtcome, final] using hbefore i (Nat.le_refl i) hlt
          | error exc => exact ⟨exc, rfl⟩
        rw [ih (Nat.le_succ_of_le hi) (by omega) fun j hj => hbefore j (by omega),
          show n - i = n - (i + 1) + 1 by omega, List.range'_succ, List.map_cons,
          show i + 1 - 1 = i - 1 + 1 by omega, hexc, attemptOps, if_pos hlt]
        rfl
      · obtain rfl : m = 0 := by omega
        rw [Nat.sub_self]
        cases E.outcome i with
        | ok response => rfl
        | error exc =>
            rw [attemptOps, if_neg (Nat.lt_irrefl i)]
            rfl

/--
What `n` attempts come to: the analyzer calls, the transactions, the pauses, the
failure counted and the photo.
-/
structure Retries (E : Surroundings) (settings : Settings) (photoId objectKey : Str)
    (id : UUID) (n : Nat) (ops : List Op) (standing : Standing) : Prop where
  asked : ops.filterMap Op.asked = List.replicate n (photoId, objectKey)
  committed : transactions [] ops =
    [PhotoRepository.claimStmt id] ::
      ((List.range' 1 n).filterMap fun i => attemptStmts id i (E.outcome i)) ++
      [terminalStmts id n (E.outcome n)]
  slept : ops.filterMap Op.slept =
    (List.range (n - 1)).map fun i => settings.retryBackoffBaseSeconds * 2 ^ i
  failed : ops.filterMap Op.failed = match E.outcome n with
    | .ok _ => []
    | .error exc =>
        if AnalyzerGrpcClient.classifyGrpcError exc = .noRetry then [py "no_retry"]
        else [py "retries_exhausted"]
  ended : Ended id n (E.outcome n) standing

theorem retries_of_ops {n : Nat} {duration : Int} (hn : 1 ≤ n)
    (hbefore : ∀ i, 1 ≤ i → i < n → final (E.outcome i) = false)
    (hended : Ended id n (E.outcome n) standing) :
    Retries E settings photoId objectKey id n
      ([.execute (PhotoRepository.claimStmt id), .commit] ++
        claimedOps E settings photoId objectKey id n duration) standing where
  asked := by
    have hterminal : (terminalOps id n (E.outcome n)).filterMap Op.asked = [] := by
      cases E.outcome n <;> rfl
    simp only [claimedOps, attemptsOps, List.filterMap_append, asked_attempts, hterminal,
      List.length_range', Nat.add_sub_cancel]
    simp [List.filterMap_cons, Op.asked]
  committed := by
    have hattempts : transactions [] (((List.range' 1 n).flatMap fun i =>
          attemptOps settings photoId objectKey id n i (E.outcome i)) ++
        ([.monotonic, .count .photoAnalysisDurationSeconds duration] ++
          terminalOps id n (E.outcome n))) = _ := transactions_attempts (List.range' 1 n)
    have hrest : transactions [] ([.monotonic, .count .photoAnalysisDurationSeconds
        duration] ++ terminalOps id n (E.outcome n)) =
          [terminalStmts id n (E.outcome n)] := transactions_terminal
    rw [hrest] at hattempts
    rw [claimedOps, attemptsOps, Nat.add_sub_cancel, List.append_assoc, List.append_assoc]
    exact congrArg ([PhotoRepository.claimStmt id] :: ·) hattempts
  slept := by
    have hterminal : (terminalOps id n (E.outcome n)).filterMap Op.slept = [] := by
      cases E.outcome n <;> rfl
    simp only [claimedOps, attemptsOps, List.filterMap_append, hterminal,
      slept_attempts (Nat.le_refl 1) (show n + 1 = 1 + (n + 1 - 1) by omega) hbefore]
    simp [List.filterMap_cons, Op.slept, List.range_eq_range']
  failed := by
    simp only [claimedOps, attemptsOps, List.filterMap_append, failed_attempts]
    cases E.outcome n with
    | ok response => rfl
    | error exc =>
        refine (show _ = [failureReason (AnalyzerGrpcClient.classifyGrpcError exc)]
          from rfl).trans ?_
        unfold failureReason
        dsimp only
        split
        · rfl
        · rfl
  ended := hended

/-- The call that finds the photo in world `w`, with the log of its operations. -/
def observe (E : Surroundings) (t : Tid) (settings : Settings) (photoId objectKey : Str)
    (w : World) : Except PyExc Unit × Course × Log :=
  (process settings photoId objectKey).run (logged (E.handler t)) (⟨w, 0, 0⟩, [])

theorem claimed_resolve {tables : Tables} {now : Time} {write : Write}
    (h : (PhotoRepository.claimStmt id).resolve now tables = .ok (some write)) :
    ∃ p, tables.photo id = some p ∧ p.status = .pending ∧
      write = .setPhoto id { status := some .processing } := by
  simp only [PhotoRepository.claimStmt, Stmt.resolve] at h
  split at h
  · cases h
  cases hp : tables.photo id with
  | none => simp [hp] at h
  | some p =>
      simp only [hp, Option.all_some, decide_eq_true_eq] at h
      split at h
      next hstatus =>
        split at h <;> cases h
        exact ⟨p, rfl, hstatus, rfl⟩
      next => cases h

/-- A photo whose claim can be won has no result. -/
theorem standing_of_pending {state : State} (h : Reachable settings state)
    {p : Photo} (hp : state.world.db.committed.photo id = some p)
    (hpending : p.status = .pending) :
    state.world.db.committed.analysis id = none := by
  obtain ⟨life, hshows⟩ := (reachable_inv h).life id _ (Tables.loaded_of_photo hp)
  obtain rfl : life = .pending := Life.eq_pending (hshows.status.symm.trans hpending)
  exact Option.map_eq_none_iff.mp hshows.result

/-- A call that won its claim and had all its writes succeed. -/
theorem of_claimed {n : Nat} {run : Except PyExc Unit × Course × Log} (hn : 1 ≤ n)
    (hbefore : ∀ i, 1 ≤ i → i < n → final (E.outcome i) = false)
    (h : Ends.Exits (fun _ s => PausesFrom settings.retryBackoffBaseSeconds n 1 ∧
      ∃ standing duration, Ended id n (kept (E.outcome n)) standing ∧
        Underway t id standing [] n ([.execute (PhotoRepository.claimStmt id)] ++
          [.commit] ++ claimedOps E settings photoId objectKey id n duration) s)
      (Spoiled (PausesFrom settings.retryBackoffBaseSeconds n 1)) run.1 run.2)
    (hwrites : WritesSucceed run.2.2) :
    (run.1 = .ok () ∧ Retries E settings photoId objectKey id n (run.2.2.map Sigma.fst)
      (run.2.1.world.db.committed.standing id)) ↔
      PausesFrom settings.retryBackoffBaseSeconds n 1 ∧ HashFits (E.outcome n) := by
  obtain ⟨exc | value, s⟩ := run
  · refine iff_of_false (fun hreturns => nomatch hreturns.1) fun hall => ?_
    rcases h with hspoiled | hendless
    · exact hspoiled hwrites
    · exact hendless hall.1
  · obtain ⟨hpauses, standing, duration, hended, hs⟩ := h
    rw [and_iff_right hpauses, ← ended_iff hended]
    dsimp only
    rw [hs.ops, hs.standing]
    exact ⟨fun hretries => hretries.2.ended,
      fun hwhole => ⟨rfl, retries_of_ops hn hbefore hwhole⟩⟩

end

/-- An analyzer that is late once. -/
def flaky : Surroundings where
  analyzer := fun n => if n = 0 then .error (.timeout (py "slow")) else .ok response
  clock := fun n => n
  others := fun _ w => w

/-- The claim has updated the photo's row. -/
def isWon (id : UUID) : Performed Op Op.Ans PyExc → Bool
  | ⟨.execute stmt, .ok rowcount⟩ =>
      stmt = PhotoRepository.claimStmt id && rowcount == (1 : Nat)
  | _ => false

theorem mem_of_isWon {id : UUID} {log : Log} (h : log.any (isWon id) = true) :
    ⟨.execute (PhotoRepository.claimStmt id), .ok 1⟩ ∈ log := by
  obtain ⟨⟨op, answer⟩, hmem, hwon⟩ := List.any_eq_true.mp h
  unfold isWon at hwon
  split at hwon
  next stmt rowcount heq =>
    simp only [Bool.and_eq_true, decide_eq_true_eq, beq_iff_eq] at hwon
    obtain ⟨rfl, rfl⟩ := hwon
    exact heq ▸ hmem
  next => cases hwon

/-- A call of task 5 wins the claim of the photo, and its writes succeed. -/
abbrev Observed (E : Surroundings) (state : State) : Prop :=
  state.world.db.writes 5 = [] ∧
    (observe E 5 defaultSettings jpegId.text (py "k") state.world).2.2.any
      (isWon jpegId) = true ∧
    WritesSucceed (observe E 5 defaultSettings jpegId.text (py "k") state.world).2.2

/-- A hash of 64 characters and a space. -/
def paddedHash : AnalyzePhotoResponse :=
  ⟨1, false, 0#64, List.replicate 64 97 ++ [32]⟩

end AnalysisProcessor

end PhotoAnalysis

import PhotoAnalysis.Foundation.Protocol
import PhotoAnalysis.Refinement.Footprints

/-!
# How the routines use the producer

`ensure_started`, `stop` and the publisher as a protocol over the fields and the
lock of one `KafkaEventProducer`.
-/

namespace PhotoAnalysis

open Foundation Program

/-- How far a task has come with the producer of its process. -/
inductive Mode where
  | away
  /-- it has read that the producer is not started -/
  | asking
  /-- `ensure_started` has returned to it -/
  | ready
  | knows (client : ClientId)
  /-- it was ready, and then read that the producer is gone -/
  | lost
  /-- it holds the lock, as in all that follow up to `closing` -/
  | inside
  | unstarted
  | empty
  | chosen (client : ClientId)
  | placed (client : ClientId)
  | live (client : ClientId)
  | broken (client : ClientId)
  | closing (started : Bool)
  /-- it has called `stop`, as in all that follow -/
  | standing
  /-- with the client that is to be stopped, if one is -/
  | stops (client : Option ClientId)
  | gone
  deriving DecidableEq, Repr

namespace Mode

def locked : Mode → Bool
  | inside | unstarted | empty | chosen _ | placed _ | live _ | broken _ | closing _ =>
      true
  | _ => false

def stopping : Mode → Bool
  | standing | stops _ | gone => true
  | _ => false

/-- `ensure_started` has returned, as far as the task knows. -/
def sure : Mode → Bool
  | ready | knows _ | lost => true
  | _ => false

/-- Between two turns. -/
def resting : Mode → Bool
  | away | ready | knows _ | lost => true
  | _ => false

/-- Where a task may end. -/
def done : Mode → Bool
  | away | ready | knows _ | lost | gone => true
  | _ => false

def reads : Mode → Bool
  | away | ready | knows _ | lost | inside | unstarted | standing => true
  | _ => false

/-- What the task makes of the fields it has read. -/
def read (self : KafkaEventProducer) : Mode → Mode
  | away => if self.started then ready else asking
  | inside => if self.started then closing true else unstarted
  | unstarted =>
      match self.producer with
      | some client => chosen client
      | none => empty
  | standing => stops (if self.started then self.producer else none)
  | ready | knows _ =>
      match self.producer, self.started with
      | some client, true => knows client
      | _, _ => lost
  | mode => mode

def allowed (app : Nat) (mode : Mode) : Op → Prop
  | .readProducer a => a = app ∧ mode.reads
  | .acquireStartLock a => a = app ∧ (mode = asking ∨ mode = lost)
  | .releaseStartLock a => a = app ∧ ∃ started, mode = closing started
  | .buildProducer => mode = empty
  | .setProducer a (some client) => a = app ∧ mode = chosen client
  | .setProducer a none => a = app ∧ ∃ client, mode = broken client
  | .startProducer client => mode = placed client
  | .setStarted a started => a = app ∧ started = true ∧ ∃ client, mode = live client
  | .stopProducer a client => a = app ∧ mode = stops client
  | .sendAndWait client _ _ => mode = knows client ∨ mode = lost
  | op => op.Within [.traceId] ∧ mode.resting

def next (mode : Mode) : (op : Op) → Except PyExc op.Ans → Option Mode
  | .readProducer _, .ok self => some (mode.read self)
  | .acquireStartLock _, .ok _ => some inside
  | .acquireStartLock _, .error _ => some away
  | .releaseStartLock _, .ok _ => some (if mode = closing true then ready else away)
  | .buildProducer, .ok client => some (chosen client)
  | .setProducer _ (some client), .ok _ => some (placed client)
  | .setProducer _ none, .ok _ => some (closing false)
  | .startProducer client, .ok _ => some (live client)
  | .startProducer client, .error exc =>
      some (if exc.isException then broken client else closing false)
  | .setStarted _ _, .ok _ => some (closing true)
  | .stopProducer _ _, _ => some gone
  | .readProducer _, .error _ | .releaseStartLock _, .error _ => none
  | .buildProducer, .error _ | .setProducer _ _, .error _ => none
  | .setStarted _ _, .error _ => none
  | _, _ => some mode

end Mode

/-- How a task treats the producer of process `app`. -/
def protocol (app : Nat) : Protocol Op Op.Ans PyExc Mode :=
  ⟨Mode.allowed app, Mode.next⟩

/-- Of no concern to the producer. -/
def Op.Aloof (op : Op) : Prop := op.Within [.traceId] ∧ ∀ app, op ≠ .readProducer app

section

variable {α : Type} {settings : Settings} {app : Nat} {mode : Mode}

theorem Mode.resting_of_sure (h : mode.sure) : mode.resting := by
  cases mode <;> first | rfl | cases h

theorem aloof_stays {program : Py α} {within : Mode → Prop}
    (hwithin : ∀ mode, within mode → mode.resting) (h : program.Uses Op.Aloof) :
    Stays (protocol app) within program := by
  refine Stays.uses h fun op mode hmode ⟨haside, hread⟩ => ?_
  cases op with
  | readProducer a => exact absurd rfl (hread a)
  | setProducer | setStarted | acquireStartLock | releaseStartLock | buildProducer
  | startProducer | stopProducer | sendAndWait =>
      simp [Op.Within, Op.concern] at haside
  | _ =>
      exact ⟨⟨haside, hwithin mode hmode⟩,
        fun answer mode' hnext => (Option.some.inj hnext).symm⟩

theorem wait_stays {op : Op} {within : Mode → Prop}
    (hwithin : ∀ mode, within mode → mode.resting)
    (h : decide (op.concern ∈ [.plain, .traceId]) = true)
    (hread : ∀ app, op ≠ .readProducer app) : Stays (protocol app) within (wait op) :=
  aloof_stays hwithin (uses_call.mpr
    ⟨(of_decide_eq_true h : op.concern ∈ [Concern.plain, .traceId]), hread⟩)

theorem wait_sure {op : Op} (h : decide (op.concern ∈ [.plain, .traceId]) = true)
    (hread : ∀ app, op ≠ .readProducer app) : Stays (protocol app) (·.sure) (wait op) :=
  wait_stays (fun _ => Mode.resting_of_sure) h hread

theorem Mode.done_of_resting (h : mode.resting) : mode.done := by
  cases mode <;> first | rfl | cases h

theorem wait_bind {op : Op} {next : op.Ans → Py α}
    {post : Except PyExc α → Mode → Prop} (hallowed : mode.allowed app op)
    (hok : ∀ value mode', mode.next op (.ok value) = some mode' →
      (next value).Follows (protocol app) post mode')
    (herror : ∀ exc mode', mode.next op (.error exc) = some mode' →
      post (.error exc) mode') :
    ((wait op).bind next).Follows (protocol app) post mode := by
  refine ⟨hallowed, fun answer mode' hnext => ?_⟩
  cases answer with
  | ok value => exact hok value mode' hnext
  | error exc => exact herror exc mode' hnext

theorem read_bind {next : KafkaEventProducer → Py α}
    {post : Except PyExc α → Mode → Prop} (hreads : mode.reads)
    (h : ∀ self, (next self).Follows (protocol app) post (mode.read self)) :
    ((wait (.readProducer app)).bind next).Follows (protocol app) post mode := by
  refine wait_bind ⟨rfl, hreads⟩ (fun self mode' hnext => ?_) nofun
  cases Option.some.inj hnext
  exact h self

/-! ## Starting -/

/-- The client that is to be started. -/
theorem currentProducer_follows :
    (KafkaEventProducer.currentProducer app).Follows (protocol app) (fun outcome mode' =>
      match outcome with
      | .ok client => mode' = .chosen client
      | .error _ => False) .unstarted := by
  refine read_bind rfl fun self => ?_
  cases hproducer : self.producer with
  | some client =>
      simp only [Mode.read, hproducer]
      exact rfl
  | none =>
      simp only [Mode.read, hproducer]
      refine Follows.call rfl ?_
      rintro (exc | client) mode' hnext
      · cases hnext
      · exact (Option.some.inj hnext).symm

/-- Start the client; what fails to start is taken out of the field again. -/
def startClient (app : Nat) (client : ClientId) : Py Unit := do
  wait (.setProducer app (some client))
  (wait (.startProducer client)).tryExcept fun exc =>
    if exc.isException then do
      wait (.setProducer app none)
      .raise exc
    else .raise exc
  wait (.setStarted app true)

/-- About to give the lock back, with the producer started unless there was an exception. -/
def Mode.Closes (outcome : Except PyExc Unit) (mode : Mode) : Prop :=
  ∃ started, mode = .closing started ∧ (outcome.isOk → started = true)

theorem startClient_follows (client : ClientId) :
    (startClient app client).Follows (protocol app) Mode.Closes (.chosen client) := by
  refine wait_bind ⟨rfl, rfl⟩ (fun _ mode' hplaced => ?_) nofun
  cases Option.some.inj hplaced
  refine Follows.bind (fun _ mode' => mode' = .live client)
    (Follows.tryExcept (fun exc mode' => mode' =
      if exc.isException then .broken client else .closing false)
      (Follows.call rfl ?_) fun exc mode' hfailed => ?_) fun _ mode' hlive => ?_
  · rintro (exc | value) mode' hnext <;> exact (Option.some.inj hnext).symm
  · subst hfailed
    split
    next hexc =>
      refine wait_bind ⟨rfl, client, rfl⟩ (fun _ mode' hnext => ?_) nofun
      exact ⟨false, (Option.some.inj hnext).symm, nofun⟩
    next => exact ⟨false, rfl, nofun⟩
  · subst hlive
    refine Follows.call ⟨rfl, rfl, client, rfl⟩ ?_
    rintro (exc | value) mode' hnext
    · cases hnext
    · exact ⟨true, (Option.some.inj hnext).symm, fun _ => rfl⟩

/-- What `ensure_started` leaves behind. -/
def Mode.Ensured : Except PyExc Unit → Mode → Prop
  | .ok _, mode => mode.sure
  | .error _, mode => mode.resting

theorem withStartLock_follows {body : Py Unit} (h : mode = .asking ∨ mode = .lost)
    (hbody : body.Follows (protocol app) Mode.Closes .inside) :
    (KafkaEventProducer.withStartLock app body).Follows (protocol app) Mode.Ensured
      mode := by
  refine wait_bind ⟨rfl, h⟩ (fun _ mode' hinside => ?_) fun exc mode' hnext => ?_
  · cases Option.some.inj hinside
    refine Follows.tryFinally _ hbody ?_
    rintro outcome mode' ⟨started, rfl, hstarted⟩
    refine Follows.call ⟨rfl, started, rfl⟩ ?_
    rintro (exc | value) mode' hnext
    · cases hnext
    · cases Option.some.inj hnext
      cases outcome with
      | ok value => rw [hstarted rfl]; rfl
      | error exc => cases started <;> rfl
  · cases Option.some.inj hnext
    rfl

theorem ensureStarted_eq : KafkaEventProducer.ensureStarted app =
    (wait (.readProducer app)).bind fun self =>
      if self.started then pure ()
      else KafkaEventProducer.withStartLock app
        ((wait (.readProducer app)).bind fun self =>
          if self.started then pure ()
          else (KafkaEventProducer.currentProducer app).bind (startClient app)) := rfl

theorem ensureStarted_follows (h : mode.resting) :
    (KafkaEventProducer.ensureStarted app).Follows (protocol app) Mode.Ensured mode := by
  rw [ensureStarted_eq]
  refine read_bind (by cases mode <;> first | rfl | cases h) fun self => ?_
  cases hstarted : self.started with
  | true =>
      change (mode.read self).sure = true
      obtain ⟨producer, started, lock⟩ := self
      cases hstarted
      cases mode <;> cases h <;> cases producer <;> rfl
  | false =>
      refine withStartLock_follows ?_ (read_bind rfl fun self => ?_)
      · obtain ⟨producer, started, lock⟩ := self
        cases hstarted
        cases mode <;> cases h <;> cases producer <;> simp [Mode.read]
      · cases hagain : self.started with
        | true =>
            simp only [Mode.read, hagain]
            exact ⟨true, rfl, fun _ => rfl⟩
        | false =>
            simp only [Mode.read, hagain]
            refine Follows.bind (fun client mode' => mode' = .chosen client)
              (currentProducer_follows.mono ?_) ?_
            · rintro (exc | client) mode' hmode
              · exact hmode.elim
              · exact hmode
            · rintro client mode' rfl
              exact startClient_follows client

/-! ## Stopping -/

theorem stop_follows : (KafkaEventProducer.stop app).Follows (protocol app)
    (fun _ mode' => mode' = .gone) .standing :=
  read_bind rfl fun _ => Follows.call ⟨rfl, rfl⟩ fun _ _ hnext =>
    (Option.some.inj hnext).symm

/-! ## Publishing -/

theorem encodeUtf8_stays (text : Str) {within : Mode → Prop} :
    Stays (protocol app) within (KafkaEventProducer.encodeUtf8 text) := by
  unfold KafkaEventProducer.encodeUtf8
  split
  · exact .ret _
  · exact .raise _

theorem publish_stays (photoId objectKey : Str) (createdAt : Time) (traceId : Str) :
    Stays (protocol app) (·.sure) (KafkaEventProducer.publishAnalysisRequested app
      photoId objectKey createdAt traceId) := by
  intro mode h
  refine read_bind (by cases mode <;> first | rfl | cases h) fun self => ?_
  have hread : (mode.read self).sure := by
    obtain ⟨producer, started, lock⟩ := self
    cases mode <;> cases h <;> cases producer <;> cases started <;> rfl
  split
  next client hproducer hstarted =>
    have hknows : mode.read self = .knows client ∨ mode.read self = .lost := by
      obtain ⟨producer, started, lock⟩ := self
      cases hproducer
      cases hstarted
      cases mode <;> cases h <;> simp [Mode.read]
    generalize mode.read self = mode at hread hknows
    have hsend : ∀ value key, (wait (.sendAndWait client value key)).Follows
        (protocol app) (fun _ mode' => mode'.sure) mode := by
      refine fun value key => Follows.call hknows fun answer mode' hnext => ?_
      cases Option.some.inj hnext
      exact hread
    have hencode : ∀ text, (KafkaEventProducer.encodeUtf8 text).Follows (protocol app)
        (fun _ mode' => mode' = mode) mode :=
      fun text => encodeUtf8_stays text mode rfl
    refine Follows.bind (fun _ => (· = mode)) ((hencode _).mono ?_) ?_
    · rintro (exc | value) mode' rfl <;> first | rfl | exact hread
    rintro value mode' rfl
    refine Follows.bind (fun _ mode'' => mode'' = mode') ((hencode _).mono ?_) ?_
    · rintro (exc | key) mode'' rfl <;> first | rfl | exact hread
    rintro key mode'' rfl
    exact hsend value key
  next => exact hread

theorem publishRows_stays (rows : List Photo) :
    Stays (protocol app) (·.sure) (Outbox.publishRows app rows) := by
  induction rows with
  | nil => exact .ret _
  | cons row rows ih =>
      have hid : Stays (protocol app) (·.sure) (Outbox.rowTraceId row) := by
        unfold Outbox.rowTraceId
        split
        · exact .ret _
        · exact .bind (wait_sure rfl nofun) fun _ => .ret _
      have htrace : Stays (protocol app) (·.sure) traceIdVar := by
        refine .bind (wait_sure rfl nofun) fun value => ?_
        cases value with
        | str traceId => exact .ret _
        | _ => exact .raise _
      have hmark : Stays (protocol app) (·.sure)
          (PhotoRepository.markPublished row.photoId) :=
        .bind (wait_sure rfl nofun) fun _ => .bind (wait_sure rfl nofun) fun _ => .ret _
      have hrow : Stays (protocol app) (·.sure) (Outbox.publishRow app row) :=
        .bind htrace fun _ => .bind (publish_stays _ _ _ _) fun _ => hmark
      refine .bind hid fun text => .bind (wait_sure rfl nofun) fun token =>
        .bind (.tryFinally (.tryExcept hrow fun exc => ?_)
          (.bind (wait_sure rfl nofun) fun _ => .ret _)) fun _ => ih
      split
      · exact wait_sure rfl nofun
      · exact .raise _

theorem publishBatch_stays :
    Stays (protocol app) (·.sure) (Outbox.publishBatch settings app) :=
  .tryFinally (.bind (wait_sure rfl nofun) fun rows =>
    .bind (publishRows_stays rows) fun _ => wait_sure rfl nofun) (wait_sure rfl nofun)

theorem poll_stays : Stays (protocol app) (·.resting) (Outbox.poll settings app) := by
  have hcatch : ∀ exc : PyExc, Stays (protocol app) (·.resting)
      (if exc.isException then pure () else .raise exc : Py Unit) := by
    intro exc
    split
    · exact .ret _
    · exact .raise _
  intro mode h
  refine Follows.bind Mode.Ensured (Follows.attempt (ensureStarted_follows h)) ?_
  rintro (exc | value) mode' hmode'
  · exact hcatch exc mode' hmode'
  · refine Follows.tryExcept (fun _ mode => mode.resting)
      ((publishBatch_stays mode' hmode').mono ?_) hcatch
    rintro (exc | value) mode' hsure <;> exact Mode.resting_of_sure hsure

theorem turn_stays : Stays (protocol app) (·.resting) (Outbox.turn settings app) := by
  refine .bind (wait_stays (fun _ h => h) rfl nofun) fun stop => ?_
  split
  · exact .ret _
  refine .bind poll_stays fun _ => .bind (.tryExcept (wait_stays (fun _ h => h) rfl nofun)
    fun exc => ?_) fun _ => .ret _
  split
  · exact .ret _
  · exact .raise _

end

/-! ## The tasks of a process -/

/-- The process whose producer a task uses. -/
def Entry.app : Entry → Option Nat
  | startProducer app | stopProducer app | outboxPublisher app => some app
  | _ => none

/-- A task that goes round a loop. -/
def Entry.Loops (entry : Entry) : Prop := ∃ app, entry = .outboxPublisher app

def Entry.mode : Entry → Mode
  | stopProducer _ => .standing
  | _ => .away

/-- How a turn may leave the producer; only a publisher has another turn. -/
def Entry.Leaves (entry : Entry) : Except PyExc (Option Reply) → Mode → Prop
  | .ok none, mode => entry.Loops ∧ mode.resting
  | _, mode => mode.done

theorem routine_follows (settings : Settings) {entry : Entry} {app : Nat}
    (h : entry.app = some app) :
    (routine settings entry).first.Follows (protocol app) entry.Leaves entry.mode ∧
      (entry.Loops → ∀ mode, mode.resting →
        (routine settings entry).loop.Follows (protocol app) entry.Leaves mode) := by
  have hcatch : ∀ {mode : Mode} {exc : PyExc}, mode.done →
      (if exc.isException then pure () else .raise exc : Py Unit).Follows (protocol app)
        (fun _ mode' => mode'.done) mode := by
    intro mode exc hdone
    split <;> exact hdone
  have honce : ∀ {body : Py Unit} {mode : Mode},
      body.Follows (protocol app) (fun _ mode' => mode'.done) mode →
      (once (do body; pure .stopped)).first.Follows (protocol app) entry.Leaves mode := by
    intro body mode hbody
    change ((body.bind fun _ => .ret Reply.stopped).bind fun reply =>
      .ret (some reply)).Follows (protocol app) entry.Leaves mode
    rw [bind_assoc]
    refine Follows.bind (fun _ mode' => mode'.done) (hbody.mono ?_) ?_
    · rintro (exc | value) mode' hdone <;> exact hdone
    · exact fun _ mode' hdone => hdone
  cases entry with
  | startProducer b =>
      cases h
      refine ⟨honce (Follows.tryExcept (fun _ mode => mode.done) ?_
        fun exc mode hdone => hcatch hdone), nofun⟩
      refine (ensureStarted_follows rfl).mono ?_
      rintro (exc | value) mode hmode
      · exact Mode.done_of_resting hmode
      · exact Mode.done_of_resting (Mode.resting_of_sure hmode)
  | stopProducer b =>
      cases h
      refine ⟨honce (Follows.tryExcept (fun _ mode => mode.done) ?_
        fun exc mode hdone => hcatch hdone), nofun⟩
      refine stop_follows.mono ?_
      rintro (exc | value) mode rfl <;> rfl
  | outboxPublisher b =>
      cases h
      have hturn : ∀ mode, mode.resting → (Outbox.turn settings app).Follows
          (protocol app) (Entry.Leaves (.outboxPublisher app)) mode := by
        refine fun mode hmode => (turn_stays mode hmode).mono ?_
        rintro (exc | (_ | reply)) mode hmode
        · exact Mode.done_of_resting hmode
        · exact ⟨⟨app, rfl⟩, hmode⟩
        · exact Mode.done_of_resting hmode
      exact ⟨hturn .away rfl, fun _ => hturn⟩
  | _ => cases h

end PhotoAnalysis

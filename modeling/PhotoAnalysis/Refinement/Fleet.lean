import PhotoAnalysis.Refinement.Lifecycle
import PhotoAnalysis.Refinement.Safety

/-!
# The producers by themselves

What remains of the system when only the `KafkaEventProducer` of each process is
looked at: its fields, the clients built so far, and how far each task has come
with it.  The system refines this.
-/

namespace PhotoAnalysis

open Foundation Program

/-- An operation with its answer. -/
abbrev Deed := Performed Op Op.Ans PyExc

structure Fleet where
  self : Nat → KafkaEventProducer
  clients : ClientId
  tasks : Tid → Option (Nat × Mode)
  /-- what the tasks of each process have performed -/
  deeds : List (Nat × Deed)

/-- What an operation of task `t` makes of the fields and of the clients. -/
def Effect (t : Tid) (self : KafkaEventProducer) (clients : ClientId) :
    (op : Op) → Except PyExc op.Ans → KafkaEventProducer → ClientId → Prop
  | .readProducer _, .ok seen, self', clients' =>
      seen = self ∧ self' = self ∧ clients' = clients
  | .setProducer _ producer, .ok _, self', clients' =>
      self' = { self with producer := producer } ∧ clients' = clients
  | .setStarted _ started, .ok _, self', clients' =>
      self' = { self with started := started } ∧ clients' = clients
  | .acquireStartLock _, .ok _, self', clients' =>
      self.startLock = none ∧ self' = { self with startLock := some t } ∧
        clients' = clients
  | .releaseStartLock _, .ok _, self', clients' =>
      self' = { self with startLock := none } ∧ clients' = clients
  | .buildProducer, .ok client, self', clients' =>
      client = clients ∧ self' = self ∧ clients' = clients + 1
  | .stopProducer _ _, .ok _, self', clients' =>
      self' = { self with started := false, producer := none } ∧ clients' = clients
  | _, _, self', clients' => self' = self ∧ clients' = clients

namespace Fleet

def initial : Fleet := ⟨fun _ => {}, 0, fun _ => none, []⟩

/-- Task `t` of process `app` has performed `deed`. -/
def act (F : Fleet) (t : Tid) (app : Nat) (mode : Mode) (self : KafkaEventProducer)
    (clients : ClientId) (deed : Deed) : Fleet where
  self := Function.update F.self app self
  clients := clients
  tasks := Function.update F.tasks t (some (app, mode))
  deeds := (app, deed) :: F.deeds

/-- Task `t` goes on as `task`, which is nothing when it ends. -/
def put (F : Fleet) (t : Tid) (task : Option (Nat × Mode)) : Fleet :=
  { F with tasks := Function.update F.tasks t task }

section

variable {F : Fleet} {t : Tid} {app : Nat} {mode : Mode} {self : KafkaEventProducer}
variable {clients : ClientId} {deed : Deed}

@[simp] theorem act_clients : (F.act t app mode self clients deed).clients = clients := rfl

@[simp] theorem act_self : (F.act t app mode self clients deed).self app = self :=
  Function.update_self ..

theorem act_self_of_ne {b : Nat} (h : b ≠ app) :
    (F.act t app mode self clients deed).self b = F.self b :=
  Function.update_of_ne h ..

theorem mem_act {b : Nat} {deed' : Deed} :
    (b, deed') ∈ (F.act t app mode self clients deed).deeds ↔
      b = app ∧ deed' = deed ∨ (b, deed') ∈ F.deeds := by
  simp only [act, List.mem_cons, Prod.mk.injEq]

theorem tasks_act {u : Tid} {pair : Nat × Mode}
    (h : (F.act t app mode self clients deed).tasks u = some pair) :
    u = t ∧ pair = (app, mode) ∨ u ≠ t ∧ F.tasks u = some pair := by
  by_cases hsame : u = t
  · subst hsame
    exact .inl ⟨rfl, Option.some.inj (h.symm.trans (Function.update_self ..))⟩
  · exact .inr ⟨hsame, (Function.update_of_ne hsame ..).symm.trans h⟩

/-- The tasks of a process do not notice what another process does. -/
theorem tasks_elsewhere {b u : Tid} {m m' : Mode} (ht : F.tasks t = some (app, mode))
    (hb : b ≠ app) :
    (F.act t app m self clients deed).tasks u = some (b, m') ↔
      F.tasks u = some (b, m') := by
  constructor
  · intro hu
    rcases tasks_act hu with ⟨-, heq⟩ | ⟨-, hu⟩
    · cases heq
      exact absurd rfl hb
    · exact hu
  · intro hu
    refine (Function.update_of_ne ?_ ..).trans hu
    rintro rfl
    cases ht.symm.trans hu
    exact hb rfl

theorem tasks_put {u : Tid} {task : Option (Nat × Mode)} {pair : Nat × Mode}
    (h : (F.put t task).tasks u = some pair) :
    u = t ∧ task = some pair ∨ u ≠ t ∧ F.tasks u = some pair := by
  by_cases hsame : u = t
  · subst hsame
    have hself : (F.put u task).tasks u = task := Function.update_self ..
    exact .inl ⟨rfl, hself.symm.trans h⟩
  · exact .inr ⟨hsame, (Function.update_of_ne hsame ..).symm.trans h⟩

end

/-- `may` tells when a task of a process may begin. -/
inductive Step (may : Fleet → Nat → Mode → Prop) : Fleet → Fleet → Prop where
  | act {F : Fleet} (t : Tid) (app : Nat) (mode mode' : Mode) (op : Op)
      (answer : Except PyExc op.Ans) (self' : KafkaEventProducer) (clients' : ClientId)
      (htask : F.tasks t = some (app, mode)) (hallowed : mode.allowed app op)
      (hnext : mode.next op answer = some mode')
      (heffect : Effect t (F.self app) F.clients op answer self' clients') :
      Step may F (F.act t app mode' self' clients' ⟨op, answer⟩)
  | begin {F : Fleet} (t : Tid) (app : Nat) (mode : Mode) (hnew : F.tasks t = none)
      (hmode : mode = .away ∨ mode = .standing) (hmay : may F app mode) :
      Step may F (F.put t (some (app, mode)))
  | finish {F : Fleet} (t : Tid) (app : Nat) (mode : Mode)
      (htask : F.tasks t = some (app, mode)) (hdone : mode.done) :
      Step may F (F.put t none)

inductive Reach (may : Fleet → Nat → Mode → Prop) : Fleet → Prop where
  | initial : Reach may initial
  | step {F F' : Fleet} (h : Reach may F) (hstep : Step may F F') : Reach may F'

end Fleet

/-! ## What a task can do -/

/-- One operation of task `t`: mode, fields and clients before and after it. -/
inductive Passage (t : Tid) (app : Nat) : Mode → KafkaEventProducer → ClientId → Deed →
    Mode → KafkaEventProducer → ClientId → Prop where
  | look (mode : Mode) (self : KafkaEventProducer) (n : ClientId) (hreads : mode.reads) :
      Passage t app mode self n ⟨.readProducer app, .ok self⟩ (mode.read self) self n
  | lock (mode : Mode) (self : KafkaEventProducer) (n : ClientId)
      (hmode : mode = .asking ∨ mode = .lost) (hfree : self.startLock = none) :
      Passage t app mode self n ⟨.acquireStartLock app, .ok ()⟩ .inside
        { self with startLock := some t } n
  | refused (mode : Mode) (self : KafkaEventProducer) (n : ClientId) (exc : PyExc)
      (hmode : mode = .asking ∨ mode = .lost) :
      Passage t app mode self n ⟨.acquireStartLock app, .error exc⟩ .away self n
  | unlock (started : Bool) (self : KafkaEventProducer) (n : ClientId) :
      Passage t app (.closing started) self n ⟨.releaseStartLock app, .ok ()⟩
        (if started then .ready else .away) { self with startLock := none } n
  | build (self : KafkaEventProducer) (n : ClientId) :
      Passage t app .empty self n ⟨.buildProducer, .ok n⟩ (.chosen n) self (n + 1)
  | place (client : ClientId) (self : KafkaEventProducer) (n : ClientId) :
      Passage t app (.chosen client) self n ⟨.setProducer app (some client), .ok ()⟩
        (.placed client) { self with producer := some client } n
  | started (client : ClientId) (self : KafkaEventProducer) (n : ClientId) :
      Passage t app (.placed client) self n ⟨.startProducer client, .ok ()⟩ (.live client)
        self n
  | failed (client : ClientId) (self : KafkaEventProducer) (n : ClientId) (exc : PyExc) :
      Passage t app (.placed client) self n ⟨.startProducer client, .error exc⟩
        (if exc.isException then .broken client else .closing false) self n
  | mark (client : ClientId) (self : KafkaEventProducer) (n : ClientId) :
      Passage t app (.live client) self n ⟨.setStarted app true, .ok ()⟩ (.closing true)
        { self with started := true } n
  | discard (client : ClientId) (self : KafkaEventProducer) (n : ClientId) :
      Passage t app (.broken client) self n ⟨.setProducer app none, .ok ()⟩
        (.closing false) { self with producer := none } n
  | stopped (client : Option ClientId) (self : KafkaEventProducer) (n : ClientId) :
      Passage t app (.stops client) self n ⟨.stopProducer app client, .ok ()⟩ .gone
        { self with started := false, producer := none } n
  | unstopped (client : Option ClientId) (self : KafkaEventProducer) (n : ClientId)
      (exc : PyExc) :
      Passage t app (.stops client) self n ⟨.stopProducer app client, .error exc⟩ .gone
        self n
  | aside (mode : Mode) (self : KafkaEventProducer) (n : ClientId) (op : Op)
      (answer : Except PyExc op.Ans) (hstart : ∀ client, op ≠ .startProducer client)
      (hstop : ∀ client, op ≠ .stopProducer app client) :
      Passage t app mode self n ⟨op, answer⟩ mode self n

theorem passage_of_effect {t : Tid} {app : Nat} {mode mode' : Mode}
    {self self' : KafkaEventProducer} {n n' : ClientId} {op : Op}
    {answer : Except PyExc op.Ans} (hallowed : mode.allowed app op)
    (hnext : mode.next op answer = some mode')
    (heffect : Effect t self n op answer self' n') :
    Passage t app mode self n ⟨op, answer⟩ mode' self' n' := by
  cases op with
  | readProducer a =>
      obtain ⟨rfl, hreads⟩ := hallowed
      rcases answer with exc | seen
      · cases hnext
      · obtain ⟨rfl, rfl, rfl⟩ := heffect
        cases Option.some.inj hnext
        exact .look mode _ _ hreads
  | acquireStartLock a =>
      obtain ⟨rfl, hmode⟩ := hallowed
      rcases answer with exc | value
      · obtain ⟨rfl, rfl⟩ := heffect
        cases Option.some.inj hnext
        exact .refused mode _ _ exc hmode
      · obtain ⟨hfree, rfl, rfl⟩ := heffect
        cases Option.some.inj hnext
        exact .lock mode _ _ hmode hfree
  | releaseStartLock a =>
      obtain ⟨rfl, started, rfl⟩ := hallowed
      rcases answer with exc | value
      · cases hnext
      · obtain ⟨rfl, rfl⟩ := heffect
        cases Option.some.inj hnext
        cases started
        · exact .unlock false _ _
        · exact .unlock true _ _
  | buildProducer =>
      cases hallowed
      rcases answer with exc | client
      · cases hnext
      · obtain ⟨rfl, rfl, rfl⟩ := heffect
        cases Option.some.inj hnext
        exact .build _ _
  | setProducer a producer =>
      rcases producer with - | client
      · obtain ⟨rfl, client, rfl⟩ := hallowed
        rcases answer with exc | value
        · cases hnext
        · obtain ⟨rfl, rfl⟩ := heffect
          cases Option.some.inj hnext
          exact .discard client _ _
      · obtain ⟨rfl, rfl⟩ := hallowed
        rcases answer with exc | value
        · cases hnext
        · obtain ⟨rfl, rfl⟩ := heffect
          cases Option.some.inj hnext
          exact .place client _ _
  | setStarted a started =>
      obtain ⟨rfl, rfl, client, rfl⟩ := hallowed
      rcases answer with exc | value
      · cases hnext
      · obtain ⟨rfl, rfl⟩ := heffect
        cases Option.some.inj hnext
        exact .mark client _ _
  | startProducer client =>
      cases hallowed
      rcases answer with exc | value
      · obtain ⟨rfl, rfl⟩ := heffect
        cases Option.some.inj hnext
        exact .failed client _ _ exc
      · obtain ⟨rfl, rfl⟩ := heffect
        cases Option.some.inj hnext
        exact .started client _ _
  | stopProducer a client =>
      obtain ⟨rfl, rfl⟩ := hallowed
      rcases answer with exc | value
      · obtain ⟨rfl, rfl⟩ := heffect
        cases Option.some.inj hnext
        exact .unstopped client _ _ exc
      · obtain ⟨rfl, rfl⟩ := heffect
        cases Option.some.inj hnext
        exact .stopped client _ _
  | _ =>
      have hsame : mode' = mode ∧ self' = self ∧ n' = n := by
        cases answer <;> exact ⟨(Option.some.inj hnext).symm, heffect⟩
      obtain ⟨rfl, rfl, rfl⟩ := hsame
      exact .aside _ _ _ _ answer nofun nofun

/-- Who has called `stop` and who has not stays the same. -/
theorem Passage.stopping {t : Tid} {app : Nat} {mode mode' : Mode}
    {self self' : KafkaEventProducer} {n n' : ClientId} {deed : Deed}
    (h : Passage t app mode self n deed mode' self' n') :
    mode'.stopping = mode.stopping := by
  cases h with
  | look mode self n hreads =>
      obtain ⟨producer, started, lock⟩ := self
      cases mode <;> cases hreads <;> cases producer <;> cases started <;> rfl
  | lock mode self n hmode | refused mode self n exc hmode =>
      rcases hmode with rfl | rfl <;> rfl
  | unlock started => cases started <;> rfl
  | failed client self n exc => cases exc <;> rfl
  | _ => rfl

/-- The client a task is about to start, starts or has tried to. -/
def Mode.client : Mode → Option ClientId
  | chosen client | placed client | live client | broken client => some client
  | _ => none

namespace Passage

variable {t : Tid} {app : Nat} {mode mode' : Mode} {self self' : KafkaEventProducer}
variable {n n' : ClientId} {deed : Deed}

/-- The lock stays as it is, is taken, or is given back. -/
theorem lock_cases (h : Passage t app mode self n deed mode' self' n') :
    (self'.startLock = self.startLock ∧ (mode'.locked = true → mode.locked = true)) ∨
      (self.startLock = none ∧ self'.startLock = some t) ∨
      (mode.locked = true ∧ mode'.locked = false) := by
  cases h with
  | look mode self n hreads =>
      refine .inl ⟨rfl, fun hlocked => ?_⟩
      obtain ⟨producer, started, lock⟩ := self
      cases mode <;> cases hreads <;> first
        | rfl
        | (cases producer <;> cases started <;> cases hlocked)
  | lock mode self n hmode hfree => exact .inr (.inl ⟨hfree, rfl⟩)
  | refused => exact .inl ⟨rfl, nofun⟩
  | unlock started => exact .inr (.inr ⟨rfl, by cases started <;> rfl⟩)
  | failed | build | place | started | mark | discard => exact .inl ⟨rfl, fun _ => rfl⟩
  | stopped | unstopped => exact .inl ⟨rfl, nofun⟩
  | aside => exact .inl ⟨rfl, fun h => h⟩

theorem clients_le (h : Passage t app mode self n deed mode' self' n') : n ≤ n' := by
  cases h <;> first | exact Nat.le_refl _ | exact Nat.le_succ _

theorem client_cases (h : Passage t app mode self n deed mode' self' n') {c : ClientId}
    (hc : mode'.client = some c) :
    mode.client = some c ∨ self.producer = some c ∨ c = n ∧ n' = n + 1 := by
  cases h with
  | look mode self n hreads =>
      obtain ⟨producer, started, lock⟩ := self
      cases mode <;> cases hreads <;> cases producer <;> cases started <;> cases hc <;>
        exact .inr (.inl rfl)
  | unlock started => cases started <;> cases hc
  | failed client self n exc => cases exc <;> first | exact .inl hc | cases hc
  | build => exact .inr (.inr ⟨(Option.some.inj hc).symm, rfl⟩)
  | place | started => exact .inl hc
  | aside => exact .inl hc
  | _ => cases hc

theorem producer_cases (h : Passage t app mode self n deed mode' self' n')
    {c : ClientId} (hc : self'.producer = some c) :
    self.producer = some c ∨ mode = .chosen c := by
  cases h with
  | place => exact .inr (by cases hc; rfl)
  | discard | stopped => cases hc
  | _ => exact .inl hc

theorem start_placed {c : ClientId} {answer : Except PyExc Unit}
    (h : Passage t app mode self n ⟨.startProducer c, answer⟩ mode' self' n') :
    mode = .placed c := by
  cases h with
  | aside _ _ _ _ _ hstart => exact absurd rfl (hstart c)
  | started | failed => rfl

end Passage

namespace Fleet

/-- The lock has one holder, and no client is used before it is built. -/
structure Sound (F : Fleet) (app : Nat) : Prop where
  lock : ∀ t mode, F.tasks t = some (app, mode) → mode.locked = true →
    (F.self app).startLock = some t
  field : ∀ client, (F.self app).producer = some client → client < F.clients
  mode : ∀ t mode client, F.tasks t = some (app, mode) → mode.client = some client →
    client < F.clients
  deed : ∀ client answer, (app, ⟨.startProducer client, answer⟩) ∈ F.deeds →
    client < F.clients

variable {may : Fleet → Nat → Mode → Prop} {F F' : Fleet} {app : Nat}

/-- Of what holds of a process: what its own tasks do, and what the others do. -/
theorem Reach.induct {P : Fleet → Prop} (h : Reach may F) (hinitial : P Fleet.initial)
    (hact : ∀ {F t mode mode' self' clients' deed}, Reach may F → P F →
      F.tasks t = some (app, mode) →
      Passage t app mode (F.self app) F.clients deed mode' self' clients' →
      P (F.act t app mode' self' clients' deed))
    (helsewhere : ∀ {F t b mode mode' self' clients' deed}, app ≠ b → P F →
      F.tasks t = some (b, mode) → F.clients ≤ clients' →
      P (F.act t b mode' self' clients' deed))
    (hbegin : ∀ {F t b mode}, P F → F.tasks t = none →
      (mode = .away ∨ mode = .standing) → may F b mode → P (F.put t (some (b, mode))))
    (hfinish : ∀ {F t b mode}, P F → F.tasks t = some (b, mode) → mode.done →
      P (F.put t none)) : P F := by
  induction h with
  | initial => exact hinitial
  | step h hstep ih =>
      cases hstep with
      | act t b mode mode' op answer self' clients' htask hallowed hnext heffect =>
          have hp := passage_of_effect hallowed hnext heffect
          by_cases hb : app = b
          · subst hb
            exact hact h ih htask hp
          · exact helsewhere hb ih htask hp.clients_le
      | begin t b mode hnew hmode hmay => exact hbegin ih hnew hmode hmay
      | finish t b mode htask hdone => exact hfinish ih htask hdone

theorem Sound.initial : Sound Fleet.initial app where
  lock := nofun
  field := nofun
  mode := nofun
  deed := nofun

theorem Sound.put {t : Tid} {task : Option (Nat × Mode)} (h : F.Sound app)
    (htask : ∀ mode, task = some (app, mode) → mode = .away ∨ mode = .standing) :
    (F.put t task).Sound app where
  lock := fun u mode hu hlocked => by
    rcases tasks_put hu with ⟨-, heq⟩ | ⟨-, hu⟩
    · rcases htask mode heq with rfl | rfl <;> cases hlocked
    · exact h.lock u mode hu hlocked
  field := h.field
  mode := fun u mode client hu hclient => by
    rcases tasks_put hu with ⟨-, heq⟩ | ⟨-, hu⟩
    · rcases htask mode heq with rfl | rfl <;> cases hclient
    · exact h.mode u mode client hu hclient
  deed := h.deed

/-- Two tasks that hold the lock are one. -/
theorem Sound.holder {t u : Tid} {mode m : Mode} (h : F.Sound app)
    (ht : F.tasks t = some (app, mode)) (hu : F.tasks u = some (app, m))
    (hlocked : mode.locked = true) (hlocked' : m.locked = true) : t = u :=
  Option.some.inj ((h.lock t mode ht hlocked).symm.trans (h.lock u m hu hlocked'))

theorem Sound.act {t : Tid} {mode mode' : Mode} {self' : KafkaEventProducer}
    {clients' : ClientId} {deed : Deed} (h : F.Sound app)
    (htask : F.tasks t = some (app, mode))
    (hp : Passage t app mode (F.self app) F.clients deed mode' self' clients') :
    (F.act t app mode' self' clients' deed).Sound app := by
  have hle := hp.clients_le
  have hmode := h.mode t mode
  refine ⟨fun u m hu hlocked => ?_, fun c hc => ?_, fun u m c hu hc => ?_,
    fun c answer hmem => ?_⟩
  · rw [act_self]
    rcases hp.lock_cases with ⟨hsame, hback⟩ | ⟨hfree, htaken⟩ | ⟨hheld, hreleased⟩
    · rw [hsame]
      rcases tasks_act hu with ⟨rfl, heq⟩ | ⟨-, hu⟩
      · cases heq
        exact h.lock u mode htask (hback hlocked)
      · exact h.lock u m hu hlocked
    · rcases tasks_act hu with ⟨rfl, -⟩ | ⟨-, hu⟩
      · exact htaken
      · cases hfree.symm.trans (h.lock u m hu hlocked)
    · rcases tasks_act hu with ⟨rfl, heq⟩ | ⟨hne, hu⟩
      · cases heq
        rw [hreleased] at hlocked
        cases hlocked
      · exact absurd (h.holder hu htask hlocked hheld) hne
  · rw [act_self] at hc
    refine Nat.lt_of_lt_of_le ?_ hle
    rcases hp.producer_cases hc with hc | rfl
    · exact h.field c hc
    · exact hmode c htask rfl
  · rcases tasks_act hu with ⟨-, heq⟩ | ⟨-, hu⟩
    · cases heq
      rcases hp.client_cases hc with hc | hc | ⟨rfl, hbuilt⟩
      · exact Nat.lt_of_lt_of_le (hmode c htask hc) hle
      · exact Nat.lt_of_lt_of_le (h.field c hc) hle
      · rw [act_clients, hbuilt]
        exact Nat.lt_succ_self _
    · exact Nat.lt_of_lt_of_le (h.mode u m c hu hc) hle
  · rcases mem_act.mp hmem with ⟨-, rfl⟩ | hmem
    · exact Nat.lt_of_lt_of_le (hmode c htask (hp.start_placed ▸ rfl)) hle
    · exact Nat.lt_of_lt_of_le (h.deed c answer hmem) hle

/-- What happens in another process. -/
theorem Sound.elsewhere {t : Tid} {b : Nat} {mode mode' : Mode}
    {self' : KafkaEventProducer} {clients' : ClientId} {deed : Deed} (h : F.Sound app)
    (htask : F.tasks t = some (b, mode)) (hb : app ≠ b) (hle : F.clients ≤ clients') :
    (F.act t b mode' self' clients' deed).Sound app := by
  have hself : (F.act t b mode' self' clients' deed).self app = F.self app :=
    act_self_of_ne hb
  have htasks : ∀ {u m}, (F.act t b mode' self' clients' deed).tasks u = some (app, m) ↔
      F.tasks u = some (app, m) := tasks_elsewhere htask hb
  refine ⟨fun u m hu hlocked => hself ▸ h.lock u m (htasks.mp hu) hlocked,
    fun c hc => Nat.lt_of_lt_of_le (h.field c (hself ▸ hc)) hle,
    fun u m c hu hc => Nat.lt_of_lt_of_le (h.mode u m c (htasks.mp hu) hc) hle,
    fun c answer hmem => ?_⟩
  rcases mem_act.mp hmem with ⟨heq, -⟩ | hmem
  · exact absurd heq hb
  · exact Nat.lt_of_lt_of_le (h.deed c answer hmem) hle

theorem Reach.sound (h : Reach may F) : F.Sound app :=
  h.induct (P := (Sound · app)) .initial (fun _ ih htask hp => ih.act htask hp)
    (fun hb ih htask hle => ih.elsewhere htask hb hle)
    (fun ih _ hmode _ => ih.put fun m heq => by cases heq; exact hmode)
    fun ih _ _ => ih.put fun m heq => by cases heq

end Fleet

/-! ## What the system does to a producer -/

theorem effect_of_perform {t : Tid} {app : Nat} {mode : Mode} {op : Op}
    {choice : Choice} {w w' : World} {answer : Except PyExc op.Ans}
    (hallowed : mode.allowed app op)
    (hp : World.perform t op choice w = some (answer, w')) :
    Effect t (w.producers app) w.clients op answer (w'.producers app) w'.clients ∧
      ∀ b, b ≠ app → w'.producers b = w.producers b := by
  have hcases := World.perform_cases hp
  have hset : ∀ {self : KafkaEventProducer} {b}, b ≠ app →
      (w.setProducer app self).producers b = w.producers b :=
    fun hne => Function.update_of_ne hne ..
  have hself : ∀ {self : KafkaEventProducer},
      (w.setProducer app self).producers app = self := Function.update_self ..
  have haside : ∀ {w₁ : World} {op' : Op}, Keeps op'.concern w w₁ →
      op'.concern ≠ .producer → (w₁.producers app = w.producers app ∧
        w₁.clients = w.clients) ∧ ∀ b, b ≠ app → w₁.producers b = w.producers b :=
    fun hkeeps hop => ⟨⟨congrFun (hkeeps.producers hop) app, hkeeps.clients hop⟩,
      fun b _ => congrFun (hkeeps.producers hop) b⟩
  cases op with
  | readProducer a =>
      obtain ⟨rfl, -⟩ := hallowed
      rcases hcases with ⟨exc, kept, hcan, -, -⟩ | ⟨exc, w₁, hw₁, -, -⟩ | h
      · cases hcan
      · cases hw₁
      · cases choice <;> cases h
        exact ⟨⟨rfl, rfl, rfl⟩, fun _ _ => rfl⟩
  | acquireStartLock a =>
      obtain ⟨rfl, -⟩ := hallowed
      rcases hcases with ⟨exc, kept, hcan, rfl, rfl⟩ | ⟨exc, w₁, hw₁, -, -⟩ | h
      · cases kept <;> exact ⟨⟨rfl, rfl⟩, fun _ _ => rfl⟩
      · cases hw₁
      · cases choice <;> try cases h
        simp only [World.answer] at h
        split at h <;> cases h
        next hfree =>
          exact ⟨⟨Option.isNone_iff_eq_none.mp hfree, hself, rfl⟩, fun _ => hset⟩
  | releaseStartLock a =>
      obtain ⟨rfl, -⟩ := hallowed
      rcases hcases with ⟨exc, kept, hcan, -, -⟩ | ⟨exc, w₁, hw₁, -, -⟩ | h
      · cases hcan
      · cases hw₁
      · cases choice <;> cases h
        exact ⟨⟨hself, rfl⟩, fun _ => hset⟩
  | buildProducer =>
      rcases hcases with ⟨exc, kept, hcan, -, -⟩ | ⟨exc, w₁, hw₁, -, -⟩ | h
      · cases hcan
      · cases hw₁
      · cases choice <;> cases h
        exact ⟨⟨rfl, rfl, rfl⟩, fun _ _ => rfl⟩
  | setProducer a producer =>
      have ha : a = app := by cases producer <;> exact hallowed.1
      subst ha
      rcases hcases with ⟨exc, kept, hcan, -, -⟩ | ⟨exc, w₁, hw₁, -, -⟩ | h
      · cases hcan
      · cases hw₁
      · cases choice <;> cases h
        exact ⟨⟨hself, rfl⟩, fun _ => hset⟩
  | setStarted a started =>
      obtain ⟨rfl, -⟩ := hallowed
      rcases hcases with ⟨exc, kept, hcan, -, -⟩ | ⟨exc, w₁, hw₁, -, -⟩ | h
      · cases hcan
      · cases hw₁
      · cases choice <;> cases h
        exact ⟨⟨hself, rfl⟩, fun _ => hset⟩
  | startProducer client =>
      rcases hcases with ⟨exc, kept, hcan, rfl, rfl⟩ | ⟨exc, w₁, hw₁, -, -⟩ | h
      · cases kept <;> exact ⟨⟨rfl, rfl⟩, fun _ _ => rfl⟩
      · cases hw₁
      · cases choice <;> cases h
        exact ⟨⟨rfl, rfl⟩, fun _ _ => rfl⟩
  | stopProducer a client =>
      obtain ⟨rfl, -⟩ := hallowed
      rcases hcases with ⟨exc, kept, hcan, rfl, rfl⟩ | ⟨exc, w₁, hw₁, -, -⟩ | h
      · cases kept <;> exact ⟨⟨rfl, rfl⟩, fun _ _ => rfl⟩
      · cases hw₁
      · cases choice <;> cases h
        exact ⟨⟨hself, rfl⟩, fun _ => hset⟩
  | _ => exact haside (Keeps.perform hp) fun h => by cases h

/-- Every answer there is has been foreseen. -/
theorem next_of_perform {t : Tid} {mode : Mode} {op : Op} {choice : Choice}
    {w w' : World} {answer : Except PyExc op.Ans}
    (hp : World.perform t op choice w = some (answer, w')) :
    ∃ mode', mode.next op answer = some mode' := by
  have hsure : ∀ exc, answer = .error exc →
      (∀ exc kept, op.canFail exc kept = false) → w.halfDone t op = none →
      (∀ exc, w.answer t op choice ≠ some (.error exc, w')) → False := by
    rintro exc rfl hcan hhalf hanswer
    rcases World.perform_cases hp with ⟨exc, kept, h, -, -⟩ | ⟨exc, w₁, h, -, -⟩ | h
    · rw [hcan] at h
      cases h
    · rw [hhalf] at h
      cases h
    · exact hanswer _ h
  cases op with
  | readProducer | releaseStartLock | buildProducer | setStarted =>
      cases answer with
      | ok value => exact ⟨_, rfl⟩
      | error exc =>
          exact (hsure exc rfl (fun _ _ => rfl) rfl fun _ h => by
            cases choice <;> cases h).elim
  | setProducer a producer =>
      cases answer with
      | ok value => cases producer <;> exact ⟨_, rfl⟩
      | error exc =>
          exact (hsure exc rfl (fun _ _ => rfl) rfl fun _ h => by
            cases choice <;> cases h).elim
  | _ => cases answer <;> exact ⟨_, rfl⟩

/-! ## The system refines the fleet -/

/-- Task `t` works for process `app`. -/
def Serves (state : State) (app : Nat) (t : Tid) : Prop :=
  ∃ arrival, state.world.arrivals t = some arrival ∧ arrival.entry.app = some app

/-- Task `t` runs for process `app`, or was killed as it did. -/
def Mans (state : State) (app : Nat) (mode : Mode) (t : Tid) : Prop :=
  ∃ arrival, state.world.arrivals t = some arrival ∧ arrival.entry.app = some app ∧
    (mode.stopping = true ↔ arrival.entry = .stopProducer app) ∧
    ((∃ now loop, state.tasks t = .running now loop) ∨
      state.world.outcomes t = some none)

structure Shows (state : State) (trace : Trace Op Op.Ans PyExc) (F : Fleet) : Prop where
  self : F.self = state.world.producers
  clients : F.clients = state.world.clients
  deeds : ∀ app deed, (app, deed) ∈ F.deeds ↔
    ∃ t, Serves state app t ∧ (t, deed) ∈ trace
  came : ∀ t deed, (t, deed) ∈ trace → ∃ arrival, state.world.arrivals t = some arrival
  tasks : ∀ t app mode, F.tasks t = some (app, mode) → Mans state app mode t
  follows : ∀ t now loop arrival app, state.tasks t = .running now loop →
    state.world.arrivals t = some arrival → arrival.entry.app = some app →
    ∃ mode, F.tasks t = some (app, mode) ∧
      now.Follows (protocol app) arrival.entry.Leaves mode

section

variable {settings : Settings} {state : State} {trace : Trace Op Op.Ans PyExc}
variable {F F' : Fleet}

theorem Shows.start : Shows start [] Fleet.initial := by
  refine ⟨rfl, rfl, fun app deed => ⟨fun h => ?_, fun ⟨t, _, h⟩ => ?_⟩,
    fun t deed h => ?_, fun t app mode h => ?_, fun t now loop arrival app h => ?_⟩
  · cases h
  · cases h
  · cases h
  · cases h
  · cases h

/-- Task `tid` takes a step or ends; the others stay where they are. -/
theorem Shows.move {w : World} {tid : Tid} {task : TaskState Op Op.Ans PyExc Reply}
    {trace' : Trace Op Op.Ans PyExc} (h : Shows state trace F)
    (hself : F'.self = w.producers) (hclients : F'.clients = w.clients)
    (harrivals : w.arrivals = state.world.arrivals)
    (houtcomes : ∀ t, t ≠ tid → w.outcomes t = state.world.outcomes t)
    (hdeeds : ∀ app deed, (app, deed) ∈ F'.deeds ↔
      ∃ t, Serves state app t ∧ (t, deed) ∈ trace')
    (hcame : ∀ t deed, (t, deed) ∈ trace' →
      ∃ arrival, state.world.arrivals t = some arrival)
    (hothers : ∀ t, t ≠ tid → F'.tasks t = F.tasks t)
    (htasks : ∀ app mode, F'.tasks tid = some (app, mode) →
      Mans (state.set w tid task) app mode tid)
    (hfollows : ∀ now loop arrival app, task = .running now loop →
      state.world.arrivals tid = some arrival → arrival.entry.app = some app →
      ∃ mode, F'.tasks tid = some (app, mode) ∧
        now.Follows (protocol app) arrival.entry.Leaves mode) :
    Shows (state.set w tid task) trace' F' where
  self := hself
  clients := hclients
  deeds := fun app deed => by
    simp only [Serves, Pool.set_world, harrivals]
    exact hdeeds app deed
  came := fun t deed hmem => by
    rw [Pool.set_world, harrivals]
    exact hcame t deed hmem
  tasks := fun t app mode htask => by
    by_cases hsame : t = tid
    · subst hsame
      exact htasks app mode htask
    · rw [hothers t hsame] at htask
      obtain ⟨arrival, ha, happ, hstop, hrun⟩ := h.tasks t app mode htask
      refine ⟨arrival, (congrFun harrivals t).trans ha, happ, hstop, hrun.imp ?_ ?_⟩
      · rintro ⟨now, loop, hrun⟩
        exact ⟨now, loop, (state.set_tasks_of_ne w task hsame).trans hrun⟩
      · exact (houtcomes t hsame).trans
  follows := fun t now loop arrival app hrun ha happ => by
    rw [Pool.set_world, harrivals] at ha
    rcases Pool.running_of_set hrun with ⟨rfl, hself⟩ | ⟨hne, hrun⟩
    · exact hfollows now loop arrival app hself ha happ
    · obtain ⟨mode, htask, hfollow⟩ := h.follows t now loop arrival app hrun ha happ
      exact ⟨mode, (hothers t hne).trans htask, hfollow⟩

theorem Shows.begin {tid : Tid} {entry : Entry} (h : Shows state trace F)
    (hfresh : state.world.arrivals tid = none)
    (hself : F'.self = F.self) (hclients : F'.clients = F.clients)
    (hdeeds : F'.deeds = F.deeds) (hothers : ∀ t, t ≠ tid → F'.tasks t = F.tasks t)
    (htask : F'.tasks tid = entry.app.map fun app => (app, entry.mode)) :
    Shows (state.set (state.world.opened tid entry) tid
      (.running (routine settings entry).first (routine settings entry).loop))
      trace F' := by
  have harrival : (state.world.opened tid entry).arrivals tid =
      some ⟨entry, state.world.ended⟩ := Function.update_self ..
  have hkept : ∀ {t}, t ≠ tid →
      (state.world.opened tid entry).arrivals t = state.world.arrivals t :=
    fun hne => Function.update_of_ne hne ..
  have hcame : ∀ {t deed}, (t, deed) ∈ trace → t ≠ tid := by
    rintro t deed hmem rfl
    obtain ⟨arrival, ha⟩ := h.came t deed hmem
    rw [hfresh] at ha
    cases ha
  refine ⟨hself.trans h.self, hclients.trans h.clients, fun app deed => ?_,
    fun t deed hmem => ?_, fun t app mode hmode => ?_,
    fun t now loop arrival app hrun ha happ => ?_⟩
  · rw [hdeeds, h.deeds]
    refine exists_congr fun t => ⟨fun ⟨hserves, hmem⟩ => ⟨?_, hmem⟩,
      fun ⟨hserves, hmem⟩ => ⟨?_, hmem⟩⟩
    · simpa only [Serves, Pool.set_world, hkept (hcame hmem)] using hserves
    · simpa only [Serves, Pool.set_world, hkept (hcame hmem)] using hserves
  · rw [Pool.set_world, hkept (hcame hmem)]
    exact h.came t deed hmem
  · by_cases hsame : t = tid
    · subst hsame
      rw [htask] at hmode
      obtain ⟨app', happ, heq⟩ := Option.map_eq_some_iff.mp hmode
      cases heq
      refine ⟨_, harrival, happ, ?_, .inl ⟨_, _, Pool.set_tasks_self ..⟩⟩
      cases entry with
      | stopProducer b => cases happ; exact ⟨fun _ => rfl, fun _ => rfl⟩
      | _ => exact ⟨nofun, nofun⟩
    · rw [hothers t hsame] at hmode
      obtain ⟨arrival, ha, happ, hstop, hrun⟩ := h.tasks t app mode hmode
      refine ⟨arrival, (hkept hsame).trans ha, happ, hstop, hrun.imp ?_ fun h => h⟩
      rintro ⟨now, loop, hrun⟩
      exact ⟨now, loop, (state.set_tasks_of_ne _ _ hsame).trans hrun⟩
  · rcases Pool.running_of_set hrun with ⟨rfl, hstarts⟩ | ⟨hne, hrun⟩
    · cases hstarts
      cases harrival.symm.trans ha
      refine ⟨entry.mode, ?_, (routine_follows settings happ).1⟩
      rw [htask, show entry.app = some app from happ]
      rfl
    · obtain ⟨mode, hmode, hfollow⟩ := h.follows t now loop arrival app hrun
        ((hkept hne).symm.trans ha) happ
      exact ⟨mode, (hothers t hne).trans hmode, hfollow⟩

theorem mem_cons_deeds {t tid : Tid} {deed deed' : Deed} :
    (t, deed) ∈ (tid, deed') :: trace ↔
      t = tid ∧ deed = deed' ∨ (t, deed) ∈ trace := by
  simp only [List.mem_cons, Prod.mk.injEq]

/-- An operation of a task that works for a process. -/
theorem Shows.act {may : Fleet → Nat → Mode → Prop} {tid : Tid} {app : Nat} {op : Op}
    {resume : Except PyExc op.Ans → Py (Option Reply)} {loop : Py (Option Reply)}
    {choice : Choice} {answer : Except PyExc op.Ans} {w : World} {arrival : Arrival}
    (h : Shows state trace F)
    (htask : state.tasks tid = .running (.await op resume) loop)
    (hp : World.perform tid op choice state.world = some (answer, w))
    (ha : state.world.arrivals tid = some arrival)
    (happ : arrival.entry.app = some app) :
    ∃ F', Fleet.Step may F F' ∧
      Shows (state.set w tid (.running (resume answer) loop))
        ((tid, ⟨op, answer⟩) :: trace) F' := by
  obtain ⟨mode, hmode, hallowed, hresume⟩ := h.follows tid _ _ _ _ htask ha happ
  obtain ⟨mode', hnext⟩ : ∃ mode', mode.next op answer = some mode' :=
    next_of_perform hp
  obtain ⟨heffect, hothers⟩ := effect_of_perform hallowed hp
  obtain ⟨harrivals, houtcomes⟩ := World.perform_tasks hp
  have hserves : Serves state app tid := ⟨arrival, ha, happ⟩
  refine ⟨_, .act tid app mode mode' op answer (w.producers app) w.clients hmode hallowed
    hnext (by rw [h.self, h.clients]; exact heffect), ?_⟩
  refine h.move (funext fun b => ?_) rfl harrivals
    (fun t _ => congrFun houtcomes t) (fun b deed => ?_) (fun t deed hmem => ?_)
    (fun t hne => Function.update_of_ne hne ..) (fun b mode₁ hmode₁ => ?_)
    fun now loop' arrival' b heq ha' happ' => ?_
  · by_cases hb : b = app
    · subst hb
      exact Function.update_self ..
    · exact (Function.update_of_ne hb ..).trans
        ((congrFun h.self b).trans (hothers b hb).symm)
  · simp only [Fleet.mem_act, List.mem_cons, Prod.mk.injEq, h.deeds]
    constructor
    · rintro (⟨rfl, rfl⟩ | ⟨t, hserves', hmem⟩)
      · exact ⟨tid, hserves, .inl ⟨rfl, rfl⟩⟩
      · exact ⟨t, hserves', .inr hmem⟩
    · rintro ⟨t, hserves', ⟨rfl, rfl⟩ | hmem⟩
      · obtain ⟨arrival', ha', happ'⟩ := hserves'
        cases ha.symm.trans ha'
        exact .inl ⟨Option.some.inj (happ'.symm.trans happ), rfl⟩
      · exact .inr ⟨t, hserves', hmem⟩
  · rcases mem_cons_deeds.mp hmem with ⟨rfl, -⟩ | hmem
    · exact ⟨arrival, ha⟩
    · exact h.came t deed hmem
  · cases (Function.update_self ..).symm.trans hmode₁
    obtain ⟨arrival', ha', happ', hstop, -⟩ := h.tasks tid app mode hmode
    refine ⟨arrival', (congrFun harrivals tid).trans ha', happ', ?_,
      .inl ⟨_, _, Pool.set_tasks_self ..⟩⟩
    rw [(passage_of_effect hallowed hnext heffect).stopping]
    exact hstop
  · cases heq
    cases ha.symm.trans ha'
    cases happ.symm.trans happ'
    exact ⟨mode', Function.update_self .., hresume answer mode' hnext⟩

/-- An operation of any other task. -/
theorem Shows.pass {tid : Tid} {op : Op}
    {resume : Except PyExc op.Ans → Py (Option Reply)} {loop : Py (Option Reply)}
    {choice : Choice} {answer : Except PyExc op.Ans} {w : World} {arrival : Arrival}
    (h : Shows state trace F) (hwithin : op.Within arrival.entry.concerns)
    (hp : World.perform tid op choice state.world = some (answer, w))
    (ha : state.world.arrivals tid = some arrival) (happ : arrival.entry.app = none) :
    Shows (state.set w tid (.running (resume answer) loop))
      ((tid, ⟨op, answer⟩) :: trace) F := by
  obtain ⟨harrivals, houtcomes⟩ := World.perform_tasks hp
  have hop : op.concern ≠ .producer := by
    refine hwithin.ne ?_ nofun
    cases hentry : arrival.entry with
    | startProducer | stopProducer | outboxPublisher => rw [hentry] at happ; cases happ
    | _ => simp [Entry.concerns]
  have hnone : ∀ {app}, ¬Serves state app tid := by
    rintro app ⟨arrival', ha', happ'⟩
    cases ha.symm.trans ha'
    cases happ.symm.trans happ'
  have hkeeps := Keeps.perform hp
  refine h.move (h.self.trans (hkeeps.producers hop).symm)
    (h.clients.trans (hkeeps.clients hop).symm) harrivals
    (fun t _ => congrFun houtcomes t) (fun b deed => ?_) (fun t deed hmem => ?_)
    (fun t _ => rfl) (fun app mode hmode => ?_)
    fun now loop' arrival' app heq ha' happ' => ?_
  · rw [h.deeds]
    refine exists_congr fun t => and_congr_right fun hserves => ?_
    rw [mem_cons_deeds]
    refine ⟨.inr, fun hmem => hmem.resolve_left ?_⟩
    rintro ⟨rfl, -⟩
    exact hnone hserves
  · rcases mem_cons_deeds.mp hmem with ⟨rfl, -⟩ | hmem
    · exact ⟨arrival, ha⟩
    · exact h.came t deed hmem
  · obtain ⟨arrival', ha', happ', -⟩ := h.tasks tid app mode hmode
    exact (hnone ⟨arrival', ha', happ'⟩).elim
  · exact (hnone ⟨arrival', ha', happ'⟩).elim

theorem Shows.none_of_app {tid : Tid} {arrival : Arrival} (h : Shows state trace F)
    (ha : state.world.arrivals tid = some arrival) (happ : arrival.entry.app = none) :
    F.tasks tid = none := by
  cases htask : F.tasks tid with
  | none => rfl
  | some pair =>
      obtain ⟨arrival', ha', happ', -⟩ := h.tasks tid pair.1 pair.2 htask
      cases ha.symm.trans ha'
      cases happ.symm.trans happ'

/-- A task ends by itself only where it may. -/
theorem Shows.finish {may : Fleet → Nat → Mode → Prop} {tid : Tid}
    {now loop : Py (Option Reply)} {outcome : Except PyExc Reply}
    (h : Shows state trace F) (hreach : Reachable settings state)
    (htask : state.tasks tid = .running now loop)
    (hdone : ∀ {entry : Entry} {app mode},
      now.Follows (protocol app) entry.Leaves mode → mode.done) :
    ∃ F', (F' = F ∨ Fleet.Step may F F') ∧
      Shows (state.set (state.world.closed tid (some outcome)) tid .ended) trace F' := by
  obtain ⟨arrival, ha, -⟩ := running_within hreach htask
  have houtcomes : ∀ t, t ≠ tid → (state.world.closed tid (some outcome)).outcomes t =
      state.world.outcomes t := fun t hne => Function.update_of_ne hne ..
  cases happ : arrival.entry.app with
  | none =>
      have hnone := h.none_of_app ha happ
      refine ⟨F, .inl rfl, h.move h.self h.clients rfl houtcomes h.deeds h.came
        (fun _ _ => rfl) (fun app mode hmode => ?_) nofun⟩
      rw [hnone] at hmode
      cases hmode
  | some app =>
      obtain ⟨mode, hmode, hfollows⟩ := h.follows tid now loop arrival app htask ha happ
      refine ⟨_, .inr (.finish tid app mode hmode (hdone hfollows)),
        h.move h.self h.clients rfl houtcomes h.deeds h.came
          (fun t hne => Function.update_of_ne hne ..) (fun app mode hmode => ?_) nofun⟩
      cases (Function.update_self ..).symm.trans hmode

theorem Shows.external (h : Shows state trace F) (event : World.External) :
    Shows { state with world := state.world.external event } trace F := by
  cases event with
  | _ => exact ⟨h.self, h.clients, h.deeds, h.came, h.tasks, h.follows⟩

/-- The system refines the fleet, as long as its runs are `good`. -/
theorem fleet_of_run {good : State → Prop} {may : Fleet → Nat → Mode → Prop}
    (hback : ∀ {state state' : State} {label : Label Entry Choice World.External},
      (system settings).next state label = some state' → Reachable settings state →
        good state' → good state)
    (hmay : ∀ {state state' : State} {trace : Trace Op Op.Ans PyExc} {F : Fleet}
      {t : Tid} {entry : Entry} {app : Nat},
      (system settings).next state (.start t entry) = some state' →
        Reachable settings state → Shows state trace F → good state' →
        entry.app = some app → may F app entry.mode)
    (h : (system settings).Run PhotoAnalysis.start state trace) (hgood : good state) :
    ∃ F, Fleet.Reach may F ∧ Shows state trace F := by
  induction h with
  | start => exact ⟨_, .initial, .start⟩
  | @next state state' trace label hrun hnext ih =>
      have hreach : Reachable settings state := hrun.leads
      obtain ⟨F, hF, hshows⟩ := ih (hback hnext hreach hgood)
      have hdone : ∀ {state'' : State} {trace'' : Trace Op Op.Ans PyExc},
          (∃ F', (F' = F ∨ Fleet.Step may F F') ∧ Shows state'' trace'' F') →
            ∃ F', Fleet.Reach may F' ∧ Shows state'' trace'' F' := by
        rintro state'' trace'' ⟨F', rfl | hstep, hshows'⟩
        · exact ⟨F', hF, hshows'⟩
        · exact ⟨F', hF.step hstep, hshows'⟩
      cases Machine.goes_of_next _ hnext with
      | start tid entry htask =>
          have hidle := (reachable_safe hreach).tasks tid
          rw [htask] at hidle
          have hfresh : state.world.arrivals tid = none := hidle.arrival
          have hnew : F.tasks tid = none := by
            cases hold : F.tasks tid with
            | none => rfl
            | some pair =>
                obtain ⟨arrival, ha, -⟩ := hshows.tasks tid pair.1 pair.2 hold
                cases hfresh.symm.trans ha
          cases happ : entry.app with
          | none =>
              refine ⟨F, hF, hshows.begin hfresh rfl rfl rfl (fun _ _ => rfl) ?_⟩
              rw [hnew, happ]
              rfl
          | some app =>
              refine ⟨_, hF.step (.begin tid app entry.mode hnew ?_
                (hmay hnext hreach hshows hgood happ)),
                hshows.begin hfresh rfl rfl rfl (fun t hne => Function.update_of_ne hne ..)
                  ?_⟩
              · cases entry with
                | stopProducer => exact .inr rfl
                | _ => exact .inl rfl
              · rw [happ]
                exact Function.update_self ..
      | step tid choice op resume loop answer w htask hperform =>
          have hp : World.perform tid op choice state.world = some (answer, w) := hperform
          have hnoted : (system settings).noted state trace (.step tid choice) =
              (tid, ⟨op, answer⟩) :: trace := by
            simp only [Machine.noted, htask, hperform]
          obtain ⟨arrival, ha, huses, -⟩ := running_within hreach htask
          rw [hnoted]
          cases happ : arrival.entry.app with
          | none => exact ⟨F, hF, hshows.pass huses.1 hp ha happ⟩
          | some app =>
              obtain ⟨F', hstep, hshows'⟩ := hshows.act htask hp ha happ
              exact ⟨F', hF.step hstep, hshows'⟩
      | again tid loop htask =>
          obtain ⟨arrival, ha, -, hloop⟩ := running_within hreach htask
          refine ⟨F, hF, hshows.move hshows.self hshows.clients rfl (fun _ _ => rfl)
            hshows.deeds hshows.came (fun _ _ => rfl) (fun app mode hmode => ?_)
            fun now loop' arrival' app heq ha' happ' => ?_⟩
          · obtain ⟨arrival', ha', happ', hstop, -⟩ := hshows.tasks tid app mode hmode
            exact ⟨arrival', ha', happ', hstop, .inl ⟨_, _, Pool.set_tasks_self ..⟩⟩
          · cases heq
            cases ha.symm.trans ha'
            obtain ⟨mode, hmode, hloops, hresting⟩ :=
              hshows.follows tid _ _ arrival app htask ha happ'
            rw [hloop]
            exact ⟨mode, hmode, (routine_follows settings happ').2 hloops mode hresting⟩
      | returned tid reply loop htask =>
          exact hdone (hshows.finish hreach htask fun h => h)
      | raised tid exc loop htask =>
          exact hdone (hshows.finish hreach htask fun h => h)
      | crash tid now loop htask =>
          refine ⟨F, hF, hshows.move hshows.self hshows.clients rfl
            (fun t hne => Function.update_of_ne hne ..) hshows.deeds hshows.came
            (fun _ _ => rfl) (fun app mode hmode => ?_) nofun⟩
          obtain ⟨arrival, ha, happ, hstop, -⟩ := hshows.tasks tid app mode hmode
          exact ⟨arrival, ha, happ, hstop, .inr (Function.update_self ..)⟩
      | external event => exact ⟨F, hF, hshows.external event⟩

end

end PhotoAnalysis

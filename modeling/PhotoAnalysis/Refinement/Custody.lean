import PhotoAnalysis.Refinement.Fleet

/-!
# Which client is live

As long as `stop` runs alone, the fields of a producer and the modes of its tasks
tell which client is live: none at all, or the one in the field.
-/

namespace PhotoAnalysis

open Foundation Program

/-- The fields of a producer, and what has become of its clients. -/
structure Holding where
  producer : Option ClientId
  started : Bool
  /-- `start()` of the client has returned -/
  begun : ClientId → Prop
  /-- `stop()` of the client has returned -/
  halted : ClientId → Prop

namespace Holding

def Live (H : Holding) (client : ClientId) : Prop := H.begun client ∧ ¬H.halted client

/-- No client is live, and the one in the field has never been. -/
structure Off (H : Holding) : Prop where
  started : H.started = false
  dead : ∀ client, ¬H.Live client
  unused : ∀ client, H.producer = some client → ¬H.begun client

/-- The client is in the field, and no other one is live. -/
structure Sole (H : Holding) (client : ClientId) : Prop where
  field : H.producer = some client
  live : H.Live client
  only : ∀ other, H.Live other → other = client

/-- The client is live, and the fields say so. -/
def On (H : Holding) (client : ClientId) : Prop := H.started = true ∧ H.Sole client

def Rest (H : Holding) : Prop := H.Off ∨ ∃ client, H.On client

/-- An operation in process `app` leaves the fields as `self`. -/
def after (H : Holding) (app : Nat) (self : KafkaEventProducer) (deed : Deed) :
    Holding where
  producer := self.producer
  started := self.started
  begun := fun client => deed = ⟨.startProducer client, .ok ()⟩ ∨ H.begun client
  halted := fun client =>
    deed = ⟨.stopProducer app (some client), .ok ()⟩ ∨ H.halted client

variable {H : Holding} {app : Nat} {self : KafkaEventProducer} {deed : Deed}
variable {client : ClientId}

theorem after_eq (hstart : ∀ c, deed ≠ ⟨.startProducer c, .ok ()⟩)
    (hstop : ∀ c, deed ≠ ⟨.stopProducer app (some c), .ok ()⟩) :
    H.after app self deed =
      { H with producer := self.producer, started := self.started } := by
  simp only [after, hstart, hstop, false_or]

theorem after_same (hproducer : H.producer = self.producer)
    (hstarted : H.started = self.started)
    (hstart : ∀ c, deed ≠ ⟨.startProducer c, .ok ()⟩)
    (hstop : ∀ c, deed ≠ ⟨.stopProducer app (some c), .ok ()⟩) :
    H.after app self deed = H := by
  rw [after_eq hstart hstop, ← hproducer, ← hstarted]

theorem after_aside {op : Op} {answer : Except PyExc op.Ans}
    (hproducer : H.producer = self.producer) (hstarted : H.started = self.started)
    (hstart : ∀ c, op ≠ .startProducer c) (hstop : ∀ c, op ≠ .stopProducer app c) :
    H.after app self ⟨op, answer⟩ = H := by
  refine after_same hproducer hstarted (fun c heq => ?_) fun c heq => ?_
  · cases heq
    exact hstart c rfl
  · cases heq
    exact hstop _ rfl

theorem live_started {c : ClientId} :
    (H.after app self ⟨.startProducer client, .ok ()⟩).Live c ↔
      (c = client ∨ H.begun c) ∧ ¬H.halted c := by
  have hbegun : (⟨.startProducer client, .ok ()⟩ : Deed) = ⟨.startProducer c, .ok ()⟩ ↔
      c = client :=
    ⟨fun h => by cases h; rfl, fun h => by rw [h]⟩
  have hhalted : (⟨.startProducer client, .ok ()⟩ : Deed) ≠
      ⟨.stopProducer app (some c), .ok ()⟩ := nofun
  simp only [Live, after, hbegun, hhalted, false_or]

theorem live_stopped {c : ClientId} :
    (H.after app self ⟨.stopProducer app (some client), .ok ()⟩).Live c ↔
      H.Live c ∧ c ≠ client := by
  have hhalted : (⟨.stopProducer app (some client), .ok ()⟩ : Deed) =
      ⟨.stopProducer app (some c), .ok ()⟩ ↔ c = client :=
    ⟨fun h => by cases h; rfl, fun h => by rw [h]⟩
  have hbegun : (⟨.stopProducer app (some client), .ok ()⟩ : Deed) ≠
      ⟨.startProducer c, .ok ()⟩ := nofun
  simp only [Live, after, hbegun, hhalted, false_or, not_or]
  tauto

/-- A `stop` that returns leaves nothing behind. -/
theorem off_of_stopped {stopped : Option ClientId} (hproducer : self.producer = none)
    (hstarted : self.started = false) (hlive : ∀ c, H.Live c → stopped = some c) :
    (H.after app self ⟨.stopProducer app stopped, .ok ()⟩).Off where
  started := hstarted
  dead := fun c hc => by
    cases hlive c ⟨hc.1.resolve_left nofun, fun hhalted => hc.2 (.inr hhalted)⟩
    exact (live_stopped.mp hc).2 rfl
  unused := fun c hc => by
    cases hproducer.symm.trans hc

end Holding

/-! ## What a task may rely on -/

namespace Mode

def Relies (H : Holding) : Mode → Prop
  | away | asking | gone => True
  | inside | closing false | standing => H.Rest
  | unstarted | empty | broken _ => H.Off
  | chosen client => H.Off ∧ ¬H.begun client
  | placed client => H.Off ∧ H.producer = some client
  | live client => H.started = false ∧ H.Sole client
  | closing true | ready => ∃ client, H.On client
  | knows client | stops (some client) => H.On client
  | stops none => H.Off
  | lost => False

section

variable {H : Holding} {client : Option ClientId}

theorem rest_of_stops (h : (stops client).Relies H) : H.Rest := by
  cases client with
  | none => exact .inl h
  | some client => exact .inr ⟨client, h⟩

/-- Who is to stop a client knows of every live one. -/
theorem eq_of_stops (h : (stops client).Relies H) {c : ClientId} (hc : H.Live c) :
    client = some c := by
  cases client with
  | none => exact (h.dead c hc).elim
  | some client => rw [h.2.only c hc]

end

/-- It is about to change a field or a client. -/
def acts : Mode → Bool
  | chosen _ | placed _ | live _ | broken _ | stops _ => true
  | _ => false

end Mode

namespace Passage

variable {t : Tid} {app : Nat} {mode mode' : Mode} {self self' : KafkaEventProducer}
variable {n n' : ClientId} {deed : Deed} {H : Holding}

/-- Other tasks cannot tell that there was an operation. -/
theorem quiet (h : Passage t app mode self n deed mode' self' n')
    (hacts : mode.acts = false) (hproducer : H.producer = self.producer)
    (hstarted : H.started = self.started) : H.after app self' deed = H := by
  cases h with
  | place | started | failed | mark | discard | stopped | unstopped => cases hacts
  | aside mode self n op answer hstart hstop =>
      exact Holding.after_aside hproducer hstarted hstart hstop
  | _ => exact Holding.after_same hproducer hstarted nofun nofun

/-- What the fields tell a task that reads them. -/
theorem relies_read (hreads : mode.reads) (hproducer : H.producer = self.producer)
    (hstarted : H.started = self.started) (hmode : mode.Relies H)
    (haway : mode = .away → H.started = true → H.Rest) :
    (mode.read self).Relies H := by
  have hon : H.Rest → H.started = true → ∃ client, H.On client := by
    rintro (hoff | hon) htrue
    · rw [hoff.started] at htrue
      cases htrue
    · exact hon
  obtain ⟨producer, started, lock⟩ := self
  cases mode with
  | away =>
      cases started with
      | true => exact hon (haway rfl hstarted) hstarted
      | false => exact trivial
  | inside =>
      cases started with
      | true => exact hon hmode hstarted
      | false =>
          refine hmode.resolve_right fun ⟨client, hon⟩ => ?_
          cases hon.1.symm.trans hstarted
  | unstarted =>
      cases producer with
      | none => exact hmode
      | some client => exact ⟨hmode, hmode.unused client hproducer⟩
  | standing =>
      rcases hmode with hoff | ⟨client, hon⟩
      · cases hstarted.symm.trans hoff.started
        exact hoff
      · cases hstarted.symm.trans hon.1
        cases hproducer.symm.trans hon.2.field
        exact hon
  | ready =>
      obtain ⟨client, hon⟩ := hmode
      cases hstarted.symm.trans hon.1
      cases hproducer.symm.trans hon.2.field
      exact hon
  | knows client =>
      cases hstarted.symm.trans hmode.1
      cases hproducer.symm.trans hmode.2.field
      exact hmode
  | lost => exact hmode.elim
  | _ => cases hreads

/-- A task that sees no more than it may rely on may rely on what comes next. -/
theorem relies_quiet (h : Passage t app mode self n deed mode' self' n')
    (hacts : mode.acts = false) (hproducer : H.producer = self.producer)
    (hstarted : H.started = self.started) (hmode : mode.Relies H)
    (haway : mode = .away → H.started = true → H.Rest)
    (hasking : self.startLock = none → H.Rest) (hnew : ¬H.begun n) :
    mode'.Relies H := by
  cases h with
  | look mode self n hreads => exact relies_read hreads hproducer hstarted hmode haway
  | lock mode self n hlock hfree => exact hasking hfree
  | refused => exact trivial
  | unlock started =>
      cases started with
      | true => exact hmode
      | false => exact trivial
  | build => exact ⟨hmode, hnew⟩
  | aside => exact hmode
  | place | started | failed | mark | discard | stopped | unstopped => cases hacts

/-- What a task that acts leaves behind: it alone may know that the fields are wrong. -/
theorem relies_acts (h : Passage t app mode self n deed mode' self' n')
    (hacts : mode.acts = true) (hproducer : H.producer = self.producer)
    (hstarted : H.started = self.started) (hmode : mode.Relies H)
    (hbegun : ∀ client, H.halted client → H.begun client) :
    mode'.Relies (H.after app self' deed) ∧
      ((H.after app self' deed).Rest ∨ ∃ client, mode' = .live client) := by
  have hafter := @Holding.after_eq H app self' deed
  have hsame := @Holding.after_same H app self' deed
  cases h with
  | look mode self n hreads => cases mode <;> first | (cases hreads; done) | cases hacts
  | lock mode self n hlock | refused mode self n exc hlock =>
      rcases hlock with rfl | rfl <;> cases hacts
  | unlock | build => cases hacts
  | place client =>
      obtain ⟨hoff, hunused⟩ := hmode
      have hplaced : (H.after app { self with producer := some client }
          ⟨.setProducer app (some client), .ok ()⟩).Off := by
        rw [hafter nofun nofun]
        refine ⟨hstarted.symm.trans hoff.started, hoff.dead, fun c hc => ?_⟩
        cases hc
        exact hunused
      exact ⟨⟨hplaced, rfl⟩, .inl (.inl hplaced)⟩
  | started client =>
      obtain ⟨hoff, hfield⟩ := hmode
      have hunused := hoff.unused client hfield
      refine ⟨⟨hstarted.symm.trans hoff.started, hproducer.symm.trans hfield, ?_, ?_⟩,
        .inr ⟨client, rfl⟩⟩
      · exact Holding.live_started.mpr ⟨.inl rfl, fun h => hunused (hbegun _ h)⟩
      · intro other hother
        obtain ⟨rfl | hother, hnot⟩ := Holding.live_started.mp hother
        · rfl
        · exact (hoff.dead other ⟨hother, hnot⟩).elim
  | failed client self n exc =>
      rw [hsame hproducer hstarted nofun nofun]
      cases exc <;> first
        | exact ⟨hmode.1, .inl (.inl hmode.1)⟩
        | exact ⟨.inl hmode.1, .inl (.inl hmode.1)⟩
  | mark client =>
      rw [hafter nofun nofun]
      have hon : Holding.On { H with producer := self.producer, started := true } client :=
        ⟨rfl, hproducer.symm.trans hmode.2.field, hmode.2.live, hmode.2.only⟩
      exact ⟨⟨client, hon⟩, .inl (.inr ⟨client, hon⟩)⟩
  | discard client =>
      have hoff : (H.after app { self with producer := none }
          ⟨.setProducer app none, .ok ()⟩).Off := by
        rw [hafter nofun nofun]
        exact ⟨hstarted.symm.trans hmode.started, hmode.dead, nofun⟩
      exact ⟨.inl hoff, .inl (.inl hoff)⟩
  | stopped client =>
      exact ⟨trivial, .inl (.inl (Holding.off_of_stopped rfl rfl
        fun _ => Mode.eq_of_stops hmode))⟩
  | unstopped client self n exc =>
      rw [hsame hproducer hstarted nofun nofun]
      exact ⟨trivial, .inl (Mode.rest_of_stops hmode)⟩
  | aside mode self n op answer hstart hstop =>
      rw [Holding.after_aside hproducer hstarted hstart hstop]
      refine ⟨hmode, ?_⟩
      cases mode with
      | chosen client => exact .inl (.inl hmode.1)
      | placed client => exact .inl (.inl hmode.1)
      | broken client => exact .inl (.inl hmode)
      | live client => exact .inr ⟨client, rfl⟩
      | stops client => exact .inl (Mode.rest_of_stops hmode)
      | _ => cases hacts

theorem stopped_of (h : Passage t app mode self n deed mode' self' n')
    {client : Option ClientId} (hdeed : deed = ⟨.stopProducer app client, .ok ()⟩) :
    mode = .stops client := by
  subst hdeed
  cases h with
  | stopped => rfl
  | aside _ _ _ _ _ _ hstop => exact absurd rfl (hstop client)

end Passage

/-! ## The tasks of a process -/

namespace Fleet

def holding (F : Fleet) (app : Nat) : Holding where
  producer := (F.self app).producer
  started := (F.self app).started
  begun := fun client => (app, ⟨.startProducer client, .ok ()⟩) ∈ F.deeds
  halted := fun client => (app, ⟨.stopProducer app (some client), .ok ()⟩) ∈ F.deeds

/-- A task may begin beside those that run, unless it or one of them is to stop. -/
def Free (F : Fleet) (app : Nat) (mode : Mode) : Prop :=
  ∀ u m, F.tasks u = some (app, m) → m.stopping = false ∧ mode.stopping = false

/-- Tasks may rely on what their modes say; the fields are right or being put right. -/
structure Tended (F : Fleet) (app : Nat) : Prop where
  alone : ∀ t u mode m, F.tasks t = some (app, mode) → mode.stopping = true →
    F.tasks u = some (app, m) → u = t
  relies : ∀ t mode, F.tasks t = some (app, mode) → mode.Relies (F.holding app)
  rest : (F.holding app).Rest ∨ ∃ t client, F.tasks t = some (app, .live client)
  begun : ∀ client, (F.holding app).halted client → (F.holding app).begun client

variable {may : Fleet → Nat → Mode → Prop} {F : Fleet} {app : Nat} {t : Tid}

theorem holding_act {mode : Mode} {self : KafkaEventProducer} {n : ClientId}
    {deed : Deed} :
    (F.act t app mode self n deed).holding app =
      (F.holding app).after app self deed := by
  simp only [holding, Holding.after, act_self, mem_act, true_and, eq_comm]

theorem holding_act_of_ne {b : Nat} {mode : Mode} {self : KafkaEventProducer}
    {n : ClientId} {deed : Deed} (hb : app ≠ b) :
    (F.act t b mode self n deed).holding app = F.holding app := by
  simp only [holding, act_self_of_ne hb, mem_act, hb, false_and, false_or]

theorem Tended.initial : Tended Fleet.initial app where
  alone := nofun
  relies := nofun
  rest := .inl (.inl ⟨rfl, fun client hlive => (by cases hlive.1), nofun⟩)
  begun := nofun

theorem Tended.put {task : Option (Nat × Mode)} (h : F.Tended app)
    (hdone : ∀ mode, F.tasks t = some (app, mode) → mode.done)
    (htask : ∀ mode, task = some (app, mode) →
      (mode = .away ∨ mode = .standing) ∧ F.Free app mode) :
    (F.put t task).Tended app where
  alone := fun u v mode m hu hstopping hv => by
    rcases tasks_put hu with ⟨rfl, heq⟩ | ⟨hne, hu⟩
    · rcases tasks_put hv with ⟨rfl, -⟩ | ⟨-, hv⟩
      · rfl
      · rw [((htask mode heq).2 v m hv).2] at hstopping
        cases hstopping
    · rcases tasks_put hv with ⟨-, heq⟩ | ⟨-, hv⟩
      · rw [((htask m heq).2 u mode hu).1] at hstopping
        cases hstopping
      · exact h.alone u v mode m hu hstopping hv
  relies := fun u mode hu => by
    rcases tasks_put hu with ⟨-, heq⟩ | ⟨-, hu⟩
    · obtain ⟨rfl | rfl, hfree⟩ := htask mode heq
      · exact trivial
      · refine h.rest.resolve_right fun ⟨v, client, hv⟩ => ?_
        cases (hfree v _ hv).2
    · exact h.relies u mode hu
  rest := h.rest.imp_right fun ⟨u, client, hu⟩ => by
    refine ⟨u, client, (Function.update_of_ne ?_ ..).trans hu⟩
    rintro rfl
    cases hdone _ hu
  begun := h.begun

/-- Whoever sees nothing of what another task is doing has not asked for the lock yet. -/
theorem Tended.others {u : Tid} {mode m : Mode} (h : F.Tended app)
    (hsound : F.Sound app) (ht : F.tasks t = some (app, mode)) (hacts : mode.acts = true)
    (hu : F.tasks u = some (app, m)) (hne : u ≠ t) : m = .away ∨ m = .asking := by
  have hrelies := h.relies u m hu
  have hstopping : m.stopping = false :=
    Bool.eq_false_iff.mpr fun hm => hne (h.alone u t m mode hu hm ht).symm
  have hunstarted : (F.holding app).started = false ∧ mode.locked = true := by
    have hmode := h.relies t mode ht
    cases mode with
    | chosen client => exact ⟨hmode.1.started, rfl⟩
    | placed client => exact ⟨hmode.1.started, rfl⟩
    | live client => exact ⟨hmode.1, rfl⟩
    | broken client => exact ⟨hmode.started, rfl⟩
    | stops client => exact absurd (h.alone t u _ m ht rfl hu) hne
    | _ => cases hacts
  have hfree : m.locked = false := by
    exact Bool.eq_false_iff.mpr fun hm => hne (hsound.holder hu ht hm hunstarted.2)
  cases m with
  | away => exact .inl rfl
  | asking => exact .inr rfl
  | ready =>
      obtain ⟨client, hon⟩ := hrelies
      cases hon.1.symm.trans hunstarted.1
  | knows client => cases hrelies.1.symm.trans hunstarted.1
  | lost => exact hrelies.elim
  | standing | stops client | gone => cases hstopping
  | _ => cases hfree

/-- The fields are right as long as nobody is putting them right. -/
theorem Tended.rest_of (h : F.Tended app)
    (hnone : ∀ u client, F.tasks u ≠ some (app, .live client)) : (F.holding app).Rest :=
  h.rest.resolve_right fun ⟨u, client, hu⟩ => hnone u client hu

theorem Tended.act {mode mode' : Mode} {self' : KafkaEventProducer} {n' : ClientId}
    {deed : Deed} (h : F.Tended app) (hsound : F.Sound app)
    (ht : F.tasks t = some (app, mode))
    (hp : Passage t app mode (F.self app) F.clients deed mode' self' n') :
    (F.act t app mode' self' n' deed).Tended app := by
  have hself : (F.act t app mode' self' n' deed).tasks t = some (app, mode') :=
    Function.update_self ..
  have hkept : ∀ {u m}, u ≠ t → F.tasks u = some (app, m) →
      (F.act t app mode' self' n' deed).tasks u = some (app, m) :=
    fun hne hu => (Function.update_of_ne hne ..).trans hu
  have halone : ∀ u v m m',
      (F.act t app mode' self' n' deed).tasks u = some (app, m) → m.stopping = true →
        (F.act t app mode' self' n' deed).tasks v = some (app, m') → v = u := by
    have hold : ∀ {u m}, (F.act t app mode' self' n' deed).tasks u = some (app, m) →
        ∃ m', F.tasks u = some (app, m') ∧ m'.stopping = m.stopping := by
      intro u m hu
      rcases tasks_act hu with ⟨rfl, heq⟩ | ⟨-, hu⟩
      · cases heq
        exact ⟨mode, ht, hp.stopping.symm⟩
      · exact ⟨m, hu, rfl⟩
    intro u v m m' hu hstopping hv
    obtain ⟨m₁, hu₁, hsame⟩ := hold hu
    obtain ⟨m₂, hv₂, -⟩ := hold hv
    exact h.alone u v m₁ m₂ hu₁ (hsame.trans hstopping) hv₂
  have hbegun : ∀ client, ((F.holding app).after app self' deed).halted client →
      ((F.holding app).after app self' deed).begun client := by
    rintro client (hdeed | hhalted)
    · have hstops := hp.stopped_of hdeed
      subst hstops
      exact .inr (h.relies t _ ht).2.live.1
    · exact .inr (h.begun client hhalted)
  cases hacts : mode.acts with
  | true =>
      obtain ⟨hrelies, hrest⟩ := hp.relies_acts hacts rfl rfl (h.relies t mode ht) h.begun
      refine ⟨halone, fun u m hu => ?_, ?_, ?_⟩
      · rw [holding_act]
        rcases tasks_act hu with ⟨-, heq⟩ | ⟨hne, hu⟩
        · cases heq
          exact hrelies
        · rcases h.others hsound ht hacts hu hne with rfl | rfl <;> exact trivial
      · rw [holding_act]
        exact hrest.imp_right fun ⟨client, hlive⟩ => ⟨t, client, hlive ▸ hself⟩
      · rw [holding_act]
        exact hbegun
  | false =>
      have hsame : (F.act t app mode' self' n' deed).holding app = F.holding app :=
        holding_act.trans (hp.quiet hacts rfl rfl)
      have hlive : ∀ {u client}, F.tasks u = some (app, .live client) → u ≠ t := by
        rintro u client hu rfl
        cases ht.symm.trans hu
        cases hacts
      have hrelies : mode'.Relies (F.holding app) := by
        refine hp.relies_quiet hacts rfl rfl (h.relies t mode ht) (fun _ hstarted => ?_)
          (fun hfree => ?_) fun hnew => Nat.lt_irrefl _ (hsound.deed _ _ hnew)
        · refine h.rest_of fun u client hu => ?_
          cases hstarted.symm.trans (h.relies u _ hu).1
        · refine h.rest_of fun u client hu => ?_
          cases hfree.symm.trans (hsound.lock u _ hu rfl)
      refine ⟨halone, fun u m hu => ?_, ?_, ?_⟩
      · rw [hsame]
        rcases tasks_act hu with ⟨-, heq⟩ | ⟨-, hu⟩
        · cases heq
          exact hrelies
        · exact h.relies u m hu
      · rw [hsame]
        exact h.rest.imp_right fun ⟨u, client, hu⟩ => ⟨u, client, hkept (hlive hu) hu⟩
      · rw [hsame]
        exact h.begun

/-- What happens in another process. -/
theorem Tended.elsewhere {b : Nat} {mode mode' : Mode} {self' : KafkaEventProducer}
    {n' : ClientId} {deed : Deed} (h : F.Tended app)
    (ht : F.tasks t = some (b, mode)) (hb : app ≠ b) :
    (F.act t b mode' self' n' deed).Tended app := by
  have hsame : (F.act t b mode' self' n' deed).holding app = F.holding app :=
    holding_act_of_ne hb
  have htasks : ∀ {u m}, (F.act t b mode' self' n' deed).tasks u = some (app, m) ↔
      F.tasks u = some (app, m) := tasks_elsewhere ht hb
  refine ⟨fun u v m m' hu hstopping hv =>
      h.alone u v m m' (htasks.mp hu) hstopping (htasks.mp hv),
    fun u m hu => hsame ▸ h.relies u m (htasks.mp hu), ?_, hsame ▸ h.begun⟩
  rw [hsame]
  exact h.rest.imp_right fun ⟨u, client, hu⟩ => ⟨u, client, htasks.mpr hu⟩

/-- `stop` runs alone in process `app`. -/
def StopsAlone (app : Nat) (F : Fleet) (b : Nat) (mode : Mode) : Prop :=
  b = app → F.Free app mode

theorem Reach.tended (h : Reach (StopsAlone app) F) : F.Tended app := by
  refine h.induct (P := (Tended · app)) .initial
    (fun hreach ih htask hp => ih.act hreach.sound htask hp)
    (fun hb ih htask _ => ih.elsewhere htask hb) (fun ih hnew hmode hmay => ?_)
    fun ih htask hdone => ?_
  · refine ih.put (fun m hold => ?_) fun m heq => ?_
    · cases hnew.symm.trans hold
    · cases heq
      exact ⟨hmode, hmay rfl⟩
  · refine ih.put (fun m hold => ?_) fun m heq => by cases heq
    cases htask.symm.trans hold
    exact hdone

end Fleet

end PhotoAnalysis

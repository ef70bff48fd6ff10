import PhotoAnalysis.Guarantees.Photos
import PhotoAnalysis.Refinement.Footprints

/-!
# The committed offset

A worker is watched while it runs: where it joined the topic, which message it
was handed, and from which ones `_handle_message` has returned.  As long as one
consumer owns the topic at a time, the committed offset follows what has been
handled.
-/

namespace PhotoAnalysis

open Foundation Program

/-! ## Watching the workers -/

/-- `_handle_message` has returned from a message, after or before `stop_event`. -/
structure Handled where
  offset : Nat
  message : ConsumerRecord
  stopping : Bool

/-- What one worker has been seen to do. -/
structure Incarnation where
  /-- the committed offset it started from -/
  joined : List Nat := []
  /-- the message in flight, and what is left of its handling -/
  current : Option (Nat × ConsumerRecord × Py Unit) := none
  handled : List Handled := []

namespace Incarnation

/-- One more message has been handled. -/
def add (inc : Incarnation) (offset : Nat) (message : ConsumerRecord)
    (stopping : Bool) : Incarnation :=
  { inc with
    current := none
    handled := inc.handled ++ [⟨offset, message, stopping⟩] }

/-- The handling of a message goes on, or has returned. -/
def follow (inc : Incarnation) (stopping : Bool) (offset : Nat)
    (message : ConsumerRecord) : Py Unit → Incarnation
  | .ret _ => inc.add offset message stopping
  | left => { inc with current := some (offset, message, left) }

/-- One operation of worker `t` is answered in `w`. -/
noncomputable def act (settings : Settings) (w : World) (t : Tid)
    (inc : Incarnation) : (op : Op) → Except PyExc op.Ans → Incarnation
  | .startConsumer, .ok _ => { inc with joined := inc.joined ++ [w.committedOffset] }
  | .getone, .ok message =>
      inc.follow (w.stopSet t) (w.position t) message
        (Consumer.handleMessage settings.interpreter (AnalysisProcessor.process settings)
          message)
  | op, answer =>
      match inc.current with
      | some (offset, message, left) =>
          inc.follow (w.stopSet t) offset message (left.after op answer)
      | none => inc

/-- The messages it handled although `stop_event` was set. -/
def late (inc : Incarnation) : List Handled := inc.handled.filter Handled.stopping

end Incarnation

abbrev Watch := Tid → Incarnation

noncomputable def Watch.see (settings : Settings) (state : State) (watch : Watch) :
    Label Entry Choice World.External → Watch
  | .step t choice =>
      match state.tasks t with
      | .running (.await op _) _ =>
          match World.perform t op choice state.world with
          | some (answer, _) =>
              Function.update watch t ((watch t).act settings state.world t op answer)
          | none => watch
      | _ => watch
  | _ => watch

/-- Task `t` is a worker that runs. -/
def Working (state : State) (t : Tid) : Prop :=
  (∃ now loop, state.tasks t = .running now loop) ∧
    (state.world.arrivals t).map Arrival.entry = some .worker

/-- A run, watched, in which a worker starts only when no other one runs. -/
inductive Watched (settings : Settings) : State → Watch → Prop where
  | start : Watched settings start fun _ => {}
  | next {state state' : State} {watch : Watch}
      (label : Label Entry Choice World.External) (h : Watched settings state watch)
      (hsole : ∀ t, label = .start t .worker → ∀ other, ¬Working state other)
      (hnext : (system settings).next state label = some state') :
      Watched settings state' (watch.see settings state label)

theorem Watched.reachable {settings : Settings} {state : State} {watch : Watch}
    (h : Watched settings state watch) : Reachable settings state := by
  induction h with
  | start => exact ⟨[], rfl⟩
  | next label h hsole hnext ih =>
      exact Machine.Leads.trans _ ih ⟨[label], by simp [Machine.follow, hnext]⟩

/-! ## One incarnation -/

namespace Incarnation

variable {settings : Settings} {w : World} {t : Tid} {inc : Incarnation}

theorem act_of_free {op : Op} (answer : Except PyExc op.Ans)
    (hop : op.concern ≠ .consumer) (hcurrent : inc.current = none) :
    inc.act settings w t op answer = inc := by
  cases op with
  | startConsumer | getone => exact absurd rfl hop
  | _ => simp only [act, hcurrent]

theorem act_of_current {op : Op} (answer : Except PyExc op.Ans) {offset : Nat}
    {message : ConsumerRecord} {left : Py Unit} (hop : op.concern ≠ .consumer)
    (hcurrent : inc.current = some (offset, message, left)) :
    inc.act settings w t op answer =
      inc.follow (w.stopSet t) offset message (left.after op answer) := by
  cases op with
  | startConsumer | getone => exact absurd rfl hop
  | _ => simp only [act, hcurrent]

/-- It joined once and handled one message after the other from there. -/
structure From (inc : Incarnation) (c : Nat) : Prop where
  joined : inc.joined = [c]
  offsets : inc.handled.map Handled.offset = List.range' c inc.handled.length

/-- It has not joined yet, or has gone on from where it did. -/
def Ordered (inc : Incarnation) : Prop :=
  inc.joined = [] ∧ inc.handled = [] ∨ ∃ c, inc.From c

/-- At most one message was handled late, and none unless it was stopped. -/
structure Lately (inc : Incarnation) (stopped : Bool) : Prop where
  once : inc.late.length ≤ 1
  never : stopped = false → inc.late = []

theorem Lately.of_none {stopped : Bool} (h : inc.late = []) : inc.Lately stopped :=
  ⟨by simp [h], fun _ => h⟩

theorem Lately.mono {stopped stopped' : Bool} (h : inc.Lately stopped)
    (hstop : stopped = true → stopped' = true) : inc.Lately stopped' := by
  refine ⟨h.once, fun hnot => h.never ?_⟩
  cases stopped with
  | false => rfl
  | true => rw [hstop rfl] at hnot; cases hnot

theorem From.add {c : Nat} {message : ConsumerRecord} {stopping : Bool}
    (h : inc.From c) :
    (inc.add (c + inc.handled.length) message stopping).From c := by
  refine ⟨h.joined, ?_⟩
  simp only [Incarnation.add, List.map_append, List.map_cons, List.map_nil, h.offsets,
    List.length_append, List.length_cons, List.length_nil, Nat.zero_add]
  exact List.range'_1_concat.symm

theorem Lately.add {offset : Nat} {message : ConsumerRecord} {stopping : Bool}
    (h : inc.late = []) : (inc.add offset message stopping).Lately stopping := by
  have hlate : (inc.add offset message stopping).late =
      [⟨offset, message, stopping⟩].filter Handled.stopping := by
    simp only [late, Incarnation.add, List.filter_append]
    exact (congrArg (· ++ _) h).trans (List.nil_append _)
  constructor
  · rw [hlate]
    exact List.length_filter_le _ _
  · rintro rfl
    rw [hlate]
    rfl

end Incarnation

/-- `await consumer.commit()`, and round the loop. -/
def settle : Py (Option Reply) := do
  wait .commitOffset
  pure none

/-- A turn of the loop, once it is known that it goes on. -/
def fetch (settings : Settings) : Py (Option Reply) := do
  match ← (wait .getone).attempt with
  | .error exc => if exc.isTimeout then pure none else .raise exc
  | .ok message => do
      Consumer.handleMessage settings.interpreter (AnalysisProcessor.process settings) message
      settle

theorem turn_eq (settings : Settings) :
    Consumer.turn settings.interpreter (AnalysisProcessor.process settings) =
        .await .stopIsSet fun
      | .ok stopped => if stopped then .ret (some .stopped) else fetch settings
      | .error exc => .raise exc := by
  refine congrArg (Program.await Op.stopIsSet) (funext fun answer => ?_)
  cases answer with
  | ok stopped => cases stopped <;> rfl
  | error exc => rfl

/-! ## The operations of the consumer -/

section

variable {t : Tid} {choice : Choice} {w w' : World}

theorem World.perform_stopIsSet {answer : Except PyExc Bool}
    (h : World.perform t .stopIsSet choice w = some (answer, w')) :
    answer = .ok (w.stopSet t) ∧ w' = w := by
  rcases World.perform_cases h with ⟨exc, kept, hcan, -, -⟩ | ⟨exc, w₁, hw₁, -, -⟩ | h
  · cases hcan
  · cases hw₁
  · cases choice <;> cases h
    exact ⟨rfl, rfl⟩

theorem World.perform_startConsumer {answer : Except PyExc Unit}
    (h : World.perform t .startConsumer choice w = some (answer, w')) :
    w'.committedOffset = w.committedOffset ∧ ((∃ exc, answer = .error exc) ∨
      answer = .ok () ∧ w'.position t = w.committedOffset) := by
  rcases World.perform_cases h with ⟨exc, kept, -, rfl, rfl⟩ | ⟨exc, w₁, hw₁, -, -⟩ | h
  · cases kept <;> exact ⟨rfl, .inl ⟨exc, rfl⟩⟩
  · cases hw₁
  · cases choice <;> cases h
    exact ⟨rfl, .inr ⟨rfl, Function.update_self ..⟩⟩

theorem World.perform_getone {answer : Except PyExc ConsumerRecord}
    (h : World.perform t .getone choice w = some (answer, w')) :
    w'.committedOffset = w.committedOffset ∧ w'.topic = w.topic ∧
      ((∃ exc, answer = .error exc ∧ w'.position = w.position) ∨
        ∃ message, answer = .ok message ∧ w.topic[w.position t]? = some message ∧
          w'.position t = w.position t + 1) := by
  rcases World.perform_cases h with ⟨exc, kept, -, rfl, rfl⟩ | ⟨exc, w₁, hw₁, -, -⟩ | h
  · cases kept <;> exact ⟨rfl, rfl, .inl ⟨exc, rfl, rfl⟩⟩
  · cases hw₁
  · cases choice <;> try cases h
    simp only [World.answer] at h
    split at h <;> cases h
    next message hmessage =>
      exact ⟨rfl, rfl, .inr ⟨message, rfl, hmessage, Function.update_self ..⟩⟩

theorem World.perform_commitOffset {answer : Except PyExc Unit}
    (h : World.perform t .commitOffset choice w = some (answer, w')) :
    w'.position = w.position ∧
      ((∃ exc, answer = .error exc) ∧ w'.committedOffset = w.committedOffset ∨
        w'.committedOffset = w.position t) := by
  rcases World.perform_cases h with ⟨exc, kept, -, rfl, rfl⟩ |
    ⟨exc, w₁, hw₁, -, rfl⟩ | h
  · cases kept <;> exact ⟨rfl, .inl ⟨⟨exc, rfl⟩, rfl⟩⟩
  · cases hw₁
    exact ⟨rfl, .inr rfl⟩
  · cases choice <;> cases h
    exact ⟨rfl, .inr rfl⟩

/-- What is on the topic stays where it is. -/
theorem World.perform_topic {op : Op} {answer : Except PyExc op.Ans}
    (h : World.perform t op choice w = some (answer, w')) {i : Nat}
    {message : ConsumerRecord} (hi : w.topic[i]? = some message) :
    w'.topic[i]? = some message := by
  have hsent : ∀ record, (w.topic ++ [record])[i]? = some message := fun record => by
    rw [List.getElem?_append_left (List.getElem?_eq_some_iff.mp hi).1, hi]
  by_cases hop : op.concern = .send
  · cases op with
    | sendAndWait client value key =>
        rcases World.perform_cases h with ⟨exc, kept, -, -, rfl⟩ |
          ⟨exc, w₁, hw₁, -, rfl⟩ | h
        · cases kept <;> exact hi
        · cases hw₁
          exact hsent _
        · cases choice <;> cases h
          exact hsent _
    | _ => cases hop
  · rw [(Keeps.perform h).topic hop, hi]

end

/-- Nothing that a worker's stage depends on has changed, unless it was stopped. -/
structure Aside (w w' : World) : Prop where
  position : w'.position = w.position
  offset : w'.committedOffset = w.committedOffset
  stopSet : ∀ t, w.stopSet t = true → w'.stopSet t = true
  topic : ∀ {i : Nat} {message : ConsumerRecord},
    w.topic[i]? = some message → w'.topic[i]? = some message

theorem Aside.perform {t : Tid} {op : Op} {choice : Choice} {w w' : World}
    {answer : Except PyExc op.Ans} (hop : op.concern ≠ .consumer)
    (h : World.perform t op choice w = some (answer, w')) : Aside w w' where
  position := (Keeps.perform h).position hop
  offset := (Keeps.perform h).offset hop
  stopSet := fun t ht => (congrFun (Keeps.perform h).stopSet t).trans ht
  topic := World.perform_topic h

theorem Aside.closed (t : Tid) (outcome : Outcome) (w : World) :
    Aside w (w.closed t outcome) :=
  ⟨rfl, rfl, fun _ h => h, fun h => h⟩

theorem Aside.opened (t : Tid) (entry : Entry) (w : World) :
    Aside w (w.opened t entry) :=
  ⟨rfl, rfl, fun _ h => h, fun h => h⟩

theorem Aside.external (event : World.External) (w : World) :
    Aside w (w.external event) := by
  cases event with
  | tick elapsed => exact ⟨rfl, rfl, fun _ h => h, fun h => h⟩
  | stop tid =>
      refine ⟨rfl, rfl, fun t ht => ?_, fun h => h⟩
      by_cases hself : t = tid
      · exact hself ▸ Function.update_self ..
      · exact (Function.update_of_ne hself ..).trans ht
  | produce value key =>
      refine ⟨rfl, rfl, fun _ h => h, fun {i message} hi => ?_⟩
      exact (List.getElem?_append_left (List.getElem?_eq_some_iff.mp hi).1).trans hi

/-- How far worker `t` has come with the message after those it has handled. -/
inductive Stage (settings : Settings) (w : World) (t : Tid) (inc : Incarnation) :
    Py (Option Reply) → Prop where
  | joining (hinc : inc = {}) :
      Stage settings w t inc (do wait .startConsumer; pure none)
  | between (c : Nat) (now : Py (Option Reply)) (hfrom : inc.From c)
      (hcurrent : inc.current = none)
      (hposition : w.position t = c + inc.handled.length)
      (hcommitted : w.committedOffset = c + inc.handled.length)
      (hlate : inc.Lately (w.stopSet t))
      (hnow : now =
          Consumer.turn settings.interpreter (AnalysisProcessor.process settings) ∨
        ∃ result, now = .ret result) : Stage settings w t inc now
  | fetching (c : Nat) (hfrom : inc.From c) (hcurrent : inc.current = none)
      (hposition : w.position t = c + inc.handled.length)
      (hcommitted : w.committedOffset = c + inc.handled.length)
      (hlate : inc.late = []) : Stage settings w t inc (fetch settings)
  | handling (c : Nat) (message : ConsumerRecord) (op : Op)
      (resume : Except PyExc op.Ans → Py Unit) (hfrom : inc.From c)
      (hcurrent : inc.current =
        some (c + inc.handled.length, message, .await op resume))
      (hposition : w.position t = c + inc.handled.length + 1)
      (hcommitted : w.committedOffset = c + inc.handled.length)
      (hlate : inc.late = [])
      (hmessage : w.topic[c + inc.handled.length]? = some message)
      (huses : (.await op resume : Py Unit).Uses fun op => op.concern ≠ .consumer) :
      Stage settings w t inc ((.await op resume : Py Unit).bind fun _ => settle)
  | committing (c : Nat) (last : Handled) (hfrom : inc.From c)
      (hcurrent : inc.current = none)
      (hposition : w.position t = c + inc.handled.length)
      (hlast : last ∈ inc.handled) (hoffset : w.committedOffset = last.offset)
      (hnext : last.offset + 1 = c + inc.handled.length)
      (hmessage : w.topic[last.offset]? = some last.message)
      (hlate : inc.Lately (w.stopSet t)) : Stage settings w t inc settle
  | failed (exc : PyExc) (hordered : inc.Ordered) (hlate : inc.late.length ≤ 1) :
      Stage settings w t inc (.raise exc)

namespace Stage

variable {settings : Settings} {w w' : World} {t : Tid} {inc : Incarnation}

theorem ordered {now : Py (Option Reply)} (h : Stage settings w t inc now) :
    inc.Ordered ∧ inc.late.length ≤ 1 := by
  have hnone : ∀ {inc : Incarnation}, inc.late = [] → inc.late.length ≤ 1 :=
    fun h => by simp [h]
  cases h with
  | joining hinc =>
      subst hinc
      exact ⟨.inl ⟨rfl, rfl⟩, Nat.zero_le _⟩
  | between c now hfrom hcurrent hposition hcommitted hlate hnow =>
      exact ⟨.inr ⟨c, hfrom⟩, hlate.once⟩
  | fetching c hfrom hcurrent hposition hcommitted hlate =>
      exact ⟨.inr ⟨c, hfrom⟩, hnone hlate⟩
  | handling c message op resume hfrom hcurrent hposition hcommitted hlate =>
      exact ⟨.inr ⟨c, hfrom⟩, hnone hlate⟩
  | committing c last hfrom hcurrent hposition hlast hoffset hnext hmessage hlate =>
      exact ⟨.inr ⟨c, hfrom⟩, hlate.once⟩
  | failed exc hordered hlate => exact ⟨hordered, hlate⟩

theorem keep {now : Py (Option Reply)} (h : Stage settings w t inc now)
    (haside : Aside w w') : Stage settings w' t inc now := by
  have hpos := congrFun haside.position t
  have hcom := haside.offset
  have hstop := haside.stopSet t
  have htopic := @haside.topic
  cases h with
  | joining hinc => exact .joining hinc
  | between c now hfrom hcurrent hposition hcommitted hlate hnow =>
      exact .between c now hfrom hcurrent (hpos.trans hposition) (hcom.trans hcommitted)
        (hlate.mono hstop) hnow
  | fetching c hfrom hcurrent hposition hcommitted hlate =>
      exact .fetching c hfrom hcurrent (hpos.trans hposition) (hcom.trans hcommitted)
        hlate
  | handling c message op resume hfrom hcurrent hposition hcommitted hlate hmessage
      huses =>
      exact .handling c message op resume hfrom hcurrent (hpos.trans hposition)
        (hcom.trans hcommitted) hlate (htopic hmessage) huses
  | committing c last hfrom hcurrent hposition hlast hoffset hnext hmessage hlate =>
      exact .committing c last hfrom hcurrent (hpos.trans hposition) hlast
        (hcom.trans hoffset) hnext (htopic hmessage) (hlate.mono hstop)
  | failed exc hordered hlate => exact .failed exc hordered hlate

theorem again (h : Stage settings w t inc (.ret none)) :
    Stage settings w t inc
      (Consumer.turn settings.interpreter (AnalysisProcessor.process settings)) := by
  generalize hprogram : (Program.ret none : Py (Option Reply)) = now at h
  cases h with
  | between c now hfrom hcurrent hposition hcommitted hlate hnow =>
      exact .between c _ hfrom hcurrent hposition hcommitted hlate (.inl rfl)
  | joining | fetching | handling | committing | failed => cases hprogram

theorem follow {c : Nat} {message : ConsumerRecord} {left : Py Unit}
    (hfrom : inc.From c) (hposition : w.position t = c + inc.handled.length + 1)
    (hcommitted : w.committedOffset = c + inc.handled.length)
    (hlate : inc.late = [])
    (hmessage : w.topic[c + inc.handled.length]? = some message)
    (huses : left.Uses fun op => op.concern ≠ .consumer) :
    Stage settings w t
      (inc.follow (w.stopSet t) (c + inc.handled.length) message left)
      (left.bind fun _ => settle) := by
  cases left with
  | ret value =>
      have hlength : (inc.add (c + inc.handled.length) message
          (w.stopSet t)).handled.length = inc.handled.length + 1 :=
        List.length_append
      refine .committing c ⟨c + inc.handled.length, message, w.stopSet t⟩ hfrom.add rfl
        ?_ (List.mem_append_right _ (List.mem_singleton.mpr rfl)) hcommitted ?_ hmessage
        (.add hlate)
      · exact hposition.trans (by rw [Incarnation.follow, hlength, Nat.add_assoc])
      · rw [Incarnation.follow, hlength, Nat.add_assoc]
  | raise exc =>
      exact .failed exc (.inr ⟨c, hfrom.joined, hfrom.offsets⟩)
        (le_of_eq_of_le (congrArg List.length hlate) (Nat.zero_le _))
  | await op resume =>
      exact .handling c message op resume ⟨hfrom.joined, hfrom.offsets⟩ rfl hposition
        hcommitted hlate hmessage huses

/-- One operation of a worker: its stage, and what it has committed by it. -/
theorem act {op : Op} {resume : Except PyExc op.Ans → Py (Option Reply)}
    {choice : Choice} {answer : Except PyExc op.Ans}
    (h : Stage settings w t inc (.await op resume))
    (hp : World.perform t op choice w = some (answer, w')) :
    Stage settings w' t (inc.act settings w t op answer) (resume answer) ∧
      (w'.committedOffset = w.committedOffset ∨ ∃ last ∈ inc.handled,
        last.offset = w.committedOffset ∧ w.topic[last.offset]? = some last.message ∧
          w'.committedOffset = last.offset + 1) := by
  have hkeeps := Keeps.perform hp
  have hstop : w'.stopSet t = w.stopSet t := congrFun hkeeps.stopSet t
  generalize hprogram : (Program.await op resume : Py (Option Reply)) = now at h
  have hordered := h.ordered
  cases h with
  | joining hinc =>
      cases hprogram
      subst hinc
      obtain ⟨hsame, ⟨exc, rfl⟩ | ⟨rfl, hposition⟩⟩ := World.perform_startConsumer hp
      · exact ⟨.failed exc (.inl ⟨rfl, rfl⟩) (Nat.zero_le _), .inl hsame⟩
      · exact ⟨.between w.committedOffset _ ⟨rfl, rfl⟩ rfl hposition hsame
          (.of_none rfl) (.inr ⟨none, rfl⟩), .inl hsame⟩
  | between c now hfrom hcurrent hposition hcommitted hlate hnow =>
      rcases hnow with rfl | ⟨result, rfl⟩
      · rw [turn_eq] at hprogram
        cases hprogram
        obtain ⟨rfl, rfl⟩ := World.perform_stopIsSet hp
        refine ⟨?_, .inl rfl⟩
        have hop : Op.stopIsSet.concern ≠ .consumer := nofun
        rw [Incarnation.act_of_free _ hop hcurrent]
        cases hset : w'.stopSet t with
        | false =>
            exact .fetching c hfrom hcurrent hposition hcommitted (hlate.never hset)
        | true =>
            exact .between c _ hfrom hcurrent hposition hcommitted hlate
              (.inr ⟨_, rfl⟩)
      · cases hprogram
  | fetching c hfrom hcurrent hposition hcommitted hlate =>
      cases hprogram
      obtain ⟨hsame, htopic, ⟨exc, rfl, hstays⟩ | ⟨message, rfl, hmessage, hmoves⟩⟩ :=
        World.perform_getone hp
      · refine ⟨?_, .inl hsame⟩
        have hact : inc.act settings w t .getone (.error exc) = inc := by
          simp only [Incarnation.act, hcurrent]
        rw [hact]
        change Stage settings w' t inc (if exc.isTimeout then .ret none else .raise exc)
        split
        · exact .between c _ hfrom hcurrent ((congrFun hstays t).trans hposition)
            (hsame.trans hcommitted) (.of_none hlate) (.inr ⟨none, rfl⟩)
        · exact .failed exc hordered.1 hordered.2
      · refine ⟨?_, .inl hsame⟩
        rw [hposition] at hmessage hmoves
        have huses : (Consumer.handleMessage settings.interpreter
            (AnalysisProcessor.process settings) message).Uses
              fun op => op.concern ≠ .consumer :=
          (handleMessage_within process_plain _ message).mono fun op h =>
            h.ne (by simp) nofun
        have hfollow : Stage settings w' t _ _ := follow hfrom hmoves
          (hsame.trans hcommitted) hlate (htopic ▸ hmessage) huses
        rw [hstop, ← hposition] at hfollow
        exact hfollow
  | handling c message op' resume' hfrom hcurrent hposition hcommitted hlate hmessage
      huses =>
      cases hprogram
      have hop := huses.1
      have hsame := hkeeps.offset hop
      refine ⟨?_, .inl hsame⟩
      rw [Incarnation.act_of_current answer hop hcurrent, after_await, ← hstop]
      exact follow hfrom ((congrFun (hkeeps.position hop) t).trans hposition)
        (hsame.trans hcommitted) hlate (World.perform_topic hp hmessage)
        (huses.2 answer)
  | committing c last hfrom hcurrent hposition hlast hoffset hnext hmessage hlate =>
      cases hprogram
      have hact : inc.act settings w t .commitOffset answer = inc := by
        simp only [Incarnation.act, hcurrent]
      rw [hact]
      obtain ⟨hstays, ⟨⟨exc, rfl⟩, hsame⟩ | hmoves⟩ := World.perform_commitOffset hp
      · exact ⟨.failed exc hordered.1 hordered.2, .inl hsame⟩
      · refine ⟨?_, .inr ⟨last, hlast, hoffset.symm, hmessage, ?_⟩⟩
        · cases answer with
          | error exc => exact .failed exc hordered.1 hordered.2
          | ok value =>
              exact .between c _ hfrom hcurrent ((congrFun hstays t).trans hposition)
                (hmoves.trans hposition) (hstop ▸ hlate) (.inr ⟨none, rfl⟩)
        · rw [hmoves, hposition, hnext]
  | failed exc hordered hlate => cases hprogram

end Stage

/-! ## All workers -/

/-- The account of one task that `watch` gives. -/
structure Account (settings : Settings) (state : State) (watch : Watch) (t : Tid) :
    Prop where
  fresh : state.tasks t = .fresh → watch t = {}
  other : ¬(state.world.arrivals t).map Arrival.entry = some .worker → watch t = {}
  worker : (state.world.arrivals t).map Arrival.entry = some .worker →
    ∀ now loop, state.tasks t = .running now loop →
      Stage settings state.world t (watch t) now
  ordered : (watch t).Ordered ∧ (watch t).late.length ≤ 1

/-- The books are kept: whatever lies below the committed offset has been handled. -/
structure Books (settings : Settings) (state : State) (watch : Watch) : Prop where
  handled : ∀ i, i < state.world.committedOffset → ∃ t, ∃ done ∈ (watch t).handled,
    done.offset = i ∧ state.world.topic[i]? = some done.message
  sole : ∀ t t', Working state t → Working state t' → t = t'
  account : ∀ t, Account settings state watch t

section

variable {settings : Settings} {state : State} {watch : Watch}

theorem Working.of_set {w : World} {tid t : Tid}
    {task : TaskState Op Op.Ans PyExc Reply} (h : Working (state.set w tid task) t)
    (harrivals : w.arrivals = state.world.arrivals)
    (htask : ∀ now loop, task = .running now loop →
      ∃ now loop, state.tasks tid = .running now loop) : Working state t := by
  obtain ⟨⟨now, loop, hrun⟩, hentry⟩ := h
  rw [Pool.set_world, harrivals] at hentry
  rcases Pool.running_of_set hrun with ⟨rfl, hself⟩ | ⟨-, hrun⟩
  · exact ⟨htask now loop hself, hentry⟩
  · exact ⟨⟨now, loop, hrun⟩, hentry⟩

theorem Account.keep {w : World} {tid t : Tid}
    {task : TaskState Op Op.Ans PyExc Reply} (h : Account settings state watch t)
    (haside : Aside state.world w)
    (hentry : w.arrivals t = state.world.arrivals t)
    (hself : t = tid → task ≠ .fresh ∧ ∀ now loop, task = .running now loop →
      (state.world.arrivals t).map Arrival.entry = some .worker →
        Stage settings w t (watch t) now) :
    Account settings (state.set w tid task) watch t := by
  by_cases hsame : t = tid
  · obtain ⟨hstarted, hstage⟩ := hself hsame
    subst hsame
    refine ⟨fun hfresh => ?_, fun hnot => h.other ?_, fun hworker now loop hrun => ?_,
      h.ordered⟩
    · exact absurd ((Pool.set_tasks_self ..).symm.trans hfresh) hstarted
    · exact hentry ▸ hnot
    · exact hstage now loop ((Pool.set_tasks_self ..).symm.trans hrun)
        (hentry ▸ hworker)
  · have htasks := state.set_tasks_of_ne w task hsame
    refine ⟨fun hfresh => h.fresh (htasks.symm.trans hfresh), fun hnot => h.other ?_,
      fun hworker now loop hrun => ?_, h.ordered⟩
    · exact hentry ▸ hnot
    · exact (h.worker (hentry ▸ hworker) now loop (htasks.symm.trans hrun)).keep haside

theorem Books.keep {w : World} {tid : Tid} {task : TaskState Op Op.Ans PyExc Reply}
    (h : Books settings state watch) (haside : Aside state.world w)
    (harrivals : w.arrivals = state.world.arrivals) (hstarted : task ≠ .fresh)
    (htask : ∀ now loop, task = .running now loop →
      (∃ now loop, state.tasks tid = .running now loop) ∧
      ((state.world.arrivals tid).map Arrival.entry = some .worker →
        Stage settings w tid (watch tid) now)) :
    Books settings (state.set w tid task) watch where
  handled := fun i hi => by
    obtain ⟨t, done, hdone, hoffset, hmessage⟩ := h.handled i (haside.offset ▸ hi)
    exact ⟨t, done, hdone, hoffset, haside.topic hmessage⟩
  sole := fun t t' hworks hworks' =>
    h.sole t t' (hworks.of_set harrivals fun now loop heq => (htask now loop heq).1)
      (hworks'.of_set harrivals fun now loop heq => (htask now loop heq).1)
  account := fun t => (h.account t).keep haside (congrFun harrivals t) fun hsame =>
    ⟨hstarted, fun now loop heq hworker =>
      hsame ▸ (htask now loop heq).2 (hsame ▸ hworker)⟩

theorem Books.begin {tid : Tid} {entry : Entry} (h : Books settings state watch)
    (htask : state.tasks tid = .fresh)
    (hsole : entry = .worker → ∀ other, ¬Working state other) :
    Books settings (state.set (state.world.opened tid entry) tid (.running
      (routine settings entry).first (routine settings entry).loop)) watch := by
  have hfresh := (h.account tid).fresh htask
  have harrival : (state.world.opened tid entry).arrivals tid =
      some ⟨entry, state.world.ended⟩ := Function.update_self ..
  have hothers : ∀ {t}, t ≠ tid →
      (state.world.opened tid entry).arrivals t = state.world.arrivals t :=
    fun hne => Function.update_of_ne hne ..
  have hworks : ∀ t, Working (state.set (state.world.opened tid entry) tid
      (.running (routine settings entry).first (routine settings entry).loop)) t →
      t = tid ∧ entry = .worker ∨ t ≠ tid ∧ Working state t := by
    rintro t ⟨⟨now, loop, hrun⟩, hentry⟩
    rcases Pool.running_of_set hrun with ⟨rfl, -⟩ | ⟨hne, hrun⟩
    · rw [Pool.set_world, harrival] at hentry
      exact .inl ⟨rfl, Option.some.inj hentry⟩
    · rw [Pool.set_world, hothers hne] at hentry
      exact .inr ⟨hne, ⟨now, loop, hrun⟩, hentry⟩
  refine ⟨h.handled, fun t t' ht ht' => ?_, fun t => ?_⟩
  · rcases hworks t ht with ⟨rfl, hentry⟩ | ⟨-, ht⟩
    · rcases hworks t' ht' with ⟨rfl, -⟩ | ⟨-, ht'⟩
      · rfl
      · exact absurd ht' (hsole hentry t')
    · rcases hworks t' ht' with ⟨-, hentry⟩ | ⟨-, ht'⟩
      · exact absurd ht (hsole hentry t)
      · exact h.sole t t' ht ht'
  · by_cases hsame : t = tid
    · subst hsame
      refine ⟨fun _ => hfresh, fun _ => hfresh, fun hworker now loop hrun => ?_,
        (h.account t).ordered⟩
      rw [Pool.set_world, harrival] at hworker
      cases Option.some.inj hworker
      cases (Pool.set_tasks_self ..).symm.trans hrun
      exact .joining hfresh
    · exact (h.account t).keep (.opened tid entry state.world) (hothers hsame)
        fun heq => absurd heq hsame

theorem Incarnation.handled_act {op : Op} {answer : Except PyExc op.Ans} {w : World}
    {t : Tid} {inc : Incarnation} {done : Handled} (h : done ∈ inc.handled) :
    done ∈ (inc.act settings w t op answer).handled := by
  have hfollow : ∀ stopping offset message left,
      done ∈ (inc.follow stopping offset message left).handled := by
    intro stopping offset message left
    cases left with
    | ret value => exact List.mem_append_left _ h
    | raise | await => exact h
  unfold Incarnation.act
  split
  · exact h
  · exact hfollow ..
  · split
    · exact hfollow ..
    · exact h

/-- An operation of a task that is no worker. -/
theorem Books.step_other {tid : Tid} {op : Op} {choice : Choice} {w : World}
    {answer : Except PyExc op.Ans}
    {resume : Except PyExc op.Ans → Py (Option Reply)} {loop : Py (Option Reply)}
    (h : Books settings state watch) (hreach : Reachable settings state)
    (htask : state.tasks tid = .running (.await op resume) loop)
    (hp : World.perform tid op choice state.world = some (answer, w))
    (hnot : ¬(state.world.arrivals tid).map Arrival.entry = some .worker) :
    (watch tid).act settings state.world tid op answer = watch tid ∧
      Books settings (state.set w tid (.running (resume answer) loop)) watch := by
  obtain ⟨arrival, harrival, huses, -⟩ := running_within hreach htask
  have hop : op.concern ≠ .consumer := by
    refine huses.1.ne ?_ nofun
    have hentry : arrival.entry ≠ .worker := fun heq =>
      hnot (by rw [harrival, ← heq]; rfl)
    cases hkind : arrival.entry with
    | worker => exact absurd hkind hentry
    | _ => simp [Entry.concerns]
  have hempty := (h.account tid).other hnot
  refine ⟨Incarnation.act_of_free answer hop (by rw [hempty]), ?_⟩
  exact h.keep (.perform hop hp) (World.perform_tasks hp).1 nofun fun now loop' heq =>
    ⟨⟨_, _, htask⟩, fun hworker => absurd hworker hnot⟩

/-- An operation of a worker. -/
theorem Books.step_worker {tid : Tid} {op : Op} {choice : Choice} {w : World}
    {answer : Except PyExc op.Ans}
    {resume : Except PyExc op.Ans → Py (Option Reply)} {loop : Py (Option Reply)}
    (h : Books settings state watch)
    (htask : state.tasks tid = .running (.await op resume) loop)
    (hp : World.perform tid op choice state.world = some (answer, w))
    (hworker : (state.world.arrivals tid).map Arrival.entry = some .worker) :
    Books settings (state.set w tid (.running (resume answer) loop))
      (Function.update watch tid
        ((watch tid).act settings state.world tid op answer)) := by
  have harrivals := (World.perform_tasks hp).1
  have hworks : ∀ {t}, Working (state.set w tid (.running (resume answer) loop)) t →
      Working state t := fun ht =>
    ht.of_set harrivals fun now loop' heq => ⟨_, _, htask⟩
  obtain ⟨hstage, hcommitted⟩ := ((h.account tid).worker hworker _ _ htask).act hp
  have hgrows : ∀ {t done}, done ∈ (watch t).handled → done ∈ (Function.update watch tid
      ((watch tid).act settings state.world tid op answer) t).handled := by
    intro t done hdone
    by_cases hsame : t = tid
    · subst hsame
      rw [Function.update_self]
      exact Incarnation.handled_act hdone
    · rwa [Function.update_of_ne hsame]
  have hold : ∀ i, i < state.world.committedOffset → ∃ t,
      ∃ done ∈ (Function.update watch tid
        ((watch tid).act settings state.world tid op answer) t).handled,
      done.offset = i ∧ w.topic[i]? = some done.message := by
    intro i hi
    obtain ⟨t, done, hdone, hoffset, hmessage⟩ := h.handled i hi
    exact ⟨t, done, hgrows hdone, hoffset, World.perform_topic hp hmessage⟩
  refine ⟨fun i hi => ?_, fun t t' ht ht' => h.sole t t' (hworks ht) (hworks ht'),
    fun t => ?_⟩
  · rcases hcommitted with hsame | ⟨last, hlast, hoffset, hmessage, hmoves⟩
    · exact hold i (hsame ▸ hi)
    · have hbelow : i < last.offset + 1 := hmoves ▸ hi
      rcases Nat.lt_succ_iff_lt_or_eq.mp hbelow with hi | rfl
      · exact hold i (hoffset ▸ hi)
      · exact ⟨tid, last, hgrows hlast, rfl, World.perform_topic hp hmessage⟩
  · by_cases hsame : t = tid
    · subst hsame
      have hself : (state.set w t (.running (resume answer) loop)).tasks t =
          .running (resume answer) loop := Pool.set_tasks_self ..
      refine ⟨fun hfresh => ?_, fun hnot => ?_, fun _ now loop' hrun => ?_, ?_⟩
      · cases hself.symm.trans hfresh
      · exact absurd ((congrFun harrivals t).symm ▸ hworker) hnot
      · cases hself.symm.trans hrun
        exact (Function.update_self t _ watch).symm ▸ hstage
      · exact (Function.update_self t _ watch).symm ▸ hstage.ordered
    · have htasks := state.set_tasks_of_ne w (.running (resume answer) loop) hsame
      have haccount := h.account t
      have hwatch := Function.update_of_ne hsame
        ((watch tid).act settings state.world tid op answer) watch
      refine ⟨fun hfresh => ?_, fun hnot => ?_, fun hother now loop' hrun => ?_, ?_⟩
      · exact hwatch.trans (haccount.fresh (htasks.symm.trans hfresh))
      · exact hwatch.trans (haccount.other (congrFun harrivals t ▸ hnot))
      · have hboth : Working state t :=
          ⟨⟨now, loop', htasks.symm.trans hrun⟩, congrFun harrivals t ▸ hother⟩
        exact absurd (h.sole t tid hboth ⟨⟨_, _, htask⟩, hworker⟩) hsame
      · exact hwatch.symm ▸ haccount.ordered

theorem Books.next {state' : State} {label : Label Entry Choice World.External}
    (h : Books settings state watch) (hreach : Reachable settings state)
    (hsole : ∀ t, label = .start t .worker → ∀ other, ¬Working state other)
    (hnext : (system settings).next state label = some state') :
    Books settings state' (watch.see settings state label) := by
  cases Machine.goes_of_next _ hnext with
  | start tid entry htask => exact h.begin htask fun heq => hsole tid (heq ▸ rfl)
  | step tid choice op resume loop answer w htask hp =>
      have hsee : watch.see settings state (.step tid choice) =
          Function.update watch tid
            ((watch tid).act settings state.world tid op answer) := by
        have hperform : World.perform tid op choice state.world = some (answer, w) := hp
        simp only [Watch.see, htask, hperform]
      rw [hsee]
      by_cases hworker : (state.world.arrivals tid).map Arrival.entry = some .worker
      · exact h.step_worker htask hp hworker
      · obtain ⟨hact, hbooks⟩ := h.step_other hreach htask hp hworker
        rw [hact, Function.update_eq_self]
        exact hbooks
  | again tid loop htask =>
      obtain ⟨arrival, harrival, -, hloop⟩ := running_within hreach htask
      refine h.keep ⟨rfl, rfl, fun _ h => h, fun h => h⟩ rfl nofun
        fun now loop' heq => ?_
      cases heq
      refine ⟨⟨_, _, htask⟩, fun hworker => ?_⟩
      have hentry : arrival.entry = .worker := by
        rw [harrival] at hworker
        exact Option.some.inj hworker
      rw [hentry] at hloop
      exact hloop ▸ ((h.account tid).worker hworker _ _ htask).again
  | returned tid reply loop htask =>
      exact h.keep (.closed ..) rfl nofun nofun
  | raised tid exc loop htask =>
      exact h.keep (.closed ..) rfl nofun nofun
  | crash tid now loop htask =>
      exact h.keep (.closed ..) rfl nofun nofun
  | external event =>
      have haside := Aside.external event state.world
      have harrivals : (state.world.external event).arrivals =
          state.world.arrivals := by
        cases event <;> rfl
      have hworks : ∀ {t}, Working { state with world := state.world.external event } t →
          Working state t := fun ht => ⟨ht.1, congrFun harrivals _ ▸ ht.2⟩
      refine ⟨fun i hi => ?_, fun t t' ht ht' => h.sole t t' (hworks ht) (hworks ht'),
        fun t => ⟨(h.account t).fresh, fun hnot => (h.account t).other ?_,
          fun hworker now loop hrun => ?_, (h.account t).ordered⟩⟩
      · obtain ⟨t, done, hdone, hoffset, hmessage⟩ := h.handled i (haside.offset ▸ hi)
        exact ⟨t, done, hdone, hoffset, haside.topic hmessage⟩
      · exact congrFun harrivals t ▸ hnot
      · exact ((h.account t).worker (congrFun harrivals t ▸ hworker) now loop hrun).keep
          haside

theorem Watched.books (h : Watched settings state watch) :
    Books settings state watch := by
  induction h with
  | start =>
      refine ⟨nofun, fun t t' ht => ?_, fun t => ⟨fun _ => rfl, fun _ => rfl, nofun,
        .inl ⟨rfl, rfl⟩, Nat.zero_le _⟩⟩
      obtain ⟨⟨now, loop, hrun⟩, -⟩ := ht
      cases hrun
  | next label h hsole hnext ih => exact ih.next h.reachable hsole hnext

end

/-! ## What the committed offset says -/

/-- `consume_loop` has returned in task `t`. -/
def Returned (state : State) (t : Tid) : Prop :=
  Working state t ∧ ∃ reply loop, state.tasks t = .running (.ret (some reply)) loop

/-- The offset is one past the last message handled, or where the worker joined. -/
def Incarnation.Past (inc : Incarnation) (offset : Nat) : Prop :=
  match inc.handled.getLast? with
  | some last => offset = last.offset + 1
  | none => inc.joined = [offset]

theorem Incarnation.From.past {inc : Incarnation} {c : Nat} (h : inc.From c) :
    inc.Past (c + inc.handled.length) := by
  unfold Past
  split
  next last hlast =>
    have hoffset : (inc.handled.map Handled.offset).getLast? = some last.offset := by
      rw [List.getLast?_map, hlast, Option.map_some]
    rw [h.offsets, List.getLast?_range'] at hoffset
    split at hoffset
    · cases hoffset
    · have heq := Option.some.inj hoffset
      omega
  next hnone =>
    rw [List.getLast?_eq_none_iff.mp hnone]
    exact h.joined

structure InOrder (state : State) (watch : Watch) : Prop where
  /-- a message below the committed offset has been handled -/
  handled : ∀ i, i < state.world.committedOffset → ∃ t, ∃ done ∈ (watch t).handled,
    done.offset = i ∧ state.world.topic[i]? = some done.message
  /-- a worker goes on from the offset it joined at and skips none -/
  ordered : ∀ t, (watch t).Ordered
  late : ∀ t, (watch t).late.length ≤ 1
  returned : ∀ t, Returned state t → (watch t).Past state.world.committedOffset

theorem Watched.follow {settings : Settings} {state state' : State} {watch : Watch}
    (h : Watched settings state watch) {schedule : Schedule}
    (hfollow : (system settings).follow state schedule = some state')
    (hnone : ∀ t, .start t .worker ∉ schedule) :
    ∃ watch', Watched settings state' watch' := by
  induction schedule generalizing state watch with
  | nil =>
      cases hfollow
      exact ⟨watch, h⟩
  | cons label schedule ih =>
      simp only [Machine.follow, Option.bind_eq_some_iff] at hfollow
      obtain ⟨middle, hnext, hrest⟩ := hfollow
      refine ih (h.next label (fun t heq => ?_) hnext) hrest fun t hmem =>
        hnone t (.tail _ hmem)
      exact absurd (heq ▸ List.mem_cons_self) (hnone t)

/-- Worker 0 handles two messages and is told to stop while it waits for the second. -/
def handlesPair : Schedule :=
  [.external (.produce (some []) none), .external (.produce (some []) none)] ++
    goes 0 1 ++ [.again 0] ++ goes 0 3 ++ [.again 0] ++ goes 0 1 ++
    [.external (.stop 0)] ++ goes 0 2 ++ [.again 0] ++ goes 0 1

def hasReturned (state : State) (t : Tid) : Bool :=
  match state.tasks t with
  | .running (.ret (some _)) _ => true
  | _ => false

theorem running_of_hasReturned {state : State} {t : Tid} (h : hasReturned state t) :
    ∃ reply loop, state.tasks t = .running (.ret (some reply)) loop := by
  unfold hasReturned at h
  split at h
  next reply loop hrun => exact ⟨reply, loop, hrun⟩
  next => cases h

/--
Offsets are committed for handled messages only and in their order, whenever the
workers crash, are restarted or are told to stop.
-/
theorem offsets_in_order {settings : Settings} {state : State} {watch : Watch}
    (h : Watched settings state watch) : InOrder state watch := by
  refine ⟨h.books.handled, fun t => (h.books.account t).ordered.1,
    fun t => (h.books.account t).ordered.2, ?_⟩
  rintro t ⟨⟨-, hworker⟩, reply, loop, hrun⟩
  have hstage := (h.books.account t).worker hworker _ _ hrun
  generalize hprogram : (Program.ret (some reply) : Py (Option Reply)) = now at hstage
  cases hstage with
  | between c now hfrom hcurrent hposition hcommitted =>
      rw [hcommitted]
      exact hfrom.past
  | joining | fetching | handling | committing | failed => cases hprogram

theorem offsets_in_order_pair : ∃ state watch,
    Watched defaultSettings state watch ∧ state.world.committedOffset = 2 ∧
      Returned state 0 ∧ InOrder state watch := by
  obtain ⟨state, hfollow, hreturned⟩ := (Option.any_eq_true _ _).mp
    (by decide +kernel : ((system defaultSettings).follow start
      (.start 0 .worker :: handlesPair)).any (fun state =>
        decide (state.world.committedOffset = 2) &&
        decide ((state.world.arrivals 0).map Arrival.entry = some .worker) &&
        hasReturned state 0) = true)
  simp only [Bool.and_eq_true, decide_eq_true_eq] at hreturned
  obtain ⟨⟨hoffset, hworker⟩, hreply⟩ := hreturned
  simp only [Machine.follow, Option.bind_eq_some_iff] at hfollow
  obtain ⟨middle, hnext, hrest⟩ := hfollow
  have hnew : ∀ other, ¬Working start other := by
    rintro other ⟨⟨now, loop, hrun⟩, -⟩
    cases hrun
  have hjoined := Watched.start.next (.start 0 .worker) (fun _ _ => hnew) hnext
  obtain ⟨watch, hcourse⟩ := hjoined.follow hrest (by simp [handlesPair, goes])
  obtain ⟨reply, loop, hrun⟩ := running_of_hasReturned hreply
  exact ⟨state, watch, hcourse, hoffset, ⟨⟨⟨_, _, hrun⟩, hworker⟩, reply, loop, hrun⟩,
    offsets_in_order hcourse⟩

end PhotoAnalysis

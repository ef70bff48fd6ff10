import PhotoAnalysis.Foundation.JsonCodec
import PhotoAnalysis.Worker.Consumer

/-!
# What a record does to the worker

A record that `json.loads` reads, or rejects as malformed, is handled and its
offset committed, whatever the processor makes of it, as long as `str` and the log
get through the values they are given.  The other exceptions of `json.loads` and a
`RecursionError` of these two end the worker before the commit.
-/

namespace PhotoAnalysis.Consumer

open Foundation Program

variable {σ : Type} {handler : Handler Op Op.Ans PyExc σ}
variable {interpreter : Interpreter} {process : Str → Str → Py Unit}
variable {record : ConsumerRecord} {s : σ}

/--
The environment of one turn of the loop from `s` on: the stop event is not set,
`record` is the next one, a session closes as it may, and the processor returns
or raises an `Exception`.
-/
structure Delivers (handler : Handler Op Op.Ans PyExc σ)
    (process : Str → Str → Py Unit) (record : ConsumerRecord) (s : σ) :
    Prop where
  stopIsSet : (handler .stopIsSet s).1 = .ok false
  getone : (handler .getone (handler .stopIsSet s).2).1 = .ok record
  setTraceId : ∀ value s, ∃ token, (handler (.setTraceId value) s).1 = .ok token
  close : (wait .close).RaisesOnly handler fun exc => exc.isException
  commitOffset : ∀ s, (handler .commitOffset s).1 = .ok ()
  process : ∀ photoId objectKey,
    (process photoId objectKey).RaisesOnly handler fun exc => exc.isException

/-- What is left to do once the record has been taken. -/
def taken (handler : Handler Op Op.Ans PyExc σ) (s : σ) : σ :=
  (handler .getone (handler .stopIsSet s).2).2

/--
The record is handled without an exception, its offset is committed right after
that, and the loop goes round.
-/
def Survives (handler : Handler Op Op.Ans PyExc σ) (interpreter : Interpreter)
    (process : Str → Str → Py Unit) (record : ConsumerRecord) (s : σ) : Prop :=
  ((handleMessage interpreter process record).run handler (taken handler s)).1 = .ok () ∧
    (turn interpreter process).run handler s = (.ok none, (handler .commitOffset
      ((handleMessage interpreter process record).run handler (taken handler s)).2).2)

/-- The processor raises, or the session when it is closed after it. -/
def Fails (handler : Handler Op Op.Ans PyExc σ) (process : Str → Str → Py Unit)
    (payload : List (Str × Json)) (s : σ) : Prop :=
  ∃ exc, ((withSession (process (textField payload (py "photo_id"))
    (textField payload (py "object_key")))).run handler
      (handler (.setTraceId (traceIdOf payload)) s).2).1 = .error exc

/-- A field that `_handle_message` needs is missing. -/
def incomplete (payload : List (Str × Json)) : Bool :=
  isMissing payload (py "photo_id") || isMissing payload (py "object_key")

/--
`json.loads` raises nothing but what `_handle_message` catches, and what is logged of
the value can be: its `str` where it is no object, all of it where a field is missing,
its trace id where the processor raises.
-/
structure Manageable (handler : Handler Op Op.Ans PyExc σ) (interpreter : Interpreter)
    (process : Str → Str → Py Unit) (value : Option Bytes) (s : σ) : Prop where
  readable : ∀ error, Json.loads interpreter.nesting value = .error error →
    error = .jsonDecode ∨ error = .unicodeDecode
  shown : ∀ json, Json.loads interpreter.nesting value = .ok json →
    (∀ payload, json ≠ .dict payload) → interpreter.shows json = true
  warned : ∀ payload, Json.loads interpreter.nesting value = .ok (.dict payload) →
    incomplete payload = true → interpreter.logs .warning (.dict payload) = true
  logged : ∀ payload, Json.loads interpreter.nesting value = .ok (.dict payload) →
    incomplete payload = false → Fails handler process payload s →
      interpreter.logs .error (traceIdOf payload) = true

namespace Manageable

variable {value : Option Bytes}

theorem of_error {error : LoadsError}
    (h : Json.loads interpreter.nesting value = .error error) :
    Manageable handler interpreter process value s ↔
      error = .jsonDecode ∨ error = .unicodeDecode := by
  refine ⟨fun hvalue => hvalue.readable error h, fun herror => ⟨?_, ?_, ?_, ?_⟩⟩ <;>
    simp [h, herror]

theorem of_dict {payload : List (Str × Json)}
    (h : Json.loads interpreter.nesting value = .ok (.dict payload)) :
    Manageable handler interpreter process value s ↔
      if incomplete payload then interpreter.logs .warning (.dict payload) = true
      else Fails handler process payload s →
        interpreter.logs .error (traceIdOf payload) = true := by
  cases hfields : incomplete payload with
  | true =>
      refine ⟨fun hvalue => hvalue.warned payload h hfields,
        fun hlogs => ⟨?_, ?_, ?_, ?_⟩⟩ <;> simp_all
  | false =>
      refine ⟨fun hvalue => hvalue.logged payload h hfields,
        fun hlogs => ⟨?_, ?_, ?_, ?_⟩⟩ <;> simp_all

theorem of_other {json : Json} (h : Json.loads interpreter.nesting value = .ok json)
    (hjson : ∀ payload, json ≠ .dict payload) :
    Manageable handler interpreter process value s ↔ interpreter.shows json = true := by
  refine ⟨fun hvalue => hvalue.shown json h hjson, fun hshows => ⟨?_, ?_, ?_, ?_⟩⟩ <;>
    simp_all

end Manageable

theorem log_returns_iff {level : LogLevel} {value : Json} :
    ((log interpreter level value).run handler s).1 = .ok () ↔
      interpreter.logs level value = true := by
  unfold log
  split
  next h => exact iff_of_true rfl h
  next h => exact iff_of_false nofun h

theorem setTraceId_never (h : Delivers handler process record s) (value : Json)
    {p : PyExc → Prop} : (wait (.setTraceId value)).RaisesOnly handler p := by
  refine .call fun s exc heq => ?_
  obtain ⟨token, htoken⟩ := h.setTraceId value s
  rw [htoken] at heq
  cases heq

/-- An exception of the processor goes no further if it can be logged. -/
theorem processPayload_returns_iff (h : Delivers handler process record s)
    (payload : List (Str × Json)) (s₀ : σ) :
    ((processPayload interpreter process payload).run handler s₀).1 = .ok () ↔
      (Fails handler process payload s₀ →
        interpreter.logs .error (traceIdOf payload) = true) := by
  obtain ⟨token, htoken⟩ := h.setTraceId (traceIdOf payload) s₀
  have hset : handler (.setTraceId (traceIdOf payload)) s₀ =
      (.ok token, (handler (.setTraceId (traceIdOf payload)) s₀).2) := Prod.ext htoken rfl
  have hexc := RaisesOnly.tryFinally
    (h.process (textField payload (py "photo_id")) (textField payload (py "object_key")))
    h.close (handler (.setTraceId (traceIdOf payload)) s₀).2
  have hreset : (do let _ ← wait (.setTraceId token) : Py Unit).RaisesOnly handler
      fun _ => False :=
    .bind (setTraceId_never h token) fun _ => .ret ()
  unfold processPayload Fails
  rw [bind_eq, run_bind, run_call, hset]
  generalize (handler (.setTraceId (traceIdOf payload)) s₀).2 = s₁ at hexc ⊢
  dsimp only
  rw [hreset.outcome_tryFinally, run_tryExcept]
  change ∀ exc, ((withSession _).run handler s₁).1 = .error exc → _ at hexc
  cases hrun : (withSession (process (textField payload (py "photo_id"))
      (textField payload (py "object_key")))).run handler s₁ with
  | mk outcome s₂ =>
      rw [hrun] at hexc
      cases outcome with
      | ok value =>
          refine iff_of_true rfl ?_
          rintro ⟨exc, hraises⟩
          cases hraises
      | error exc =>
          simp only [hexc exc rfl, if_true]
          refine log_returns_iff.trans ⟨fun hlogs _ => hlogs, fun hlogs => hlogs ?_⟩
          exact ⟨exc, rfl⟩

/-- The record is handled without an exception exactly if it is manageable. -/
theorem handleMessage_returns_iff (h : Delivers handler process record s) (s₀ : σ) :
    ((handleMessage interpreter process record).run handler s₀).1 = .ok () ↔
      Manageable handler interpreter process record.value s₀ := by
  have htext : ∀ level, ((log interpreter level (.str (py "-"))).run handler s₀).1 =
      .ok () :=
    fun level => log_returns_iff.mpr (interpreter.logs_str level _)
  unfold handleMessage
  cases hloads : Json.loads interpreter.nesting record.value with
  | error error =>
      rw [Manageable.of_error hloads]
      cases error with
      | jsonDecode => exact iff_of_true (htext .error) (.inl rfl)
      | unicodeDecode => exact iff_of_true (htext .error) (.inr rfl)
      | _ => exact iff_of_false nofun (by rintro (heq | heq) <;> cases heq)
  | ok json =>
      cases json with
      | dict payload =>
          rw [Manageable.of_dict hloads, incomplete]
          dsimp only
          split
          · exact log_returns_iff
          · exact processPayload_returns_iff h payload s₀
      | _ =>
          rw [Manageable.of_other hloads nofun]
          dsimp only
          split
          next hshows => exact iff_of_true (htext .warning) hshows
          next hshows => exact iff_of_false nofun hshows

theorem turn_run (h : Delivers handler process record s) :
    (turn interpreter process).run handler s =
      match (handleMessage interpreter process record).run handler (taken handler s) with
      | (.ok _, s') => (.ok none, (handler .commitOffset s').2)
      | (.error exc, s') => (.error exc, s') := by
  obtain ⟨s₁, hstop⟩ : ∃ s₁, handler .stopIsSet s = (.ok false, s₁) :=
    ⟨_, Prod.ext h.stopIsSet rfl⟩
  obtain ⟨s₂, hgetone⟩ : ∃ s₂, handler .getone s₁ = (.ok record, s₂) := by
    have hnext := h.getone
    rw [hstop] at hnext
    exact ⟨_, Prod.ext hnext rfl⟩
  have htaken : taken handler s = s₂ := by rw [taken, hstop, hgetone]
  unfold turn
  simp only [bind_eq, run_bind, run_call, hstop, if_neg Bool.false_ne_true,
    run_attempt, hgetone, htaken]
  cases (handleMessage interpreter process record).run handler s₂ with
  | mk outcome s' =>
      cases outcome with
      | ok value =>
          obtain ⟨s₃, hcommit⟩ : ∃ s₃, handler .commitOffset s' = (.ok (), s₃) :=
            ⟨_, Prod.ext (h.commitOffset s') rfl⟩
          simp only [hcommit]
          rfl
      | error exc => rfl

theorem record_survived_iff (interpreter : Interpreter)
    (h : Delivers handler process record s) :
    Survives handler interpreter process record s ↔
      Manageable handler interpreter process record.value (taken handler s) := by
  rw [← handleMessage_returns_iff h]
  refine ⟨And.left, fun hreturns => ⟨hreturns, ?_⟩⟩
  rw [turn_run h]
  cases hrun : (handleMessage interpreter process record).run handler (taken handler s) with
  | mk outcome s' =>
      rw [hrun] at hreturns
      cases hreturns
      rfl

/-- An environment that hands out one record and lets everything else succeed. -/
def delivering (record : ConsumerRecord) : Handler Op Op.Ans PyExc Nat :=
  fun op n => match op with
    | .stopIsSet => (.ok false, n)
    | .getone => (.ok record, n)
    | .setTraceId value => (.ok value, n)
    | .close => (.ok (), n)
    | .commitOffset => (.ok (), n + 1)
    | _ => (.error (.other []), n)

theorem delivers (record : ConsumerRecord) (n : Nat)
    (h : ∀ photoId objectKey,
      (process photoId objectKey).RaisesOnly (delivering record) fun exc =>
        exc.isException) : Delivers (delivering record) process record n where
  stopIsSet := rfl
  getone := rfl
  setTraceId := fun value _ => ⟨value, rfl⟩
  close := .call fun _ _ heq => nomatch heq
  commitOffset := fun _ => rfl
  process := h

/-- A request whose processing raises. -/
def request : ConsumerRecord where
  value := Text.utf8Encode (Json.dumps [(py "photo_id", py "p"),
    (py "object_key", py "k"), (py "trace_id", py "t")])
  key := none
  acked := false

theorem record_survived_request : Survives (delivering request) (.ofLimit 900)
    (fun _ _ => .raise (.database (py "connection is closed"))) request 0 := by
  have hdelivers : Delivers (delivering request)
      (fun _ _ => .raise (.database (py "connection is closed"))) request 0 :=
    delivers request 0 fun _ _ => .raise rfl
  refine (record_survived_iff _ hdelivers).mpr ?_
  generalize Interpreter.ofLimit 900 = interpreter
  obtain ⟨bytes, hbytes, hloads⟩ := Json.loads_dumps interpreter.nesting_pos
    [(py "photo_id", py "p"), (py "object_key", py "k"), (py "trace_id", py "t")]
    (List.cons_ne_nil _ _) (by unfold Json.Scalar; decide)
  have hvalue : request.value = some bytes := hbytes
  rw [hvalue, Manageable.of_dict hloads]
  exact fun _ => interpreter.logs_str .error (py "t")

def tombstone : ConsumerRecord := ⟨none, some [1], false⟩

/-- The null value of a tombstone ends the worker before the commit. -/
theorem record_not_survived :
    ¬∀ (handler : Handler Op Op.Ans PyExc Nat) interpreter process record s,
      Delivers handler process record s →
        Survives handler interpreter process record s := by
  intro h
  have hreturns := (h (delivering tombstone) (.ofLimit 900)
    (fun _ _ => pure ()) tombstone 0 (delivers _ 0 fun _ _ => .ret ())).1
  have hraises : handleMessage (.ofLimit 900) (fun _ _ => pure ()) tombstone =
      .raise (.loads .typeError) := rfl
  rw [hraises] at hreturns
  cases hreturns

end PhotoAnalysis.Consumer

import PhotoAnalysis.Api.Middleware

/-!
# The id of a request in its response

A request is followed through the layers around its endpoint.  Its response carries
its id unless the endpoint raises something that only the outermost layer handles,
where neither the id nor the header is known any more.
-/

namespace PhotoAnalysis.Api

open Foundation Program RequestIdMiddleware

/-- The context variable of the task, and what the client has been sent. -/
structure Connection where
  traceId : Str
  sent : List Message

/-- The endpoint of the request ends in `outcome`. -/
def connection (fresh : UUID) (outcome : Except PyExc Content) :
    Handler HttpOp HttpOp.Ans PyExc Connection
  | .uuid4, s => (.ok fresh, s)
  | .getTraceId, s => (.ok s.traceId, s)
  | .setTraceId value, s => (.ok s.traceId, { s with traceId := value })
  | .observe _, s => (.ok (), s)
  | .send message, s => (.ok (), { s with sent := s.sent ++ [message] })
  | .endpoint, s => (outcome, s)

/-- An exception of the app comes before any part of a response. -/
def RaisesEarly (E : Handler HttpOp HttpOp.Ans PyExc Connection) (program : Asgi Unit)
    (s : Connection) : Prop :=
  ∀ exc, (program.run E s).1 = .error exc → (program.run E s).2.sent = s.sent

/-- The handler that the innermost layer has for an exception. -/
def Starlette.lookup (F : Starlette) (handler : AppError → Str → Asgi Response) :
    PyExc → Option (Asgi Response)
  | .app error message _ => some (handler error message)
  | exc => (F.registered exc).map fun content => pure content.response

/--
What is relied on of Starlette.  A middleware of class `BaseHTTPMiddleware` runs the
app in a task with a context of its own, and passes the response on if its function
does.  `ServerErrorMiddleware` raises again what it has answered.
-/
structure Starlette.Behaves (F : Starlette) : Prop where
  jsonHeaders : ∀ response, ∀ header ∈ F.jsonHeaders response, header.1 ≠ xRequestId
  respond : ∀ response send, F.respond response send =
    (send (.start response.status response.headers)).bind fun _ =>
      send (.body response.body)
  router : ∀ scope send, scope.type = .http → F.router scope send =
    (ask .endpoint).bind fun content => F.respond content.response send
  exceptionMiddleware : ∀ fresh outcome handler app scope send s,
    RaisesEarly (connection fresh outcome) (app scope send) s →
    (F.exceptionMiddleware handler app scope send).run (connection fresh outcome) s =
      match (app scope send).run (connection fresh outcome) s with
      | (.error exc, s') =>
          match F.lookup handler exc with
          | some answer =>
              (answer.bind fun response => F.respond response send).run
                (connection fresh outcome) s'
          | none => (.error exc, s')
      | ended => ended
  baseHTTPMiddleware : ∀ fresh outcome dispatch app scope send s,
    (∀ callNext s, (dispatch callNext).run (connection fresh outcome) s =
      callNext.run (connection fresh outcome) s) →
    (F.baseHTTPMiddleware dispatch app scope send).run (connection fresh outcome) s =
      (((app scope send).run (connection fresh outcome) s).1,
        { ((app scope send).run (connection fresh outcome) s).2 with
          traceId := s.traceId })
  serverErrorMiddleware : ∀ fresh outcome handler app scope send s,
    RaisesEarly (connection fresh outcome) (app scope send) s →
    (F.serverErrorMiddleware handler app scope send).run (connection fresh outcome) s =
      match (app scope send).run (connection fresh outcome) s with
      | (.error exc, s') =>
          if exc.isException then
            ((handler exc).bind fun response => (F.respond response send).bind
              fun _ => .raise exc).run (connection fresh outcome) s'
          else (.error exc, s')
      | ended => ended

/-- The messages carry the id: in a header, and in every unified error body. -/
def Correlated (id : Str) (messages : List Message) : Prop :=
  (∃ status headers value, .start status headers ∈ messages ∧
    (xRequestId, value) ∈ headers ∧ Text.latin1Encode id = some value) ∧
  ∀ response, .body (.error response) ∈ messages → response.requestId = id

/-- The endpoint returns, or raises what has a handler besides that of `Exception`. -/
def Expected (F : Starlette) : Except PyExc Content → Prop
  | .ok _ => True
  | .error (.app _ _ _) => True
  | .error exc => F.registered exc ≠ none

/-! ## Layer by layer -/

section

variable {F : Starlette} {fresh : UUID} {outcome : Except PyExc Content}
variable {scope : Scope} {s : Connection}

theorem latin1Encode_text (id : UUID) :
    Text.latin1Encode id.text = some (id.text.map UInt8.ofNat) := by
  refine Text.latin1Encode_ascii fun c hc => ?_
  have := UUID.mem_text hc
  simp only [Text.isAscii, decide_eq_true_eq]
  omega

theorem requestId_encodes (headers : List Header) (fresh : UUID) :
    ∃ value, Text.latin1Encode (requestId headers fresh) = some value := by
  unfold requestId
  split
  · exact ⟨_, Text.latin1Encode_latin1Decode _⟩
  · exact ⟨_, latin1Encode_text fresh⟩

theorem readRequestId_run (headers : List Header) (s : Connection) :
    (readRequestId headers).run (connection fresh outcome) s =
      (.ok (requestId headers fresh), s) := by
  unfold readRequestId requestId
  split
  · rfl
  · rfl

/-- The response as it leaves `wrapped_send`. -/
def withId (value : Bytes) (response : Response) : List Message :=
  [.start response.status (response.headers ++ [(xRequestId, value)]),
    .body response.body]

theorem respond_wrapped (hF : F.Behaves) {id : Str} {value : Bytes}
    (hvalue : Text.latin1Encode id = some value) (response : Response) :
    (F.respond response (wrappedSend id fun message => ask (.send message))).run
        (connection fresh outcome) s =
      (.ok (), { s with sent := s.sent ++ withId value response }) := by
  rw [hF.respond]
  simp [wrappedSend, hvalue, run_bind, run_call, connection, withId]

theorem respond_sends (hF : F.Behaves) (response : Response) :
    (F.respond response fun message => ask (.send message)).run
        (connection fresh outcome) s =
      (.ok (), { s with sent := s.sent ++
        [.start response.status response.headers, .body response.body] }) := by
  rw [hF.respond]
  simp [run_bind, run_call, connection]

theorem handleAppError_run (error : AppError) (message : Str) :
    (F.handleAppError error message).run (connection fresh outcome) s =
      (.ok (F.jsonResponse error.httpStatus ⟨error.errorCode, message, s.traceId⟩),
        s) := rfl

theorem handleUnexpectedError_run (exc : PyExc) :
    (F.handleUnexpectedError exc).run (connection fresh outcome) s =
      (.ok (F.jsonResponse 500 ⟨py "INTERNAL_ERROR", py "Internal server error",
        s.traceId⟩), s) := rfl

/-- What the endpoint and the handlers of the innermost layer come to. -/
def answered (F : Starlette) (id : Str) : Except PyExc Content → Except PyExc Response
  | .ok content => .ok content.response
  | .error (.app error message _) =>
      .ok (F.jsonResponse error.httpStatus ⟨error.errorCode, message, id⟩)
  | .error exc =>
      match F.registered exc with
      | some content => .ok content.response
      | none => .error exc

theorem answered_body {id : Str} {response : Response}
    (h : answered F id outcome = .ok response) {error : ErrorResponse}
    (hbody : response.body = .error error) : error.requestId = id := by
  unfold answered at h
  split at h
  next content => cases h; cases hbody
  next raised message photoId =>
    cases h
    cases hbody
    rfl
  next exc =>
    split at h
    next content => cases h; cases hbody
    next => cases h

theorem answered_error {id : Str} {exc : PyExc} :
    answered F id outcome = .error exc ↔ outcome = .error exc ∧ ¬Expected F outcome := by
  cases outcome with
  | ok content => exact ⟨nofun, fun h => (h.2 trivial).elim⟩
  | error raised =>
      cases raised with
      | app error message photoId => exact ⟨nofun, fun h => (h.2 trivial).elim⟩
      | _ =>
          simp only [answered, Expected]
          generalize F.registered _ = answer
          cases answer with
          | some content => exact ⟨nofun, fun h => (h.2 (Option.some_ne_none _)).elim⟩
          | none =>
              exact ⟨fun h => ⟨congrArg _ (Except.error.inj h), fun hsome => hsome rfl⟩,
                fun h => congrArg _ (Except.error.inj h.1)⟩

theorem answered_ok {id : Str} (h : Expected F outcome) :
    ∃ response, answered F id outcome = .ok response := by
  cases hanswered : answered F id outcome with
  | ok response => exact ⟨response, rfl⟩
  | error exc => exact absurd h (answered_error.mp hanswered).2

theorem router_run (hF : F.Behaves) (hhttp : scope.type = .http) {id : Str}
    {value : Bytes} (hvalue : Text.latin1Encode id = some value) :
    (F.router scope (wrappedSend id fun message => ask (.send message))).run
        (connection fresh outcome) s =
      match outcome with
      | .ok content =>
          (.ok (), { s with sent := s.sent ++ withId value content.response })
      | .error exc => (.error exc, s) := by
  rw [hF.router _ _ hhttp, run_bind, run_call]
  cases outcome with
  | ok content => exact respond_wrapped hF hvalue content.response
  | error exc => rfl

theorem router_raisesEarly (hF : F.Behaves) (hhttp : scope.type = .http) {id : Str}
    {value : Bytes} (hvalue : Text.latin1Encode id = some value) :
    RaisesEarly (connection fresh outcome)
      (F.router scope (wrappedSend id fun message => ask (.send message))) s := by
  intro exc hexc
  rw [router_run hF hhttp hvalue] at hexc ⊢
  cases outcome with
  | ok content => cases hexc
  | error exc => rfl

theorem inner_run (hF : F.Behaves) (hhttp : scope.type = .http) {value : Bytes}
    (hvalue : Text.latin1Encode s.traceId = some value) :
    (F.exceptionMiddleware F.handleAppError F.router scope
        (wrappedSend s.traceId fun message => ask (.send message))).run
        (connection fresh outcome) s =
      match answered F s.traceId outcome with
      | .ok response => (.ok (), { s with sent := s.sent ++ withId value response })
      | .error exc => (.error exc, s) := by
  rw [hF.exceptionMiddleware _ _ _ _ _ _ _ (router_raisesEarly hF hhttp hvalue),
    router_run hF hhttp hvalue]
  cases outcome with
  | ok content => rfl
  | error exc =>
      have hregistered : ∀ content : Content,
          ((pure content.response : Asgi Response).bind fun response => F.respond response
              (wrappedSend s.traceId fun message => ask (.send message))).run
              (connection fresh (.error exc)) s =
            (.ok (), { s with sent := s.sent ++ withId value content.response }) :=
        fun content => respond_wrapped hF hvalue content.response
      cases exc with
      | app error message photoId =>
          simp only [Starlette.lookup, run_bind, handleAppError_run, answered]
          exact respond_wrapped hF hvalue _
      | _ =>
          simp only [Starlette.lookup, answered]
          generalize F.registered _ = answer at hregistered ⊢
          cases answer with
          | some content => exact hregistered content
          | none => rfl

/-- The id is known inside, and forgotten again outside. -/
theorem around_run (hF : F.Behaves) (hhttp : scope.type = .http) {value : Bytes}
    (hvalue : Text.latin1Encode (requestId scope.headers fresh) = some value) :
    (around (F.exceptionMiddleware F.handleAppError F.router) scope
        fun message => ask (.send message)).run (connection fresh outcome) s =
      match answered F (requestId scope.headers fresh) outcome with
      | .ok response => (.ok (), { s with sent := s.sent ++ withId value response })
      | .error exc => (.error exc, s) := by
  have hinner : (F.exceptionMiddleware F.handleAppError F.router scope _).run
      (connection fresh outcome) { s with traceId := requestId scope.headers fresh } = _ :=
    inner_run hF hhttp hvalue
  simp only [around, hhttp, ne_eq, not_true_eq_false, if_false, bind_eq, run_bind,
    readRequestId_run, run_call, connection, run_tryFinally, hinner]
  cases answered F (requestId scope.headers fresh) outcome with
  | ok response => rfl
  | error exc => rfl

theorem metricsMiddleware_run (callNext : Asgi Response) (s : Connection) :
    (metricsMiddleware callNext).run (connection fresh outcome) s =
      callNext.run (connection fresh outcome) s := by
  simp only [metricsMiddleware, bind_eq, run_bind]
  cases hrun : callNext.run (connection fresh outcome) s with
  | mk ended s' =>
      cases ended with
      | ok response => rfl
      | error exc => rfl

theorem metrics_run (hF : F.Behaves) (hhttp : scope.type = .http) {value : Bytes}
    (hvalue : Text.latin1Encode (requestId scope.headers fresh) = some value) :
    (F.baseHTTPMiddleware metricsMiddleware
        (around (F.exceptionMiddleware F.handleAppError F.router)) scope
        fun message => ask (.send message)).run (connection fresh outcome) s =
      match answered F (requestId scope.headers fresh) outcome with
      | .ok response => (.ok (), { s with sent := s.sent ++ withId value response })
      | .error exc => (.error exc, s) := by
  rw [hF.baseHTTPMiddleware _ _ _ _ _ _ _ metricsMiddleware_run,
    around_run hF hhttp hvalue]
  cases answered F (requestId scope.headers fresh) outcome with
  | ok response => rfl
  | error exc => rfl

theorem application_run (hF : F.Behaves) (hhttp : scope.type = .http) {value : Bytes}
    (hvalue : Text.latin1Encode (requestId scope.headers fresh) = some value)
    (hexc : ∀ exc, outcome = .error exc → exc.isException = true) :
    ((F.application scope fun message => ask (.send message)).run
        (connection fresh outcome) s).2.sent = s.sent ++
      match answered F (requestId scope.headers fresh) outcome with
      | .ok response => withId value response
      | .error _ =>
          let error := ⟨py "INTERNAL_ERROR", py "Internal server error", s.traceId⟩
          [.start 500 (F.jsonHeaders error), .body (.error error)] := by
  have hmetrics : Program.run (connection fresh outcome) _ s = _ :=
    metrics_run hF hhttp hvalue
  have hearly : RaisesEarly (connection fresh outcome)
      (F.baseHTTPMiddleware metricsMiddleware
        (around (F.exceptionMiddleware F.handleAppError F.router)) scope
        fun message => ask (.send message)) s := by
    intro exc
    rw [hmetrics]
    cases answered F (requestId scope.headers fresh) outcome with
    | ok response => rintro ⟨⟩
    | error exc' => exact fun _ => rfl
  rw [Starlette.application, hF.serverErrorMiddleware _ _ _ _ _ _ _ hearly, hmetrics]
  cases hanswered : answered F (requestId scope.headers fresh) outcome with
  | ok response => rfl
  | error exc =>
      have hisException := hexc exc (answered_error.mp hanswered).1
      simp only [hisException, if_true, run_bind, handleUnexpectedError_run,
        respond_sends hF, run_raise]
      rfl

end

/-! ## The response as a whole -/

theorem withId_correlated {id : Str} {value : Bytes} {response : Response}
    (hvalue : Text.latin1Encode id = some value)
    (hbody : ∀ error, response.body = .error error → error.requestId = id) :
    Correlated id (withId value response) := by
  refine ⟨⟨_, _, value, List.mem_cons_self, by simp, hvalue⟩, fun error hmem => ?_⟩
  refine hbody error ?_
  simpa [withId, eq_comm] using hmem

/-- The client's request, from its first layer on. -/
def Starlette.messages (F : Starlette) (scope : Scope) (fresh : UUID) (outer : Str)
    (outcome : Except PyExc Content) : List Message :=
  ((F.application scope fun message => ask (.send message)).run
    (connection fresh outcome) ⟨outer, []⟩).2.sent

section

variable {F : Starlette} {scope : Scope} {fresh : UUID} {outer : Str}
variable {outcome : Except PyExc Content}

theorem messages_eq (hF : F.Behaves) (hhttp : scope.type = .http)
    (hexc : ∀ exc, outcome = .error exc → exc.isException = true) :
    ∃ value, Text.latin1Encode (requestId scope.headers fresh) = some value ∧
      F.messages scope fresh outer outcome =
        match answered F (requestId scope.headers fresh) outcome with
        | .ok response => withId value response
        | .error _ =>
            let error := ⟨py "INTERNAL_ERROR", py "Internal server error", outer⟩
            [.start 500 (F.jsonHeaders error), .body (.error error)] := by
  obtain ⟨value, hvalue⟩ := requestId_encodes scope.headers fresh
  exact ⟨value, hvalue, application_run (s := ⟨outer, []⟩) hF hhttp hvalue hexc⟩

theorem correlated_of_expected (hF : F.Behaves) (hhttp : scope.type = .http)
    (hexc : ∀ exc, outcome = .error exc → exc.isException = true)
    (h : Expected F outcome) : Correlated (requestId scope.headers fresh)
      (F.messages scope fresh outer outcome) := by
  obtain ⟨value, hvalue, hmessages⟩ := messages_eq hF hhttp hexc
  obtain ⟨response, hanswered⟩ := answered_ok h
  rw [hmessages, hanswered]
  exact withId_correlated hvalue fun _ => answered_body hanswered

/-- The outermost layer answers without the header. -/
theorem not_correlated_of_unexpected (hF : F.Behaves) (hhttp : scope.type = .http)
    (hexc : ∀ exc, outcome = .error exc → exc.isException = true)
    (h : ¬Expected F outcome) : ¬Correlated (requestId scope.headers fresh)
      (F.messages scope fresh outer outcome) := by
  obtain ⟨value, -, hmessages⟩ := messages_eq hF hhttp hexc
  have hunexpected : ∀ error, ¬Correlated (requestId scope.headers fresh)
      [.start 500 (F.jsonHeaders error), .body (.error error)] := by
    rintro error ⟨⟨status, headers, value', hmem, hheader, -⟩, -⟩
    simp only [List.mem_cons, Message.start.injEq, reduceCtorEq, List.not_mem_nil,
      or_false] at hmem
    rw [hmem.2] at hheader
    exact hF.jsonHeaders error _ hheader rfl
  rw [hmessages]
  cases outcome with
  | ok content => exact absurd trivial h
  | error exc =>
      rw [answered_error.mpr ⟨rfl, h⟩]
      exact hunexpected _

end

theorem response_correlated_iff (F : Starlette) (hF : F.Behaves) (scope : Scope)
    (hhttp : scope.type = .http) (fresh : UUID) (outer : Str)
    (outcome : Except PyExc Content)
    (hexc : ∀ exc, outcome = .error exc → exc.isException = true) :
    Correlated (requestId scope.headers fresh)
        (F.messages scope fresh outer outcome) ↔ Expected F outcome := by
  constructor
  · intro h
    by_contra hexpected
    exact not_correlated_of_unexpected hF hhttp hexc hexpected h
  · exact correlated_of_expected hF hhttp hexc

/-! ## Starlette, as far as it is relied on -/

def Starlette.send (response : Response) (send : Send) : Asgi Unit := do
  send (.start response.status response.headers)
  send (.body response.body)

def plain : Starlette where
  jsonHeaders := fun _ => [((py "content-type").map UInt8.ofNat,
    (py "application/json").map UInt8.ofNat)]
  respond := Starlette.send
  router := fun _ send => do Starlette.send (← ask .endpoint).response send
  registered := fun _ => none
  exceptionMiddleware := fun handler app scope send =>
    (app scope send).tryExcept fun
      | .app error message _ => do Starlette.send (← handler error message) send
      | exc => .raise exc
  baseHTTPMiddleware := fun _ app scope send => do
    let outer ← ask .getTraceId
    (app scope send).tryFinally do
      let _ ← ask (.setTraceId outer)
  serverErrorMiddleware := fun handler app scope send =>
    (app scope send).tryExcept fun exc =>
      if exc.isException then do
        Starlette.send (← handler exc) send
        .raise exc
      else .raise exc

theorem plain_behaves : plain.Behaves where
  jsonHeaders := by
    intro response header hmem
    rw [List.mem_singleton.mp hmem]
    exact (by decide : (py "content-type").map UInt8.ofNat ≠ xRequestId)
  respond := fun _ _ => rfl
  router := fun _ _ _ => rfl
  exceptionMiddleware := by
    intro fresh outcome handler app scope send s _
    simp only [plain, run_tryExcept]
    cases (app scope send).run (connection fresh outcome) s with
    | mk ended s' =>
        cases ended with
        | ok value => rfl
        | error exc => cases exc <;> rfl
  baseHTTPMiddleware := by
    intro fresh outcome dispatch app scope send s _
    simp only [plain, bind_eq, run_bind, run_call, connection, run_tryFinally]
    rfl
  serverErrorMiddleware := by
    intro fresh outcome handler app scope send s _
    simp only [plain, run_tryExcept]
    cases (app scope send).run (connection fresh outcome) s with
    | mk ended s' =>
        cases ended with
        | ok value => rfl
        | error exc =>
            cases hexc : exc.isException with
            | true => simp [hexc]
            | false => simp [hexc]

/-- A request with the id `trace-1`. -/
def traced : Scope := ⟨.http, [(xRequestId, (py "trace-1").map UInt8.ofNat)]⟩

theorem response_correlated_notFound :
    Correlated (py "trace-1") (plain.messages traced 0#128 (py "-")
      (.error (AppError.notFound.exc (py "Photo not found")))) :=
  (response_correlated_iff plain plain_behaves traced rfl 0#128 (py "-")
    (.error (AppError.notFound.exc (py "Photo not found")))
    (by rintro exc ⟨⟩; rfl)).mpr trivial

theorem response_not_correlated :
    ¬∀ (F : Starlette) (scope : Scope) (fresh : UUID) (outer : Str)
      (outcome : Except PyExc Content), F.Behaves → scope.type = .http →
      (∀ exc, outcome = .error exc → exc.isException = true) →
      Correlated (requestId scope.headers fresh)
        (F.messages scope fresh outer outcome) := by
  intro h
  have hexc : ∀ exc, (.error (.runtime (py "db exploded")) : Except PyExc Content) =
      .error exc → exc.isException = true := by
    rintro exc ⟨⟩
    rfl
  exact not_correlated_of_unexpected plain_behaves (rfl : traced.type = .http) hexc
    (fun hregistered => hregistered rfl) (h plain traced 0#128 (py "-") _ plain_behaves rfl hexc)

end PhotoAnalysis.Api

import PhotoAnalysis.Core.Errors
import PhotoAnalysis.Foundation.Program
import PhotoAnalysis.Foundation.Uuid

/-!
# Around an endpoint

`RequestIdMiddleware`, the two exception handlers, `metrics_middleware` and the
order `app.main` puts them in.  What Starlette does with them is a parameter, and
an endpoint is an operation whose outcome its surroundings give.
-/

namespace PhotoAnalysis.Api

open Foundation Program

abbrev Header := Bytes × Bytes

inductive ScopeType where
  | http
  | websocket
  | lifespan
  deriving DecidableEq, Repr

structure Scope where
  type : ScopeType
  headers : List Header
  deriving DecidableEq, Repr

structure ErrorResponse where
  errorCode : Str
  message : Str
  requestId : Str
  deriving DecidableEq, Repr

inductive Body where
  | content (data : Bytes)
  | error (response : ErrorResponse)
  deriving DecidableEq, Repr

structure Response where
  status : Nat
  headers : List Header
  body : Body
  deriving DecidableEq, Repr

/-- `http.response.start` and `http.response.body` -/
inductive Message where
  | start (status : Nat) (headers : List Header)
  | body (body : Body)
  deriving DecidableEq, Repr

/-- What an endpoint returns. -/
structure Content where
  status : Nat
  headers : List Header
  data : Bytes
  deriving DecidableEq, Repr

def Content.response (content : Content) : Response :=
  ⟨content.status, content.headers, .content content.data⟩

inductive HttpOp where
  | uuid4
  | getTraceId
  | setTraceId (value : Str)
  | observe (status : Nat)
  | send (message : Message)
  | endpoint

abbrev HttpOp.Ans : HttpOp → Type
  | uuid4 => UUID
  | getTraceId => Str
  | setTraceId _ => Str
  | endpoint => Content
  | _ => Unit

abbrev Asgi := Program HttpOp HttpOp.Ans PyExc

abbrev ask (op : HttpOp) : Asgi op.Ans := Program.call op

abbrev Send := Message → Asgi Unit

/-- An ASGI callable; nothing here looks at `receive`. -/
abbrev App := Scope → Send → Asgi Unit

/-! ## Request ids -/

def xRequestId : Bytes := (py "x-request-id").map UInt8.ofNat

/-- `dict(headers).get(name)`: of several headers of one name the last one counts. -/
def getHeader (headers : List Header) (name : Bytes) : Option Bytes :=
  (headers.reverse.find? fun header => header.1 = name).map Prod.snd

namespace RequestIdMiddleware

/-- The id of a request, with the identifier to fall back on. -/
def requestId (headers : List Header) (fresh : UUID) : Str :=
  match getHeader headers xRequestId with
  | some (byte :: rest) => Text.latin1Decode (byte :: rest)
  | _ => fresh.text

/-- `raw.decode("latin-1") if raw else str(uuid4())` -/
def readRequestId (headers : List Header) : Asgi Str :=
  match getHeader headers xRequestId with
  | some (byte :: rest) => pure (Text.latin1Decode (byte :: rest))
  | _ => do
      let fresh ← ask .uuid4
      pure fresh.text

def wrappedSend (requestId : Str) (send : Send) : Send
  | .start status headers =>
      match Text.latin1Encode requestId with
      | some value => send (.start status (headers ++ [(xRequestId, value)]))
      | none => .raise (.value (py "ordinal not in range(256)"))
  | message => send message

def around (app : App) : App := fun scope send =>
  if scope.type ≠ .http then app scope send
  else do
    let requestId ← readRequestId scope.headers
    let token ← ask (.setTraceId requestId)
    (app scope (wrappedSend requestId send)).tryFinally do
      let _ ← ask (.setTraceId token)

end RequestIdMiddleware

/-- Count the response by its status; the time it took is left out. -/
def metricsMiddleware (callNext : Asgi Response) : Asgi Response := do
  let response ← callNext
  ask (.observe response.status)
  pure response

/-! ## The application -/

/-- The classes of Starlette that `app.main` puts together. -/
structure Starlette where
  jsonHeaders : ErrorResponse → List Header
  respond : Response → Send → Asgi Unit
  router : App
  /-- what the framework answers to exceptions of its own, such as `HTTPException` -/
  registered : PyExc → Option Content
  exceptionMiddleware : (AppError → Str → Asgi Response) → App → App
  baseHTTPMiddleware : (Asgi Response → Asgi Response) → App → App
  serverErrorMiddleware : (PyExc → Asgi Response) → App → App

namespace Starlette

variable (F : Starlette)

def jsonResponse (status : Nat) (response : ErrorResponse) : Response :=
  ⟨status, F.jsonHeaders response, .error response⟩

def handleAppError (error : AppError) (message : Str) : Asgi Response := do
  let requestId ← ask .getTraceId
  pure (F.jsonResponse error.httpStatus ⟨error.errorCode, message, requestId⟩)

/-- The exception itself is logged only. -/
def handleUnexpectedError (_ : PyExc) : Asgi Response := do
  let requestId ← ask .getTraceId
  pure (F.jsonResponse 500
    ⟨py "INTERNAL_ERROR", py "Internal server error", requestId⟩)

/--
A middleware that is added goes around those added before it; the handler of
`Exception` is for the outermost layer and that of `AppError` for the innermost.
-/
def application : App :=
  F.serverErrorMiddleware F.handleUnexpectedError <|
    F.baseHTTPMiddleware metricsMiddleware <|
      RequestIdMiddleware.around <|
        F.exceptionMiddleware F.handleAppError F.router

end Starlette

end PhotoAnalysis.Api

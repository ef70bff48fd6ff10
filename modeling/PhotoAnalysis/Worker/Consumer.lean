import PhotoAnalysis.Services.AnalysisProcessor

/-!
# The worker's consumer loop

`consume_loop` hands each record to the processor and commits its offset
afterwards.
-/

namespace PhotoAnalysis.Consumer

open Foundation Program

/-- A log call with the value among its fields; all others are texts. -/
def log (interpreter : Interpreter) (level : LogLevel) (value : Json) : Py Unit :=
  if interpreter.logs level value then pure () else .raise .recursion

/-- `_is_missing`: the value is no text or an empty one. -/
def isMissing (payload : List (Str × Json)) (key : Str) : Bool :=
  match Json.get payload key with
  | some (.str value) => value.isEmpty
  | _ => true

/-- `payload[key]`, once it is known to be a text. -/
def textField (payload : List (Str × Json)) (key : Str) : Str :=
  match Json.get payload key with
  | some (.str value) => value
  | _ => []

/-- `payload.get("trace_id") or "-"` -/
def traceIdOf (payload : List (Str × Json)) : Json :=
  match Json.get payload (py "trace_id") with
  | some value => if value.truthy then value else .str (py "-")
  | none => .str (py "-")

/--
Hand a well-formed payload to the processor and log the `Exception` it raises; the
record of the log has the trace id among its fields.
-/
def processPayload (interpreter : Interpreter) (process : Str → Str → Py Unit)
    (payload : List (Str × Json)) : Py Unit := do
  let token ← wait (.setTraceId (traceIdOf payload))
  ((withSession (process (textField payload (py "photo_id"))
      (textField payload (py "object_key")))).tryExcept fun exc =>
        if exc.isException then log interpreter .error (traceIdOf payload)
        else .raise exc).tryFinally do
    let _ ← wait (.setTraceId token)

def handleMessage (interpreter : Interpreter) (process : Str → Str → Py Unit)
    (message : ConsumerRecord) : Py Unit :=
  match Json.loads interpreter.nesting message.value with
  | .error .jsonDecode | .error .unicodeDecode =>
      log interpreter .error (.str (py "-"))
  | .error error => .raise (.loads error)
  | .ok (.dict payload) =>
      if isMissing payload (py "photo_id") || isMissing payload (py "object_key")
      then log interpreter .warning (.dict payload)
      else processPayload interpreter process payload
  | .ok payload =>
      -- what is logged is `str(payload)`, a text
      if interpreter.shows payload then log interpreter .warning (.str (py "-"))
      else .raise .recursion

/-- One turn of the `while` loop; `some` when the loop has ended. -/
def turn (interpreter : Interpreter) (process : Str → Str → Py Unit) :
    Py (Option Reply) := do
  if ← wait .stopIsSet then pure (some .stopped)
  else
    match ← (wait .getone).attempt with
    | .error exc => if exc.isTimeout then pure none else .raise exc
    | .ok message => do
        handleMessage interpreter process message
        wait .commitOffset
        pure none

end PhotoAnalysis.Consumer

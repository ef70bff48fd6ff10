import PhotoAnalysis.Core.Clock
import PhotoAnalysis.World

/-!
# The Kafka producer

`KafkaEventProducer`: one `AIOKafkaProducer`, started lazily under a lock, and
the event it publishes.  `app` names the process that owns the object.
-/

namespace PhotoAnalysis.KafkaEventProducer

open Foundation Program

def withStartLock (app : Nat) (body : Py Unit) : Py Unit := do
  wait (.acquireStartLock app)
  body.tryFinally (wait (.releaseStartLock app))

/-- `self._producer or self._build_producer()` -/
def currentProducer (app : Nat) : Py ClientId := do
  match (← wait (.readProducer app)).producer with
  | some client => pure client
  | none => wait .buildProducer

/-- A producer that fails to start is discarded; the next call builds another. -/
def ensureStarted (app : Nat) : Py Unit := do
  if (← wait (.readProducer app)).started then pure ()
  else withStartLock app do
    if (← wait (.readProducer app)).started then pure ()
    else
      let producer ← currentProducer app
      wait (.setProducer app (some producer))
      (wait (.startProducer producer)).tryExcept fun exc =>
        if exc.isException then do
          wait (.setProducer app none)
          .raise exc
        else .raise exc
      wait (.setStarted app true)

def start (app : Nat) : Py Unit := ensureStarted app

def stop (app : Nat) : Py Unit := do
  let self ← wait (.readProducer app)
  wait (.stopProducer app (if self.started then self.producer else none))

/-- The event, before it is encoded. -/
def payload (photoId objectKey : Str) (createdAt : Time) (traceId : Str) :
    List (Str × Str) :=
  [(py "photo_id", photoId), (py "object_key", objectKey),
    (py "created_at", createdAt.isoformat), (py "trace_id", traceId)]

def encodeUtf8 (s : Str) : Py Bytes :=
  match Text.utf8Encode s with
  | some bytes => .ret bytes
  | none => .raise (.value (py "surrogates not allowed"))

def publishAnalysisRequested (app : Nat) (photoId objectKey : Str)
    (createdAt : Time) (traceId : Str) : Py Unit := do
  let self ← wait (.readProducer app)
  match self.producer, self.started with
  | some producer, true => do
      let value ← encodeUtf8 (Json.dumps (payload photoId objectKey createdAt traceId))
      let key ← encodeUtf8 photoId
      wait (.sendAndWait producer value key)
  | _, _ =>
      .raise (.runtime
        (py "KafkaEventProducer.ensure_started() was not awaited"))

end PhotoAnalysis.KafkaEventProducer

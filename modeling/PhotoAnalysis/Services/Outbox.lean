import PhotoAnalysis.Integrations.KafkaProducer
import PhotoAnalysis.Services.PhotoService

/-!
# The outbox publisher

`run_outbox_publisher`: the rows that are `not_sent` are published one by one
and marked, and the marks of one poll are committed together at its end.
-/

namespace PhotoAnalysis.Outbox

open Foundation Program

/-- `row.trace_id or str(uuid.uuid4())` -/
def rowTraceId (row : Photo) : Py Str := do
  match row.traceId with
  | some (c :: rest) => pure (c :: rest)
  | _ => do
      let fresh ← wait .uuid4
      pure fresh.text

/-- Publish a row and mark it, within the caller's transaction. -/
def publishRow (app : Nat) (row : Photo) : Py Unit := do
  KafkaEventProducer.publishAnalysisRequested app row.photoId.text row.objectKey
    row.createdAt (← traceIdVar)
  PhotoRepository.markPublished row.photoId

/-- A row that fails to publish stays `not_sent` and the next one is tried. -/
def publishRows (app : Nat) : List Photo → Py Unit
  | [] => pure ()
  | row :: rows => do
      let token ← wait (.setTraceId (.str (← rowTraceId row)))
      ((publishRow app row).tryExcept fun exc =>
          if exc.isPublishFailure then wait (.count .kafkaPublishErrorsTotal 1)
          else .raise exc).tryFinally do
        let _ ← wait (.setTraceId token)
      publishRows app rows

def publishBatch (settings : Settings) (app : Nat) : Py Unit :=
  withSession do
    let rows ← PhotoRepository.fetchUnpublished settings.outboxBatchSize
    publishRows app rows
    wait .commit

/-- Start the producer if need be and publish; no `Exception` leaves it. -/
def poll (settings : Settings) (app : Nat) : Py Unit := do
  match ← (KafkaEventProducer.ensureStarted app).attempt with
  | .error exc => if exc.isException then pure () else .raise exc
  | .ok () =>
      (publishBatch settings app).tryExcept fun exc =>
        if exc.isException then pure () else .raise exc

/-- One turn of the `while` loop; `some` when the loop has ended. -/
def turn (settings : Settings) (app : Nat) : Py (Option Reply) := do
  if ← wait .stopIsSet then pure (some .stopped)
  else do
    poll settings app
    (wait .waitStop).tryExcept fun exc =>
      if exc.isTimeout then pure () else .raise exc
    pure none

end PhotoAnalysis.Outbox

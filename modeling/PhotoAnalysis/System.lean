import PhotoAnalysis.Foundation.Pool
import PhotoAnalysis.Services.BatchService
import PhotoAnalysis.Services.Outbox
import PhotoAnalysis.Worker.Consumer

/-!
# The system

Any number of requests, outbox publishers and workers, interleaved at every
operation they wait for.  A worker that is restarted is a new task.
-/

namespace PhotoAnalysis

open Foundation Program

abbrev System := Machine Op Op.Ans PyExc Entry Reply Choice World.External World

abbrev State := Pool Op Op.Ans PyExc Reply World

/-- A call that runs once. -/
def once (body : Py Reply) : Routine Op Op.Ans PyExc Reply :=
  ⟨do pure (some (← body)), do pure (some (← body))⟩

/-- `lifespan` does not let a failed start of the producer stop the process. -/
def startProducer (app : Nat) : Py Reply := do
  (KafkaEventProducer.start app).tryExcept fun exc =>
    if exc.isException then pure () else .raise exc
  pure .stopped

def stopProducer (app : Nat) : Py Reply := do
  (KafkaEventProducer.stop app).tryExcept fun exc =>
    if exc.isException then pure () else .raise exc
  pure .stopped

def routine (settings : Settings) : Entry → Routine Op Op.Ans PyExc Reply
  | .createPhoto _ file => once (PhotoService.createPhoto settings file)
  | .createBatch _ files => once (PhotoService.createBatch settings files)
  | .getPhoto _ photoId => once (PhotoService.getPhoto photoId)
  | .listPhotos _ limit offset => once (PhotoService.listPhotos limit offset)
  | .getPhotoContent _ photoId => once (PhotoService.getPhotoContent photoId)
  | .getBatch _ batchId => once (BatchService.getBatch batchId)
  | .startProducer app => once (startProducer app)
  | .stopProducer app => once (stopProducer app)
  | .outboxPublisher app => ⟨Outbox.turn settings app, Outbox.turn settings app⟩
  | .worker =>
      ⟨do wait .startConsumer; pure none,
        Consumer.turn settings.interpreter (AnalysisProcessor.process settings)⟩

def system (settings : Settings) : System where
  routine := routine settings
  perform := World.perform
  opened := World.opened
  closed := World.closed
  external := World.external

def start : State := Pool.initial World.initial

/-- A state some schedule leads to. -/
def Reachable (settings : Settings) (state : State) : Prop :=
  (system settings).Leads start state

end PhotoAnalysis

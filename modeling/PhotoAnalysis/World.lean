import Mathlib.Data.Rat.Defs
import PhotoAnalysis.Db.Models
import PhotoAnalysis.Foundation.Program

/-!
# The world the service runs in

The operations its code waits for and what they do: PostgreSQL, the object
store, the Kafka topic with the offset of the worker group, the analyzer, and
the state each process and each task keeps for itself.  `Choice` is the
environment's part of a step.  An operation can also raise, before or after it
has taken effect.  `events` is the history of what the sessions did; nothing in
the program reads it.
-/

namespace PhotoAnalysis

open Foundation

inductive Metric where
  | photosUploadedTotal
  | storageUploadErrorsTotal
  | kafkaPublishErrorsTotal
  | photoAnalysisStartedTotal
  | photoAnalysisCompletedTotal
  | photoAnalysisFailedTotal (reason : Str)
  | photoAnalysisDurationSeconds
  | analyzerGrpcErrorsTotal (code : Str)
  | workerMessagesProcessedTotal (result : Str)
  deriving DecidableEq, Repr

structure AnalyzePhotoResponse where
  facesCount : Int
  isBlurred : Bool
  blurScore : Double
  perceptualHash : Str
  deriving DecidableEq, Repr

structure StoredObject where
  data : Bytes
  contentType : Str
  deriving DecidableEq, Repr

/-- A record of the topic, and whether its sender saw it acknowledged. -/
structure ConsumerRecord where
  value : Option Bytes
  key : Option Bytes
  acked : Bool
  deriving DecidableEq, Repr

/-- An `AIOKafkaProducer` object. -/
abbrev ClientId := Nat

/-- The fields of a `KafkaEventProducer`. -/
structure KafkaEventProducer where
  producer : Option ClientId := none
  started : Bool := false
  startLock : Option Tid := none
  deriving DecidableEq, Repr

/-- `2 ** 1024` is the first power of two that is no `float`. -/
def floatExponents : Nat := 1024

/--
No `float` is as large.  A product that is, here a `Rat`, stands for the infinite
`float`, and a pause of that length does not end.
-/
@[irreducible] def floatBound : Nat := 2 ^ floatExponents

/-! ## Operations -/

inductive Op where
  | uuid4
  | utcnow
  | monotonic
  | getTraceId
  | setTraceId (value : Json)
  | count (metric : Metric) (amount : Int)
  | execute (stmt : Stmt)
  | select (query : Query)
  | commit
  | rollback
  | close
  | putObject (name : Str) (data : Bytes) (contentType : Str)
  | getObject (name : Str)
  | removeObject (name : Str)
  | analyzePhoto (photoId objectKey : Str)
  | sleep (seconds : Rat)
  | readProducer (app : Nat)
  | setProducer (app : Nat) (producer : Option ClientId)
  | setStarted (app : Nat) (started : Bool)
  | acquireStartLock (app : Nat)
  | releaseStartLock (app : Nat)
  | buildProducer
  | startProducer (client : ClientId)
  /-- with the assignments after it; only they are left without a client -/
  | stopProducer (app : Nat) (client : Option ClientId)
  | sendAndWait (client : ClientId) (value key : Bytes)
  | stopIsSet
  | waitStop
  | startConsumer
  | getone
  | commitOffset
  | stopConsumer

namespace Op

abbrev Ans : Op → Type
  | uuid4 => UUID
  | utcnow => Time
  | monotonic => Int
  | getTraceId => Json
  | setTraceId _ => Json
  | execute _ => Nat
  | select query => query.Answer
  | getObject _ => Bytes
  | analyzePhoto _ _ => AnalyzePhotoResponse
  | readProducer _ => KafkaEventProducer
  | buildProducer => ClientId
  | stopIsSet => Bool
  | getone => ConsumerRecord
  | _ => Unit

/--
Which operations can raise `exc` without having taken effect; `kept` tells
whether an open transaction outlives it.
-/
def canFail (exc : PyExc) (kept : Bool) : Op → Bool
  | execute _ | select _ | commit => true
  | rollback | close => !kept
  | putObject _ _ _ | getObject _ | removeObject _ => kept
  | startProducer _ | sendAndWait _ _ _ => kept
  | stopProducer _ client => kept && client.isSome
  | startConsumer | getone | commitOffset | stopConsumer => kept
  | sleep _ | acquireStartLock _ => kept && exc = .cancelled
  | waitStop => kept && (exc.isTimeout || exc = .cancelled)
  | _ => false

end Op

/-- A program of the service. -/
abbrev Py := Program Op Op.Ans PyExc

abbrev wait (op : Op) : Py op.Ans := Program.call op

inductive Choice where
  | ok
  | uuid (id : UUID)
  | time (value : Nat)
  | rows (order : List UUID)
  | response (value : AnalyzePhotoResponse)
  | client (id : ClientId)
  /-- raise without having taken effect -/
  | fail (exc : PyExc) (kept : Bool)
  /-- raise after having taken effect -/
  | failAfter (exc : PyExc)
  deriving DecidableEq, Repr

/-! ## Tasks as the environment sees them -/

structure UploadFile where
  filename : Option Str
  data : Bytes
  deriving DecidableEq, Repr

/-- A call of an endpoint's service method, or a long-running task. -/
inductive Entry where
  | createPhoto (requestId : Str) (file : UploadFile)
  | createBatch (requestId : Str) (files : List UploadFile)
  | getPhoto (requestId : Str) (photoId : UUID)
  | listPhotos (requestId : Str) (limit offset : Nat)
  | getPhotoContent (requestId : Str) (photoId : UUID)
  | getBatch (requestId : Str) (batchId : UUID)
  | startProducer (app : Nat)
  | stopProducer (app : Nat)
  | outboxPublisher (app : Nat)
  | worker
  deriving DecidableEq, Repr

def Entry.traceId : Entry → Json
  | createPhoto requestId _ | createBatch requestId _ => .str requestId
  | getPhoto requestId _ | listPhotos requestId _ _ => .str requestId
  | getPhotoContent requestId _ | getBatch requestId _ => .str requestId
  | startProducer _ | stopProducer _ | outboxPublisher _ | worker =>
      .str (py "-")

structure AnalysisResultResponse where
  facesCount : Int
  isBlurred : Bool
  blurScore : Double
  perceptualHash : Str
  deriving DecidableEq, Repr

structure PhotoResponse where
  id : Str
  filename : Str
  status : Str
  analysis : Option AnalysisResultResponse
  deriving DecidableEq, Repr

structure BatchPhotoItem where
  photoId : Str
  status : Str
  deriving DecidableEq, Repr

structure BatchPhotoDetail where
  photoId : Str
  filename : Str
  status : Str
  analysis : Option AnalysisResultResponse
  deriving DecidableEq, Repr

structure BatchResponse where
  batchId : Str
  status : Str
  photos : List BatchPhotoDetail
  bestPhotoId : Option Str
  deriving DecidableEq, Repr

inductive Reply where
  | uploadPhoto (photoId status : Str)
  | batchAccepted (batchId : Str) (photos : List BatchPhotoItem)
  | photo (response : PhotoResponse)
  | photos (responses : List PhotoResponse)
  | content (data : Bytes) (contentType filename : Str)
  | batch (response : BatchResponse)
  | stopped
  deriving DecidableEq, Repr

/-- The start of a task, with the tasks that had ended before it. -/
structure Arrival where
  entry : Entry
  before : List Tid

/-- How a task ended; one that died has no result. -/
abbrev Outcome := Option (Except PyExc Reply)

/-! ## State -/

inductive Event where
  | executed (tid : Tid) (stmt : Stmt) (rowcount : Nat)
  | committed (tid : Tid) (writes : List Write)
  /-- with the writes of the transaction that was open -/
  | raised (tid : Tid) (op : Op) (pending : List Write) (exc : PyExc)

structure World where
  db : Database
  dbClock : Time
  began : Tid → Option Time
  objects : Str → Option StoredObject
  topic : List ConsumerRecord
  committedOffset : Nat
  position : Tid → Nat
  requests : List (Str × Str)
  minted : UUID → Option Tid
  traceId : Tid → Json
  counters : Tid → Metric → Int
  producers : Nat → KafkaEventProducer
  clients : ClientId
  stopSet : Tid → Bool
  arrivals : Tid → Option Arrival
  outcomes : Tid → Option Outcome
  ended : List Tid
  events : List Event

namespace World

def initial : World where
  db := .empty .empty
  dbClock := 0
  began := fun _ => none
  objects := fun _ => none
  topic := []
  committedOffset := 0
  position := fun _ => 0
  requests := []
  minted := fun _ => none
  traceId := fun _ => .str (py "-")
  counters := fun _ _ => 0
  producers := fun _ => {}
  clients := 0
  stopSet := fun _ => false
  arrivals := fun _ => none
  outcomes := fun _ => none
  ended := []
  events := []

/-- `now()` of a transaction is the time it began. -/
def now (w : World) (t : Tid) : Time := (w.began t).getD w.dbClock

def view (w : World) (t : Tid) : Tables := w.db.view Write.apply t

def note (w : World) (event : Event) : World :=
  { w with events := event :: w.events }

def begin (w : World) (t : Tid) : World :=
  { w with began := Function.update w.began t (some (w.now t)) }

def rollback (w : World) (t : Tid) : World :=
  { w with
    db := w.db.rollback t
    began := Function.update w.began t none }

def commit (w : World) (t : Tid) : World :=
  { w with
    db := w.db.commit Write.apply t
    began := Function.update w.began t none
    events := .committed t (w.db.writes t) :: w.events }

/--
A statement that matches a row another transaction holds has to wait.  One that
raises leaves its transaction aborted.
-/
def execute (w : World) (t : Tid) (stmt : Stmt) :
    Option (Except PyExc Nat × World) :=
  match stmt.resolve (w.now t) (w.view t) with
  | .error exc =>
      some (.error exc, (w.rollback t).note
        (.raised t (.execute stmt) (w.db.writes t) exc))
  | .ok none => some (.ok 0, (w.begin t).note (.executed t stmt 0))
  | .ok (some write) =>
      if h : w.db.Free t write.keys then
        some (.ok 1, { w.begin t with db := w.db.write t write h }.note
          (.executed t stmt 1))
      else none

def send (w : World) (value key : Bytes) (acked : Bool) : World :=
  { w with topic := w.topic ++ [⟨some value, some key, acked⟩] }

def putObject (w : World) (name : Str) (object : StoredObject) : World :=
  { w with objects := Function.update w.objects name (some object) }

def removeObject (w : World) (name : Str) : World :=
  { w with objects := Function.update w.objects name none }

def ask (w : World) (photoId objectKey : Str) : World :=
  { w with requests := (photoId, objectKey) :: w.requests }

def setProducer (w : World) (app : Nat) (producer : KafkaEventProducer) :
    World :=
  { w with producers := Function.update w.producers app producer }

def setPosition (w : World) (t : Tid) (position : Nat) : World :=
  { w with position := Function.update w.position t position }

def noSuchKey : PyExc := .s3 (py "NoSuchKey") (py "Object does not exist")

/-- An operation that returns. -/
def answer (w : World) (t : Tid) :
    (op : Op) → Choice → Option (Except PyExc op.Ans × World)
  | .uuid4, .uuid id =>
      if (w.minted id).isNone then
        some (.ok id, { w with minted := Function.update w.minted id (some t) })
      else none
  | .utcnow, .time value => some (.ok value, w)
  | .monotonic, .time value => some (.ok (value : Int), w)
  | .getTraceId, .ok => some (.ok (w.traceId t), w)
  | .setTraceId value, .ok =>
      some (.ok (w.traceId t),
        { w with traceId := Function.update w.traceId t value })
  | .count metric amount, .ok =>
      some (.ok (), { w with
        counters := Function.update w.counters t (Function.update
          (w.counters t) metric (w.counters t metric + amount)) })
  | .execute stmt, .ok => w.execute t stmt
  | .select query, .rows order =>
      (query.answer (w.view t) order).map fun rows => (.ok rows, w.begin t)
  | .commit, .ok => some (.ok (), w.commit t)
  | .rollback, .ok => some (.ok (), w.rollback t)
  | .close, .ok => some (.ok (), w.rollback t)
  | .putObject name data contentType, .ok =>
      some (.ok (), w.putObject name ⟨data, contentType⟩)
  | .getObject name, .ok =>
      match w.objects name with
      | some object => some (.ok object.data, w)
      | none => some (.error noSuchKey, w)
  | .removeObject name, .ok => some (.ok (), w.removeObject name)
  | .analyzePhoto photoId objectKey, .response value =>
      some (.ok value, w.ask photoId objectKey)
  | .sleep seconds, .ok =>
      if seconds < (floatBound : Rat) then some (.ok (), w) else none
  | .readProducer app, .ok => some (.ok (w.producers app), w)
  | .setProducer app producer, .ok =>
      some (.ok (), w.setProducer app
        { w.producers app with producer := producer })
  | .setStarted app started, .ok =>
      some (.ok (), w.setProducer app
        { w.producers app with started := started })
  | .acquireStartLock app, .ok =>
      if (w.producers app).startLock.isNone then
        some (.ok (), w.setProducer app
          { w.producers app with startLock := some t })
      else none
  | .releaseStartLock app, .ok =>
      some (.ok (), w.setProducer app
        { w.producers app with startLock := none })
  | .buildProducer, .ok =>
      some (.ok w.clients, { w with clients := w.clients + 1 })
  | .startProducer _, .ok => some (.ok (), w)
  | .stopProducer app _, .ok =>
      some (.ok (), w.setProducer app
        { w.producers app with started := false, producer := none })
  | .sendAndWait _ value key, .ok => some (.ok (), w.send value key true)
  | .stopIsSet, .ok => some (.ok (w.stopSet t), w)
  | .waitStop, .ok => if w.stopSet t then some (.ok (), w) else none
  | .startConsumer, .ok => some (.ok (), w.setPosition t w.committedOffset)
  | .getone, .ok =>
      match w.topic[w.position t]? with
      | some record => some (.ok record, w.setPosition t (w.position t + 1))
      | none => none
  | .commitOffset, .ok =>
      some (.ok (), { w with committedOffset := w.position t })
  | .stopConsumer, .ok => some (.ok (), w)
  | _, _ => none

/--
The effect an operation can have although it raises.  A process that dies while it
waits for such an operation is a step that raises, followed by the crash.
-/
def halfDone (w : World) (t : Tid) : Op → Option World
  | .commit => some (w.commit t)
  | .putObject name data contentType => some (w.putObject name ⟨data, contentType⟩)
  | .removeObject name => some (w.removeObject name)
  | .analyzePhoto photoId objectKey => some (w.ask photoId objectKey)
  | .sendAndWait _ value key => some (w.send value key false)
  | .commitOffset => some { w with committedOffset := w.position t }
  | _ => none

def perform (t : Tid) (op : Op) (choice : Choice) (w : World) :
    Option (Except PyExc op.Ans × World) :=
  match choice with
  | .fail exc kept =>
      if op.canFail exc kept then
        some (.error exc, (if kept then w else w.rollback t).note
          (.raised t op (w.db.writes t) exc))
      else none
  | .failAfter exc =>
      (w.halfDone t op).map fun w' =>
        (.error exc, w'.note (.raised t op (w.db.writes t) exc))
  | choice => w.answer t op choice

/-! ## What happens outside the tasks' operations -/

inductive External where
  | tick (elapsed : Nat)
  | stop (tid : Tid)
  /-- a record someone else puts on the topic -/
  | produce (value key : Option Bytes)
  deriving DecidableEq, Repr

def external : External → World → World
  | .tick elapsed, w => { w with dbClock := w.dbClock + elapsed }
  | .stop tid, w => { w with stopSet := Function.update w.stopSet tid true }
  | .produce value key, w =>
      { w with topic := w.topic ++ [⟨value, key, false⟩] }

def opened (t : Tid) (entry : Entry) (w : World) : World :=
  { w with
    traceId := Function.update w.traceId t entry.traceId
    arrivals := Function.update w.arrivals t (some ⟨entry, w.ended⟩) }

/-- A task that ends takes its session with it. -/
def closed (t : Tid) (outcome : Outcome) (w : World) : World :=
  { w.rollback t with
    outcomes := Function.update w.outcomes t (some outcome)
    ended := t :: w.ended }

end World

end PhotoAnalysis

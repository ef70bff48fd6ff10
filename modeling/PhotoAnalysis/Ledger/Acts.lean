import PhotoAnalysis.Foundation.JsonCodec
import PhotoAnalysis.Ledger.Tables
import PhotoAnalysis.System

/-!
# The ledger and the acts on it

The ledger is the part of the world every task can see: the committed tables,
the objects, the topic and the history.  An act is one change a task makes to
it, with the condition under which the task may make it.  A condition mentions
the ledger and the acting task only, so that whether an act is allowed does not
depend on what else that task has in hand.
-/

namespace PhotoAnalysis

open Foundation

structure Ledger where
  tables : Tables
  events : List Event
  objects : Str → Option StoredObject
  topic : List ConsumerRecord
  committedOffset : Nat
  requests : List (Str × Str)
  minted : UUID → Option Tid
  arrivals : Tid → Option Arrival
  outcomes : Tid → Option Outcome
  ended : List Tid

def World.ledger (w : World) : Ledger where
  tables := w.db.committed
  events := w.events
  objects := w.objects
  topic := w.topic
  committedOffset := w.committedOffset
  requests := w.requests
  minted := w.minted
  arrivals := w.arrivals
  outcomes := w.outcomes
  ended := w.ended

/-- An event that leaves the tables alone. -/
def Event.Note (t : Tid) : Event → Prop
  | .executed tid _ _ => tid = t
  | .raised tid _ _ _ => tid = t
  | .committed _ _ => False

/-- The write a claim that matched leaves. -/
def claimWrite (id : UUID) : Write :=
  .setPhoto id { status := some .processing }

/-- The record announces the photo to the workers. -/
def Announces (record : ConsumerRecord) (photo : Photo) : Prop :=
  ∃ createdAt traceId, Json.Scalar traceId ∧
    record.value = Text.utf8Encode (Json.dumps (KafkaEventProducer.payload
      photo.photoId.text photo.objectKey createdAt traceId))

/-- `row` is what an accepted upload of `file` inserts. -/
def Uploads (file : UploadFile) (traceId : Str) (batchId : Option UUID)
    (row : Photo) : Prop :=
  ∃ ext contentType now, PhotoService.validate file.data = .ok (ext, contentType) ∧
    (PhotoService.newPhoto row.photoId file.filename ext traceId batchId).fits ∧
    row = (PhotoService.newPhoto row.photoId file.filename ext traceId
      batchId).row now

section

variable {file : UploadFile} {requestId : Str} {batchId : Option UUID} {row : Photo}

theorem Uploads.objectKey (h : Uploads file requestId batchId row) :
    ∃ ext, row.objectKey = PhotoService.objectKey row.photoId ext := by
  obtain ⟨ext, contentType, now, hvalid, -, hrow⟩ := h
  exact ⟨ext, (congrArg Photo.objectKey hrow).trans
    (PhotoService.cut_objectKey row.photoId hvalid)⟩

theorem Uploads.objectKey_holds (h : Uploads file requestId batchId row) :
    Column.holds 1024 row.objectKey = true := by
  obtain ⟨ext, contentType, now, -, hfits, hrow⟩ := h
  simp only [NewPhoto.fits, Bool.and_eq_true] at hfits
  rw [hrow]
  exact Column.holds_cut hfits.1.2

theorem Uploads.traceId (h : Uploads file requestId batchId row) :
    row.traceId = some (Column.cut 64 requestId) ∧ Column.fits 64 requestId = true := by
  obtain ⟨ext, contentType, now, -, hfits, hrow⟩ := h
  simp only [NewPhoto.fits, Bool.and_eq_true] at hfits
  exact ⟨congrArg Photo.traceId hrow, hfits.2⟩

end

/-- The transaction an accepted batch commits. -/
def batchWrites (batchId : UUID) (now : Time) (rows : List Photo) : List Write :=
  .addBatch ⟨batchId, .processing, none, now⟩ :: rows.map .addPhoto

namespace Ledger

variable (L : Ledger)

def note (event : Event) : Ledger := { L with events := event :: L.events }

def commit (t : Tid) (ws : List Write) : Ledger :=
  { L with
    tables := ws.foldl Write.apply L.tables
    events := .committed t ws :: L.events }

/-- The tables, from the history of commits. -/
def replay : List Event → Tables
  | [] => .empty
  | .committed _ ws :: events => ws.foldl Write.apply (replay events)
  | _ :: events => replay events

/-- How many committed transactions claim a photo. -/
def claims (id : UUID) : Nat :=
  L.events.countP fun event => match event with
    | .committed _ ws => claimWrite id ∈ ws
    | _ => false

/-- How many requests to the analyzer are about a photo. -/
def asked (id : UUID) : Nat :=
  L.requests.countP fun request => UUID.parse request.1 = some id

/-- The task whose claim of a photo committed. -/
def Owner (t : Tid) (id : UUID) : Prop :=
  .committed t [claimWrite id] ∈ L.events

def commitsOf (t : Tid) : List (List Write) :=
  L.events.filterMap fun event => match event with
    | .committed tid ws => if tid = t then some ws else none
    | _ => none

theorem mem_commitsOf {L : Ledger} {t : Tid} {ws : List Write}
    (h : ws ∈ L.commitsOf t) : .committed t ws ∈ L.events := by
  obtain ⟨event, hmem, hevent⟩ := List.mem_filterMap.mp h
  cases event with
  | committed tid ws' =>
      simp only [Option.ite_none_right_eq_some, Option.some.injEq] at hevent
      obtain ⟨rfl, rfl⟩ := hevent
      exact hmem
  | executed tid stmt rowcount => cases hevent
  | raised tid op pending exc => cases hevent

/-- The statement or the commit of some `process` call's claim has raised. -/
def ClaimRaised (id : UUID) : Prop :=
  ∃ t op pending exc, Event.raised t op pending exc ∈ L.events ∧
    (op = .execute (PhotoRepository.claimStmt id) ∨
      op = .commit ∧ pending = [claimWrite id])

def Lives {M : Nat} (id : UUID) (life : Life M) : Prop :=
  ∃ a, L.tables.loaded id = some a ∧ life.Shows a

/-- An acknowledged record announces the photo. -/
def Delivered (photo : Photo) : Prop :=
  ∃ record ∈ L.topic, record.acked ∧ Announces record photo

/-- Nothing is left to do for the record at offset `i`. -/
def Settled (i : Nat) : Prop :=
  ∃ record, L.topic[i]? = some record ∧
    (record.acked → ∃ id photo, L.tables.photo id = some photo ∧
      Announces record photo ∧ (photo.status ≠ .pending ∨ L.ClaimRaised id))

/-- The photo has been named by task `t` and is not in the tables. -/
def Fresh (t : Tid) (id : UUID) : Prop :=
  L.minted id = some t ∧ L.tables.photo id = none

/-- The bytes of the file are stored under the row's key. -/
def Stored (file : UploadFile) (row : Photo) : Prop :=
  ∃ ext contentType, PhotoService.validate file.data = .ok (ext, contentType) ∧
    L.objects row.objectKey = some ⟨file.data, contentType⟩

/-- The committed row was inserted by an upload of the file. -/
def CreatedFrom (row : Photo) (file : UploadFile) : Prop :=
  (∃ t requestId before,
    L.arrivals t = some ⟨.createPhoto requestId file, before⟩ ∧
    Event.committed t [.addPhoto row] ∈ L.events) ∨
  ∃ t requestId files before batchId now rows, ∃ i : Nat,
    L.arrivals t = some ⟨.createBatch requestId files, before⟩ ∧
    Event.committed t (batchWrites batchId now rows) ∈ L.events ∧
    rows[i]? = some row ∧ files[i]? = some file

/-! ## Ends of calls -/

/-- What a `create_batch` call has left behind when it ends. -/
def BatchEnds (t : Tid) (requestId : Str) (files : List UploadFile) :
    Except PyExc Reply → Prop
  | .ok reply => ∃ batchId now rows,
      L.commitsOf t = [batchWrites batchId now rows] ∧
      files.Forall₂ (fun file row => Uploads file requestId (some batchId) row)
        rows ∧
      (rows.map Photo.photoId).Nodup ∧
      reply = .batchAccepted batchId.text
        (rows.map fun row => ⟨row.photoId.text, py "pending"⟩)
  | .error exc => L.commitsOf t = [] ∨
      ∃ pending, Event.raised t .commit pending exc ∈ L.events ∧
        Event.committed t pending ∈ L.events

/-- A `get_batch` call on the batch has returned the response. -/
def Answered (t : Tid) (batchId : UUID) (response : BatchResponse) : Prop :=
  ∃ requestId before,
    L.arrivals t = some ⟨.getBatch requestId batchId, before⟩ ∧
    L.outcomes t = some (some (.ok (.batch response)))

def completed (response : BatchResponse) : Prop :=
  response.status = py "completed"

/-- All photos of the batch are terminal and the response says so. -/
def Final (batchId : UUID) (response : BatchResponse) : Prop :=
  BatchService.allTerminal (L.tables.members batchId) ∧
    response = BatchService.batchResponse batchId (L.tables.members batchId)

/-- Some call that ended before saw the batch completed. -/
def SeenCompleted (batchId : UUID) (before : List Tid) : Prop :=
  ∃ t ∈ before, ∃ response, L.Answered t batchId response ∧ completed response

/--
What a `get_batch` call may answer.  Once the batch has been seen completed, a
later call fails only with an exception one of its operations raised.
-/
def ReadEnds (t : Tid) (batchId : UUID) (before : List Tid)
    (result : Except PyExc Reply) : Prop :=
  (∀ response, result = .ok (.batch response) → completed response →
    L.Final batchId response) ∧
  (L.SeenCompleted batchId before →
    (∃ response, result = .ok (.batch response) ∧ completed response) ∨
      ∃ op pending exc, result = .error exc ∧
        Event.raised t op pending exc ∈ L.events)

/-- What a call has to have established when it ends. -/
def Ends (t : Tid) (arrival : Arrival) : Outcome → Prop
  | none => True
  | some result =>
      match arrival.entry with
      | .createBatch requestId files => L.BatchEnds t requestId files result
      | .getBatch _ batchId => L.ReadEnds t batchId arrival.before result
      | _ => True

end Ledger

open PhotoRepository

/-- The transactions that commit. -/
inductive Tx (M : Nat) (t : Tid) (L : Ledger) : List Write → Prop
  | nothing : Tx M t L []
  | claim {id a} (ha : L.tables.loaded id = some a)
      (hs : a.photo.status = .pending) : Tx M t L [claimWrite id]
  | attempt {id n code message} {life : Life M} (howner : L.Owner t id)
      (hlife : L.Lives id life) (ht : life.tried = some n) (hn : n + 1 ≤ M) :
      Tx M t L [.setPhoto id (attemptValues (n + 1) code message)]
  | done {id n} {row : AnalysisResult} {life : Life M} (howner : L.Owner t id)
      (hlife : L.Lives id life) (ht : life.tried = some n) (hn : n + 1 ≤ M)
      (hrow : row.photoId = id) :
      Tx M t L [.addAnalysis row, .setPhoto id (doneValues (n + 1))]
  | fail {id n code message} {life : Life M} (howner : L.Owner t id)
      (hlife : L.Lives id life) (ht : life.tried = some n) (hn : min 1 M ≤ n) :
      Tx M t L [.setPhoto id (failedValues code message n)]
  | publish {marks : List (UUID × PhotoValues)}
      (h : ∀ mark ∈ marks, (∃ time, mark.2 = publishedValues time) ∧
        ∃ p, L.tables.photo mark.1 = some p ∧ L.Delivered p) :
      Tx M t L (marks.map fun mark => .setPhoto mark.1 mark.2)
  | upload {requestId file before row}
      (ha : L.arrivals t = some ⟨.createPhoto requestId file, before⟩)
      (hrow : Uploads file requestId none row) (hfresh : L.Fresh t row.photoId)
      (hstored : L.Stored file row) : Tx M t L [.addPhoto row]
  | batch {requestId files before batchId now rows}
      (ha : L.arrivals t = some ⟨.createBatch requestId files, before⟩)
      (hminted : L.minted batchId = some t)
      (hfresh : L.tables.batch batchId = none)
      (hcount : 2 ≤ files.length ∧ files.length ≤ 10)
      (hrows : files.Forall₂ (fun file row =>
        Uploads file requestId (some batchId) row ∧ L.Fresh t row.photoId ∧
          L.Stored file row) rows)
      (hnodup : (rows.map Photo.photoId).Nodup) :
      Tx M t L (batchWrites batchId now rows)
  | complete {batchId} (hbatch : (L.tables.batch batchId).isSome)
      (hall : BatchService.allTerminal (L.tables.members batchId)) :
      Tx M t L [.setBatch batchId .completed
        (BatchService.selectBestPhoto (L.tables.members batchId))]

/-- What task `t` may do to the ledger. -/
inductive Act (M : Nat) (t : Tid) (L : Ledger) : Ledger → Prop
  | commit {ws} (hlive : L.outcomes t = none) (ha : (L.arrivals t).isSome)
      (h : Tx M t L ws) : Act M t L (L.commit t ws)
  | mint {id} (h : L.minted id = none) :
      Act M t L { L with minted := Function.update L.minted id (some t) }
  | put {id} {ext : Str} {object : Option StoredObject} (h : L.Fresh t id) :
      Act M t L { L with
        objects := Function.update L.objects (PhotoService.objectKey id ext)
          object }
  | send {record : ConsumerRecord}
      (h : record.acked → ∃ id p, L.tables.photo id = some p ∧
        Announces record p) :
      Act M t L { L with topic := L.topic ++ [record] }
  | offset {n} (h : ∀ i < n, L.Settled i) :
      Act M t L { L with committedOffset := n }
  | ask {photoId objectKey : Str} {id} (hid : UUID.parse photoId = some id)
      (howner : L.Owner t id) (hn : L.asked id < M) :
      Act M t L { L with requests := (photoId, objectKey) :: L.requests }
  | arrive {entry} (h : L.arrivals t = none) (hlive : L.outcomes t = none) :
      Act M t L { L with
        arrivals := Function.update L.arrivals t (some ⟨entry, L.ended⟩) }
  | reply {arrival outcome} (ha : L.arrivals t = some arrival)
      (hlive : L.outcomes t = none) (h : L.Ends t arrival outcome) :
      Act M t L { L with
        outcomes := Function.update L.outcomes t (some outcome)
        ended := t :: L.ended }

/--
One step of task `t`: at most one act and at most one note about it.  It leaves
alone the rows the others hold locked.
-/
def Move (M : Nat) (locked : RowKey → Prop) (t : Tid) (L L' : Ledger) : Prop :=
  ∃ L₁, (L₁ = L ∨ Act M t L L₁) ∧
    (L' = L₁ ∨ ∃ event : Event, event.Note t ∧ L' = L₁.note event) ∧
    ∀ k, locked k → L₁.tables.row k = L.tables.row k

end PhotoAnalysis

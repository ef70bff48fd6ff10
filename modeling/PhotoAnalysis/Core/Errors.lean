import PhotoAnalysis.Foundation.Json

/-!
# Exceptions

The domain errors of the service with their error codes and HTTP statuses, and
the other exceptions its code can meet.  An exception carries the text `str`
gives for it.
-/

namespace PhotoAnalysis

open Foundation

/-- The subclasses of `AppError`. -/
inductive AppError where
  | storageUnavailable
  | notFound
  | validation
  | conflict
  | payloadTooLarge
  | unsupportedMediaType
  | batchSize
  deriving DecidableEq, Repr

namespace AppError

def errorCode : AppError → Str
  | storageUnavailable => py "SERVICE_UNAVAILABLE"
  | notFound => py "NOT_FOUND"
  | validation => py "INVALID_FILE"
  | conflict => py "CONFLICT"
  | payloadTooLarge => py "PAYLOAD_TOO_LARGE"
  | unsupportedMediaType => py "UNSUPPORTED_MEDIA_TYPE"
  | batchSize => py "INVALID_BATCH_SIZE"

def httpStatus : AppError → Nat
  | storageUnavailable => 503
  | notFound => 404
  | validation => 400
  | conflict => 409
  | payloadTooLarge => 413
  | unsupportedMediaType => 415
  | batchSize => 400

end AppError

inductive GrpcStatus where
  | ok
  | cancelled
  | unknown
  | invalidArgument
  | deadlineExceeded
  | notFound
  | alreadyExists
  | permissionDenied
  | resourceExhausted
  | failedPrecondition
  | aborted
  | outOfRange
  | unimplemented
  | internal
  | unavailable
  | dataLoss
  | unauthenticated
  deriving DecidableEq, Repr

/-- `StatusCode.name` -/
def GrpcStatus.name : GrpcStatus → Str
  | ok => py "OK"
  | cancelled => py "CANCELLED"
  | unknown => py "UNKNOWN"
  | invalidArgument => py "INVALID_ARGUMENT"
  | deadlineExceeded => py "DEADLINE_EXCEEDED"
  | notFound => py "NOT_FOUND"
  | alreadyExists => py "ALREADY_EXISTS"
  | permissionDenied => py "PERMISSION_DENIED"
  | resourceExhausted => py "RESOURCE_EXHAUSTED"
  | failedPrecondition => py "FAILED_PRECONDITION"
  | aborted => py "ABORTED"
  | outOfRange => py "OUT_OF_RANGE"
  | unimplemented => py "UNIMPLEMENTED"
  | internal => py "INTERNAL"
  | unavailable => py "UNAVAILABLE"
  | dataLoss => py "DATA_LOSS"
  | unauthenticated => py "UNAUTHENTICATED"

/--
What can be raised.  `cancelled` is the one class here that is no `Exception`:
it passes through `except Exception`.
-/
inductive PyExc where
  | app (error : AppError) (message : Str) (photoId : Option Str)
  | timeout (text : Str)
  | kafka (text : Str)
  | s3 (code text : Str)
  | rpc (status : GrpcStatus) (text : Str)
  | loads (error : LoadsError)
  | value (text : Str)
  | runtime (text : Str)
  | integrity (text : Str)
  | data (text : Str)
  | database (text : Str)
  | other (text : Str)
  | cancelled
  deriving DecidableEq, Repr

/-- `RecursionError`, out of anything but `json.loads` -/
def PyExc.recursion : PyExc := .runtime (py "maximum recursion depth exceeded")

def AppError.exc (error : AppError) (message : Str)
    (photoId : Option Str := none) : PyExc :=
  .app error message photoId

namespace PyExc

/-- `isinstance(exc, Exception)` -/
def isException : PyExc → Bool
  | cancelled => false
  | _ => true

/-- `isinstance(exc, TimeoutError)` -/
def isTimeout : PyExc → Bool
  | timeout _ => true
  | _ => false

/-- What the upload calls answer with a rollback. -/
def isStorageFailure : PyExc → Bool
  | app .storageUnavailable _ _ => true
  | timeout _ => true
  | _ => false

/-- What the outbox leaves for its next poll. -/
def isPublishFailure : PyExc → Bool
  | kafka _ => true
  | timeout _ => true
  | _ => false

/-- `str(exc)` -/
def text : PyExc → Str
  | app _ message _ => message
  | timeout s => s
  | kafka s => s
  | s3 _ s => s
  | rpc _ s => s
  | loads _ => []
  | value s => s
  | runtime s => s
  | integrity s => s
  | data s => s
  | database s => s
  | other s => s
  | cancelled => []

end PyExc

end PhotoAnalysis

import PhotoAnalysis.World

/-!
# The analyzer's client

Calling the analyzer, and what to make of the exceptions of a call.
-/

namespace PhotoAnalysis

open Foundation Program

inductive RetryDecision where
  | retry
  | noRetry
  deriving DecidableEq, Repr

namespace AnalyzerGrpcClient

def maxErrorMessageLength : Nat := 500

def retryableGrpcCodes : List GrpcStatus :=
  [.unavailable, .deadlineExceeded, .resourceExhausted, .aborted, .internal]

def analyze (photoId objectKey : Str) : Py AnalyzePhotoResponse :=
  wait (.analyzePhoto photoId objectKey)

/-- Anything that is not known to be transient is not retried. -/
def classifyGrpcError : PyExc → RetryDecision
  | .timeout _ => .retry
  | .rpc status _ => if status ∈ retryableGrpcCodes then .retry else .noRetry
  | _ => .noRetry

def errorCodeFromException : PyExc → Str
  | .timeout _ => py "TIMEOUT"
  | .rpc status _ => status.name
  | _ => py "UNKNOWN"

def truncateErrorMessage (message : Str) (limit : Nat) : Str :=
  if message.length ≤ limit then message else message.take limit

end AnalyzerGrpcClient

end PhotoAnalysis

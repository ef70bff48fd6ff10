import PhotoAnalysis.Integrations.AnalyzerClient
import PhotoAnalysis.Services.PhotoService

/-!
# Processing one analysis request

`AnalysisProcessor.process`: claim the photo, call the analyzer with a bounded
number of retries, write the result.  The claim and every failed attempt commit
on their own.
-/

namespace PhotoAnalysis.AnalysisProcessor

open Foundation Program AnalyzerGrpcClient

/-- The variables of the retry loop that the terminal write reads. -/
structure Progress where
  attempts : Nat
  lastCode : Str
  lastMessage : Str
  decision : RetryDecision
  response : Option AnalyzePhotoResponse
  deriving DecidableEq, Repr

def Progress.start : Progress := ⟨0, py "UNKNOWN", [], .noRetry, none⟩

/-- What a failed attempt leaves in the variables. -/
def Progress.fail (attempt : Nat) (exc : PyExc) : Progress where
  attempts := attempt
  lastCode := errorCodeFromException exc
  lastMessage := truncateErrorMessage exc.text maxErrorMessageLength
  decision := classifyGrpcError exc
  response := none

/-- `base * 2 ** (attempt - 1)`: the `int` is made a `float` first. -/
def backoff (base : Rat) (attempt : Nat) : Except PyExc Rat :=
  if attempt - 1 < floatExponents then .ok (base * 2 ^ (attempt - 1))
  else .error (.other (py "int too large to convert to float"))

/-- The turns for `attempt`, `attempt + 1`, .. of which `remaining` are left. -/
def retryLoop (settings : Settings) (photoId objectKey : Str) (photoUuid : UUID) :
    (remaining : Nat) → (attempt : Nat) → Progress → Py Progress
  | 0, _, progress => pure progress
  | remaining + 1, attempt, progress => do
      match ← (analyze photoId objectKey).attempt with
      | .ok response =>
          pure { progress with attempts := attempt, response := some response }
      | .error exc =>
          if !exc.isException then .raise exc
          else
            let progress := Progress.fail attempt exc
            wait (.count (.analyzerGrpcErrorsTotal progress.lastCode) 1)
            PhotoRepository.recordAttempt photoUuid progress.attempts
              progress.lastCode progress.lastMessage
            wait .commit
            if progress.decision = .noRetry ∨
                (attempt : Int) = settings.workerMaxAttempts then
              pure progress
            else do
              wait (.sleep (← ofExcept
                (backoff settings.retryBackoffBaseSeconds attempt)))
              retryLoop settings photoId objectKey photoUuid remaining
                (attempt + 1) progress

def failureReason (decision : RetryDecision) : Str :=
  if decision = .noRetry then py "no_retry" else py "retries_exhausted"

/-- One transaction, for either outcome. -/
def terminalWrite (photoUuid : UUID) (progress : Progress) : Py Unit := do
  match progress.response with
  | some response =>
      AnalysisResultRepository.upsert photoUuid response
      PhotoRepository.markDone photoUuid progress.attempts
      wait .commit
      wait (.count .photoAnalysisCompletedTotal 1)
      wait (.count (.workerMessagesProcessedTotal (py "done")) 1)
  | none =>
      PhotoRepository.markFailed photoUuid progress.lastCode
        progress.lastMessage progress.attempts
      wait .commit
      wait (.count (.photoAnalysisFailedTotal (failureReason progress.decision)) 1)
      wait (.count (.workerMessagesProcessedTotal (py "failed")) 1)

def analyzeClaimed (settings : Settings) (photoId objectKey : Str)
    (photoUuid : UUID) : Py Unit := do
  wait (.count .photoAnalysisStartedTotal 1)
  let t0 ← wait .monotonic
  let progress ← retryLoop settings photoId objectKey photoUuid
    settings.workerMaxAttempts.toNat 1 .start
  wait (.count .photoAnalysisDurationSeconds ((← wait .monotonic) - t0))
  terminalWrite photoUuid progress

def process (settings : Settings) (photoId objectKey : Str) : Py Unit := do
  match UUID.parse photoId with
  | none => .raise (.value (py "badly formed hexadecimal UUID string"))
  | some photoUuid =>
      let rowcount ← PhotoRepository.claimForProcessing photoUuid
      wait .commit
      if rowcount = 0 then
        wait (.count (.workerMessagesProcessedTotal (py "skipped")) 1)
      else analyzeClaimed settings photoId objectKey photoUuid

end PhotoAnalysis.AnalysisProcessor

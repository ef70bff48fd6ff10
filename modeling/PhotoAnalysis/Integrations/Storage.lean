import PhotoAnalysis.World

/-!
# Object storage

`ObjectStorage` over the operations of the MinIO SDK.  Only `S3Error` is
translated; any other exception of the SDK passes through.
-/

namespace PhotoAnalysis

open Foundation Program

namespace ObjectStorage

/-- Reject names that could escape the intended prefix. -/
def validateObjectName (objectName : Str) : Py Unit :=
  if Text.contains (py "..") objectName || Text.contains (py "//") objectName
  then .raise (.value (py "unsafe object name: " ++ objectName))
  else .ret ()

def unreachable : PyExc :=
  AppError.storageUnavailable.exc (py "MinIO is unreachable")

/-- The `bucket/object_key` it returns is only informational. -/
def saveFile (bucket objectName : Str) (data : Bytes) (length : Nat)
    (contentType : Str) : Py Str := do
  validateObjectName objectName
  (wait (.putObject objectName (data.take length) contentType)).tryExcept fun
    | .s3 _ _ => .raise unreachable
    | exc => .raise exc
  pure (bucket ++ 47 :: objectName)

def getFile (objectName : Str) : Py Bytes :=
  (wait (.getObject objectName)).tryExcept fun
    | .s3 code _ =>
        if code = py "NoSuchKey" then
          .raise (AppError.notFound.exc (py "Object not found"))
        else .raise unreachable
    | exc => .raise exc

/-- Best effort: an `S3Error` is logged and swallowed. -/
def deleteFile (objectName : Str) : Py Unit :=
  (wait (.removeObject objectName)).tryExcept fun
    | .s3 _ _ => .ret ()
    | exc => .raise exc

end ObjectStorage

end PhotoAnalysis

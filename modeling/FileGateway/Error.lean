import FileGateway.Connection.Key
import FileGateway.Duration.Printer
import FileGateway.Failure
import FileGateway.Path.Basic
import FileGateway.Text.Quoted

/-!
# Errors

What an operation can end with instead of a result, the stable codes a caller decides by, and the
outcome that is handed back: a code and a message.
-/

namespace FileGateway

/-- A code that callers can rely on. -/
inductive ErrorCode where
  | connectionNotFound
  | connectionSuspended
  | connectionError
  | lockAcquisitionFailed
  | lockReleaseFailed
  | filesystemError
  | invalidConfig
  | unsupportedProtocol
deriving DecidableEq, Repr

namespace ErrorCode

/-- All codes by name. -/
def known : List (String × ErrorCode) :=
  [("CONNECTION_NOT_FOUND", connectionNotFound), ("CONNECTION_SUSPENDED", connectionSuspended),
   ("CONNECTION_ERROR", connectionError), ("LOCK_ACQUISITION_FAILED", lockAcquisitionFailed),
   ("LOCK_RELEASE_FAILED", lockReleaseFailed), ("FILESYSTEM_ERROR", filesystemError),
   ("INVALID_CONFIG", invalidConfig), ("UNSUPPORTED_PROTOCOL", unsupportedProtocol)]

/-- The name of a code. -/
def name : ErrorCode → String
  | connectionNotFound => "CONNECTION_NOT_FOUND"
  | connectionSuspended => "CONNECTION_SUSPENDED"
  | connectionError => "CONNECTION_ERROR"
  | lockAcquisitionFailed => "LOCK_ACQUISITION_FAILED"
  | lockReleaseFailed => "LOCK_RELEASE_FAILED"
  | filesystemError => "FILESYSTEM_ERROR"
  | invalidConfig => "INVALID_CONFIG"
  | unsupportedProtocol => "UNSUPPORTED_PROTOCOL"

/-- The code of a name. -/
def ofName? (name : String) : Option ErrorCode :=
  known.lookup name

end ErrorCode

/-- Why an operation has no result. The backend of a suspended connection was not called, and the
connection stays suspended for the time remaining. -/
inductive Error where
  | connectionNotFound (key : ConnectionKey)
  | connectionSuspended (connection : String) (remaining : Duration)
  | connectionFailed (connection : String) (failure : Failure)
  | lockNotAcquired (path : Path) (reason : String)
  | lockNotHeld (path : Path)
  | filesystem (path : Path) (failure : Failure)
  | invalidConfig (message : String)
  | unsupportedProtocol (protocol : String)
deriving DecidableEq

namespace Error

/-- The code of an error. -/
def code : Error → ErrorCode
  | connectionNotFound _ => .connectionNotFound
  | connectionSuspended _ _ => .connectionSuspended
  | connectionFailed _ _ => .connectionError
  | lockNotAcquired _ _ => .lockAcquisitionFailed
  | lockNotHeld _ => .lockReleaseFailed
  | filesystem _ _ => .filesystemError
  | invalidConfig _ => .invalidConfig
  | unsupportedProtocol _ => .unsupportedProtocol

/-- Whether the error is part of normal running, so that the caller may simply try again later. -/
def isExpected : Error → Bool
  | connectionSuspended _ _ => true
  | lockNotAcquired _ _ => true
  | _ => false

/-- The error in words. Of the time remaining whole milliseconds are shown. -/
def message : Error → String
  | connectionNotFound key => "connection " ++ key.text ++ " not found"
  | connectionSuspended connection remaining =>
    "connection " ++ connection ++ " is suspended, retry in " ++ remaining.wholeMillis.write
  | connectionFailed connection failure =>
    "connection " ++ connection ++ " failed: " ++ failure.text
  | lockNotAcquired path reason =>
    "failed to acquire lock " ++ Text.quote path.text ++ ": " ++ reason
  | lockNotHeld path =>
    "failed to release lock " ++ Text.quote path.text ++ ": lock is not held"
  | filesystem path failure =>
    "filesystem operation on " ++ Text.quote path.text ++ " failed: " ++ failure.text
  | invalidConfig message => "invalid configuration: " ++ message
  | unsupportedProtocol protocol =>
    "no backing store available for protocol " ++ Text.quote protocol

end Error

/-- What is handed back to a caller whose operation failed. -/
structure Outcome where
  code : ErrorCode
  message : String
deriving DecidableEq, Repr

namespace Outcome

/-- The outcome of an error. -/
def ofError (e : Error) : Outcome :=
  ⟨e.code, e.message⟩

/-- The outcome on one line. -/
def text (o : Outcome) : String :=
  "[" ++ o.code.name ++ "] " ++ o.message

/-- An outcome that is being read. -/
structure Draft where
  code : Option ErrorCode := none
  message : Option String := none

/-- The form of an outcome in JSON. Fields of other names are passed over. -/
def form : Json.RecordForm Draft where
  title := "Outcome"
  fields := ["code", "message"]
  optional := []
  strict := false
  put draft field value :=
    if field = "code" then do
      return { draft with code := some (← value.variant ErrorCode.known) }
    else do
      return { draft with message := some (← value.text "a string") }

/-- Decodes an outcome. -/
def ofTree (tree : Json.Tree) : Json.Decoded Outcome := do
  let draft ← form.draft {} tree
  return { code := ← Json.need "code" draft.code, message := ← Json.need "message" draft.message }

/-- Encodes an outcome. -/
def toJson (o : Outcome) : Json.Value :=
  .object [("code", .string o.code.name), ("message", .string o.message)]

end Outcome

end FileGateway

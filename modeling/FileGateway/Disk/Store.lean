import FileGateway.Disk.Access
import FileGateway.Path.Normal

/-!
# The store on the local disk

A path is resolved to its normal form, and its directory has to be there; so a directory that is not
mounted shows when a path is resolved, like an unreachable host. The other calls go to the file
system as they are.
-/

namespace FileGateway.DiskStore

variable {m : Type → Type} [Monad m] [FileAccess m]

/-- A system error met while something was done with a path. -/
def failureOf (doing : String) (path : Path) (e : SystemError) : Failure :=
  e.failure.within (doing ++ " " ++ Text.quote path.text)

/-- The file that a path stands for. -/
def resolve (path : Path) : m (Result FileRef) := do
  if !path.isAbsolute then
    return .error (.plain ("local path " ++ Text.quote path.text ++ " must be absolute"))
  match path.normal with
  | .error fault => return .error (.plain fault.message)
  | .ok place =>
    match place.parent? with
    | none =>
      return .error (.plain ("path " ++ Text.quote place.text ++ " has no parent directory"))
    | some parent =>
      match ← FileAccess.isDirectory parent with
      | .error e => return .error (failureOf "failed reading metadata from" parent e)
      | .ok true => return .ok ⟨place⟩
      | .ok false => return .error (.plain (Text.quote parent.text ++ " is not a directory"))

/-- Whether there is anything at a file's place. -/
def probe (file : FileRef) : m (Result Bool) := do
  match ← FileAccess.isDirectory file.path with
  | .ok _ => return .ok true
  | .error .noEntry => return .ok false
  | .error e => return .error (failureOf "failed checking existence of" file.path e)

/-- Creates an empty file. -/
def createFile (file : FileRef) : m (Result Unit) := do
  match ← FileAccess.openWrite file.path false with
  | .ok _ => return .ok ()
  | .error e => return .error (failureOf "failed creating" file.path e)

/-- Creates an empty file unless there is one. -/
def createExclusive (file : FileRef) : m (Result Bool) := do
  match ← FileAccess.createNew file.path with
  | .ok () => return .ok true
  | .error .fileExists => return .ok false
  | .error e => return .error (failureOf "failed exclusively creating" file.path e)

/-- Removes a file, and tells whether there was one. -/
def delete (file : FileRef) : m (Result Bool) := do
  match ← FileAccess.remove file.path with
  | .ok () => return .ok true
  | .error .noEntry => return .ok false
  | .error e => return .error (failureOf "failed removing" file.path e)

/-- The failure of opening a file. -/
def openFailure (file : FileRef) (purpose : String) (e : SystemError) : Failure :=
  e.failure.within ("cannot open " ++ Text.quote file.path.text ++ " for " ++ purpose)

/-- The answer of the disk to a call. -/
def answer : (call : StoreCall) → m call.Answer
  | .resolve path _ => resolve path
  | .probe file => probe file
  | .createFile file => createFile file
  | .createExclusive file => createExclusive file
  | .delete file => delete file
  | .openRead file => return (← FileAccess.openRead file.path).mapError (openFailure file "reading")
  | .openWrite file append =>
    return (← FileAccess.openWrite file.path append).mapError (openFailure file "writing")
  | .read stream => return (← FileAccess.read stream).mapError SystemError.failure
  | .write stream piece => return (← FileAccess.write stream piece).mapError SystemError.failure
  | .finish _ => return .ok ()
  | .close => return .ok ()

end FileGateway.DiskStore

import FileGateway.Disk.SystemError
import FileGateway.Store.Call

/-!
# Access to a file system

The calls to a file system that the gateway makes. All of them follow symbolic links, except that a
link at the very end of a path is something of its own for `createNew` and `remove`.
-/

namespace FileGateway

/-- A monad in which a file system can be called. It is an error to ask `isDirectory` of a path
that leads to nothing, and to create with `createNew` a file where there is anything already. A
file that is opened for writing is created if need be, and emptied unless it is appended to. The
empty piece is the end of a stream that is read. -/
class FileAccess (m : Type → Type) where
  isDirectory : Path → m (SystemResult Bool)
  createNew : Path → m (SystemResult Unit)
  remove : Path → m (SystemResult Unit)
  openRead : Path → m (SystemResult StreamId)
  openWrite : Path → (append : Bool) → m (SystemResult StreamId)
  read : StreamId → m (SystemResult Bytes)
  write : StreamId → Bytes → m (SystemResult Unit)

namespace FileAccess

/-- The most bytes that are moved at once. -/
def pieceSize : Nat := 8192

/-- Reads a stream to its end, in at most `fuel` pieces. -/
def readToEnd {m : Type → Type} [Monad m] [FileAccess m] (stream : StreamId) :
    Nat → m (SystemResult Bytes)
  | 0 => return .ok []
  | fuel + 1 => do
    match ← read stream with
    | .error e => return .error e
    | .ok [] => return .ok []
    | .ok piece =>
      match ← readToEnd stream fuel with
      | .error e => return .error e
      | .ok rest => return .ok (piece ++ rest)

/-- The whole content of a file. -/
def readFile {m : Type → Type} [Monad m] [FileAccess m] (path : Path) (fuel : Nat) :
    m (SystemResult Bytes) := do
  match ← openRead path with
  | .error e => return .error e
  | .ok stream => readToEnd stream fuel

end FileAccess

end FileGateway

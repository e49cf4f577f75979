import FileGateway.Failure
import FileGateway.Options
import FileGateway.Path.Basic
import FileGateway.Text.Quoted

/-!
# Backing stores

A backing store holds the files of one backend. The gateway reaches it by calls alone: each call is
a value, and so is its answer, so that what a store does in between is the store's own affair. Two
stores of one identity reach the same files.
-/

namespace FileGateway

/-- The contents of a file. -/
abbrev Bytes := List UInt8

/-- A store as the gateway knows it: by a number, by the way it describes itself, for instance
`sftp://user@host:22`, and by whether it can create a file only if there is none. -/
structure Backend where
  id : Nat
  identity : String
  exclusiveCreate : Bool
deriving DecidableEq, Repr, Inhabited

/-- A path that a store has resolved and can work on. -/
structure FileRef where
  path : Path
deriving DecidableEq, Repr, Inhabited

/-- The number of an open stream of a store. -/
abbrev StreamId := Nat

/-- A call to a backing store.

Both `probe` and `delete` tell whether there was anything at the file's place. An empty file is
created in place of the old one if there is one; `createExclusive` does so only if there is none,
and tells whether it did. A file that is opened for writing is created if need be, and emptied
unless it is appended to. The empty piece is the end of a stream that is read; what was written to
a stream is there once it was finished. -/
inductive StoreCall where
  | resolve (path : Path) (options : Options)
  | probe (file : FileRef)
  | createFile (file : FileRef)
  | createExclusive (file : FileRef)
  | delete (file : FileRef)
  | openRead (file : FileRef)
  | openWrite (file : FileRef) (append : Bool)
  | read (stream : StreamId)
  | write (stream : StreamId) (piece : Bytes)
  | finish (stream : StreamId)
  | close
deriving DecidableEq

/-- What a call answers if it does not fail. -/
@[reducible] def StoreCall.Value : StoreCall → Type
  | resolve _ _ => FileRef
  | probe _ => Bool
  | createFile _ => Unit
  | createExclusive _ => Bool
  | delete _ => Bool
  | openRead _ => StreamId
  | openWrite _ _ => StreamId
  | read _ => Bytes
  | write _ _ => Unit
  | finish _ => Unit
  | close => Unit

/-- The answer to a call. -/
abbrev StoreCall.Answer (call : StoreCall) : Type :=
  Result call.Value

/-- The failure of a store that was asked to create a file exclusively and cannot. -/
def Backend.noExclusiveCreate (backend : Backend) (file : FileRef) : Failure :=
  .plain (backend.identity ++ " does not support exclusive create of " ++ Text.quote file.path.text)

end FileGateway

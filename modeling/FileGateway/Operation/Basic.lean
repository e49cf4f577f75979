import FileGateway.Deployment
import FileGateway.Operation.Read
import FileGateway.Operation.Resolve
import FileGateway.Operation.Write

/-!
# File operations

An operation checks a connection out, resolves its path, does its work on the file, and hands the
connection back whatever came of it.
-/

namespace FileGateway

/-- What is done with a file. A probe tells whether there is one. -/
inductive Action where
  | probe
  | read
  | write (mode : WriteMode)
  | delete
deriving DecidableEq

/-- What an operation ends with if it does not fail. A read or a write has copied so many bytes. -/
inductive Effect where
  | present (found : Bool)
  | deleted (found : Bool)
  | copied (count : Nat)
deriving DecidableEq

namespace Operation

/-- Where an operation waits: for the path to be resolved, and then for the store to look for the
file or to remove it, or where its read or its write waits. -/
inductive Place where
  | resolving (action : Action) (resolve : Resolve)
  | probing (backend : Backend) (file : FileRef)
  | deleting (backend : Backend) (file : FileRef)
  | reading (backend : Backend) (file : FileRef) (place : Read.Place)
  | writing (target : Write.Target) (place : Write.Place)

/-- A result of a call on a file as the result of an operation. -/
def onFile {α : Type} (file : FileRef) (effect : α → Effect) : Result α → Except Error Effect
  | .ok a => .ok (effect a)
  | .error f => .error (.filesystem file.path f)

/-- A step of a write as a step of its operation. -/
def writeStep (t : Write.Target) :
    Step Write.Place (Except Error Nat) → Step Place (Except Error Effect) :=
  Step.map (.writing t) (Except.map .copied)

/-- The path is resolved; the action begins. -/
def resolved (action : Action) (id : HandleId) (file : FileRef) :
    Move Place (Except Error Effect) := fun s =>
  match s.handle? id with
  | none => (.done (.error (.invalidConfig "no such handle")), s)
  | some h =>
    match action with
    | .probe => (.paused (.probing h.backend file), s)
    | .delete => (.paused (.deleting h.backend file), s)
    | .read => (.paused (.reading h.backend file .opening), s)
    | .write mode =>
      let t : Write.Target := ⟨h.backend, file, mode.append⟩
      let (step, s) := Write.start t h.options (mode.lock.getD h.lock) s
      (writeStep t step, s)

/-- A step of the resolve as a step of the operation. -/
def resolveStep (action : Action) (id : HandleId) :
    Step Resolve (Except Error FileRef) → Move Place (Except Error Effect)
  | .paused resolve => fun s => (.paused (.resolving action resolve), s)
  | .done (.ok file) => resolved action id file
  | .done (.error e) => fun s => (.done (.error e), s)

/-- Starts an operation on a handle. -/
def start (action : Action) (id : HandleId) (path : Path) : Move Place (Except Error Effect) :=
  fun s =>
    let (step, s) := Resolve.start id path s
    resolveStep action id step s

/-- What an operation on a handle waits for at a place, and how it goes on. -/
def next (id : HandleId) (writer : Diagnostics) :
    Place → Pending (Move Place (Except Error Effect))
  | .resolving action resolve =>
    resolve.next.map fun move s =>
      let (step, s) := move s
      resolveStep action id step s
  | .probing backend file =>
    ⟨.store backend (.probe file), fun answer s => (.done (onFile file .present answer), s)⟩
  | .deleting backend file =>
    ⟨.store backend (.delete file), fun answer s => (.done (onFile file .deleted answer), s)⟩
  | .reading backend file place =>
    (Read.next backend file place).map fun step s =>
      (step.map (.reading backend file) (onFile file .copied), s)
  | .writing t place =>
    (Write.next t writer place).map fun move s =>
      let (step, s) := move s
      (writeStep t step, s)

end Operation

end FileGateway

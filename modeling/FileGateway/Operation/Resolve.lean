import FileGateway.Gateway.Shared

/-!
# Resolving a path

Every operation on a file starts by resolving its path, and this is where the health of a connection
is kept: a suspended connection does not call its store at all, and every other resolve records one
success or one failure when it is answered.
-/

namespace FileGateway

/-- A resolve that the store has been asked for, with the name and the store of the handle. It is
asked where `path` leads on the backend. -/
structure Resolve where
  handle : HandleId
  connection : String
  backend : Backend
  path : Path
  options : Options
deriving DecidableEq

namespace Resolve

/-- Starts to resolve a path on a handle. -/
def start (id : HandleId) (path : Path) : Move Resolve (Except Error FileRef) := fun s =>
  match s.handle? id with
  | none => (.done (.error (.invalidConfig "no such handle")), s)
  | some h =>
    match h.policy.attempt s.now with
    | .error left => (.done (.error (.connectionSuspended h.key.name (.clamp left))), s)
    | .ok () => (.paused ⟨id, h.key.name, h.backend, h.place path, h.options⟩, s)

/-- The store has resolved the path. -/
def succeed (r : Resolve) (file : FileRef) : Move Resolve (Except Error FileRef) := fun s =>
  (.done (.ok file),
    s.modifyHandle r.handle fun h => { h with policy := h.policy.succeed.2 })

/-- The store has failed to resolve the path. -/
def fail (r : Resolve) (failure : Failure) : Move Resolve (Except Error FileRef) := fun s =>
  let context := "failed resolving " ++ Text.quote r.path.text ++ " on " ++ r.backend.identity
  (.done (.error (.connectionFailed r.connection (failure.within context))),
    s.modifyHandle r.handle fun h => { h with policy := (h.policy.fail s.now).2 })

/-- What a resolve waits for, and how it goes on. -/
def next (r : Resolve) : Pending (Move Resolve (Except Error FileRef)) :=
  ⟨.store r.backend (.resolve r.path r.options), fun
    | .ok file => r.succeed file
    | .error f => r.fail f⟩

end Resolve

end FileGateway

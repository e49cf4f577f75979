import FileGateway.Handle

/-!
# The registry of live connections

At most one handle is registered for each key, and all operations on a key share it. The first
handle that is registered for a key stays until the key's namespace is shut down; a handle that
comes too late, or was built for another key, is to be closed by whoever runs the registry.
-/

namespace FileGateway

/-- The number of a handle, in the order in which handles were built. -/
abbrev HandleId := Nat

/-- The live connections, and every handle that was ever built for them: its number is its place in
the list `built`. The `table` leads from each key to the handle that is registered for it. -/
structure Registry where
  built : List Handle
  table : List (ConnectionKey × HandleId)
deriving DecidableEq

namespace Registry

/-- No connections. -/
def empty : Registry := ⟨[], []⟩

instance : Inhabited Registry := ⟨empty⟩

/-- The registered handle of a key. -/
def lookup? (r : Registry) (key : ConnectionKey) : Option HandleId :=
  r.table.lookup key

/-- The registered handle of a key, or the error that there is none. -/
def get (r : Registry) (key : ConnectionKey) : Except Error HandleId :=
  match r.lookup? key with
  | some id => .ok id
  | none => .error (.connectionNotFound key)

/-- Whether a key has a registered handle. -/
def contains (r : Registry) (key : ConnectionKey) : Bool :=
  (r.lookup? key).isSome

/-- A handle by its number. -/
def handle? (r : Registry) (id : HandleId) : Option Handle :=
  r.built[id]?

/-- Changes a handle. -/
def modify (r : Registry) (id : HandleId) (change : Handle → Handle) : Registry :=
  { r with built := r.built.modify id change }

/-- Numbers a new handle. -/
def build (r : Registry) (h : Handle) : HandleId × Registry :=
  (r.built.length, { r with built := r.built ++ [h] })

/-- Registers a handle under its key. -/
def enter (r : Registry) (key : ConnectionKey) (id : HandleId) : Registry :=
  { r with table := r.table ++ [(key, id)] }

/-- What came of the wish to have a handle: the handle that is now registered for the key, and one
that was built in vain and has to be closed. -/
structure Creation where
  registry : Registry
  handle : Except Error HandleId
  discarded : Option HandleId := none

/-- Registers a new handle under its key, unless the key has one already: then that one is kept, and
the new one is to be closed. -/
def add (r : Registry) (h : Handle) : Creation :=
  let (id, built) := r.build h
  match r.lookup? h.key with
  | some registered => { registry := built, handle := .ok registered, discarded := some id }
  | none => { registry := built.enter h.key id, handle := .ok id }

/-- The handle of a key, made and registered if there is none. A handle made for another key is
refused and is to be closed. -/
def provide (r : Registry) (key : ConnectionKey) (make : Unit → Except Error Handle) :
    Creation :=
  match r.lookup? key with
  | some registered => { registry := r, handle := .ok registered }
  | none =>
    match make () with
    | .error e => { registry := r, handle := .error e }
    | .ok h =>
      let (id, built) := r.build h
      if h.key = key then { registry := built.enter key id, handle := .ok id }
      else
        { registry := built
          handle := .error (.invalidConfig
            ("connection built for " ++ h.key.text ++ " was requested as " ++ key.text))
          discarded := some id }

/-- Whether the registered handle of a key has options that are to be put back. -/
def isModified (r : Registry) (key : ConnectionKey) : Bool :=
  match (r.lookup? key).bind r.handle? with
  | some h => h.modified
  | none => false

/-- An operation is done with a handle, registered or not: its options are put back. -/
def giveBack (r : Registry) (id : HandleId) : Registry :=
  r.modify id fun h => h.reset.2

/-- The registered keys of a namespace, in ascending order. -/
def keys (r : Registry) (space : String) : List ConnectionKey :=
  ConnectionKey.sort ((r.table.map Prod.fst).filter fun key => key.space == space)

/-- How many handles are registered. -/
def size (r : Registry) : Nat :=
  r.table.length

/-- Takes the handles of a namespace out. They are to be closed. -/
def evict (r : Registry) (space : String) : List HandleId × Registry :=
  let (gone, kept) := r.table.partition fun entry => entry.1.space == space
  (gone.map Prod.snd, { r with table := kept })

end Registry

end FileGateway

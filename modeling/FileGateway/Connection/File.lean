import FileGateway.Connection.Decode
import FileGateway.Connection.Encode

/-!
# Connections files

A connections file lists the connections of a deployment. It is accepted if every connection is in
order and no two have one key; otherwise the first connection that is at fault is reported, for
itself before it is for repeating a key.
-/

namespace FileGateway

/-- The connections of a deployment. -/
structure ConnectionsFile where
  connections : List ConnectionConfig
deriving DecidableEq

/-- Why a connections file is refused: its text is not the JSON of one, or a connection is at
fault, or a key is given twice. -/
inductive FileFault where
  | unreadable (fault : Json.Fault)
  | connection (fault : ConfigFault)
  | duplicate (key : ConnectionKey)

/-- The fault in words, without its cause. -/
def FileFault.message : FileFault → String
  | unreadable _ => "failed parsing connections file"
  | connection fault => fault.message
  | duplicate key => "duplicate connection " ++ key.text

namespace ConnectionsFile

/-- A connections file that is being read. -/
structure Draft where
  connections : Option (List ConnectionConfig) := none

/-- The form of a connections file. -/
def form : Json.RecordForm Draft where
  title := "ConnectionsFile"
  fields := ["connections"]
  optional := []
  strict := true
  put _ _ value := do return { connections := some (← value.list ConnectionConfig.ofTree) }

/-- Decodes a connections file. -/
def ofTree (tree : Json.Tree) : Json.Decoded ConnectionsFile := do
  let draft ← form.draft {} tree
  return { connections := ← Json.need "connections" draft.connections }

/-- Encodes a connections file, without passwords. -/
def toJson (f : ConnectionsFile) : Json.Value :=
  .object [("connections", .array (f.connections.map ConnectionConfig.toJson))]

/-- The first fault in a list of connections, given the keys of those before it. -/
def firstFault? (seen : List ConnectionKey) : List ConnectionConfig → Option FileFault
  | [] => none
  | c :: rest =>
    match c.fault? with
    | some fault => some (.connection fault)
    | none =>
      if seen.contains c.key then some (.duplicate c.key) else firstFault? (c.key :: seen) rest

/-- Reads a connections file. -/
def parse (text : String) : Except FileFault ConnectionsFile :=
  match Json.decode ofTree text with
  | .error fault => .error (.unreadable fault)
  | .ok file =>
    match firstFault? [] file.connections with
    | some fault => .error fault
    | none => .ok file

/-- The connection of a namespace and a name. -/
def find? (f : ConnectionsFile) (key : ConnectionKey) : Option ConnectionConfig :=
  f.connections.find? fun c => c.space == key.space && c.name == key.name

end ConnectionsFile

end FileGateway

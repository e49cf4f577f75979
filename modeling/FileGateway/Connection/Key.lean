import FileGateway.Json.Decode
import FileGateway.Json.Printer

/-!
# Connection keys

A connection is known by the namespace it was deployed under and its name in that namespace.
-/

namespace FileGateway

/-- Identifies a connection: the namespace it was deployed under and its name there. -/
structure ConnectionKey where
  space : String
  name : String
deriving DecidableEq, Repr, Inhabited

namespace ConnectionKey

/-- The key as messages show it. -/
def text (key : ConnectionKey) : String :=
  key.space ++ "/" ++ key.name

/-- Keys are ordered by namespace and then by name. -/
def ble (a b : ConnectionKey) : Bool :=
  a.space < b.space || (a.space == b.space && a.name ≤ b.name)

/-- Keys in ascending order. -/
def sort (keys : List ConnectionKey) : List ConnectionKey :=
  keys.mergeSort ble

/-- A key that is being read. -/
structure Draft where
  space : Option String := none
  name : Option String := none

/-- The form of a key in JSON. Fields of other names are passed over. -/
def form : Json.RecordForm Draft where
  title := "ConnectionKey"
  fields := ["namespace", "name"]
  optional := []
  strict := false
  put draft field value := do
    let text ← value.text "a string"
    return if field = "namespace" then { draft with space := some text }
      else { draft with name := some text }

/-- Decodes a key. -/
def ofTree (tree : Json.Tree) : Json.Decoded ConnectionKey := do
  let draft ← form.draft {} tree
  return { space := ← Json.need "namespace" draft.space, name := ← Json.need "name" draft.name }

/-- Encodes a key. -/
def toJson (key : ConnectionKey) : Json.Value :=
  .object [("namespace", .string key.space), ("name", .string key.name)]

end ConnectionKey

end FileGateway

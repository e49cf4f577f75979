import FileGateway.Operation.Basic

/-!
# Reports

The result of one operation as it is handed back to whoever asked for it, in one JSON object.
Expected conditions and failures alike end up in it as an outcome; a success shows what the
operation found or moved.
-/

namespace FileGateway

/-- The name of an operation. -/
def Action.name : Action → String
  | probe => "exists"
  | read => "read"
  | write _ => "write"
  | delete => "delete"

/-- The result of one operation on one path of one connection, with what was read if the report is
to show it. -/
structure Report where
  operation : String
  connection : ConnectionKey
  path : Path
  result : Except Outcome Effect
  content : Option String := none

namespace Report

/-- The report of an operation that has ended. -/
def ofResult (action : Action) (key : ConnectionKey) (path : Path)
    (result : Except Error Effect) : Report where
  operation := action.name
  connection := key
  path := path
  result := result.mapError Outcome.ofError

/-- Whether the operation succeeded. -/
def isOk (r : Report) : Bool :=
  r.result.isOk

/-- What a success shows. -/
def effectMember : Effect → String × Json.Value
  | .present found => ("exists", .bool found)
  | .deleted found => ("deleted", .bool found)
  | .copied count => ("bytes", .number count)

/-- What the result of an operation shows. -/
def resultMembers (r : Report) : List (String × Json.Value) :=
  match r.result with
  | .ok effect =>
    effectMember effect :: (r.content.map fun text => ("content", .string text)).toList
  | .error outcome => [("error", outcome.toJson)]

/-- Encodes a report. -/
def toJson (r : Report) : Json.Value :=
  .object
    ([("ok", .bool r.isOk), ("operation", .string r.operation),
      ("connection", .string r.connection.text), ("path", .string r.path.text)]
      ++ r.resultMembers)

end Report

end FileGateway

/-!
# Paths

A path is a text in which slashes separate names. It is kept as it was written; its components are
what counts when it is followed. Repeated slashes, a slash at the end and single dots do not show in
the components, except that a relative path may start with a dot.
-/

namespace FileGateway

/-- A path as it was written. -/
structure Path where
  text : String
deriving DecidableEq, Repr, Inhabited

/-- A component of a path. The `root` is the slash that an absolute path starts with, and `current`
the dot that a relative path may start with. -/
inductive Component where
  | root
  | current
  | parent
  | normal (name : String)
deriving DecidableEq, Repr

/-- The pieces between the slashes of a text. -/
def slashPieces : List Char → List (List Char)
  | [] => [[]]
  | c :: rest =>
    if c = '/' then [] :: slashPieces rest
    else
      match slashPieces rest with
      | [] => [[c]]
      | piece :: pieces => (c :: piece) :: pieces

/-- Puts slashes between pieces. -/
def joinPieces : List (List Char) → List Char
  | [] => []
  | [piece] => piece
  | piece :: pieces => piece ++ '/' :: joinPieces pieces

/-- A piece that is no component: it is empty or a single dot. -/
def isIdlePiece (piece : List Char) : Bool :=
  piece == [] || piece == ['.']

namespace Path

/-- The characters of a path. -/
def chars (p : Path) : List Char :=
  p.text.toList

/-- Whether a path starts at the root. -/
def isAbsolute (p : Path) : Bool :=
  p.chars.head? == some '/'

/-- The component that stands in front of the pieces of a path, if there is one. -/
inductive Lead where
  | root
  | current
  | none
deriving DecidableEq, Repr

/-- Splits a path into what leads it and the text behind that. -/
def split (p : Path) : Lead × List Char :=
  match p.chars with
  | '/' :: rest => (.root, rest)
  | ['.'] => (.current, [])
  | '.' :: '/' :: rest => (.current, '/' :: rest)
  | chars => (.none, chars)

/-- The text of a lead. -/
def Lead.chars : Lead → List Char
  | root => ['/']
  | current => ['.']
  | none => []

/-- The component that a lead is. -/
def Lead.components : Lead → List Component
  | root => [.root]
  | current => [.current]
  | none => []

/-- The component that a piece is, if it is one. -/
def componentOf? (piece : List Char) : Option Component :=
  if isIdlePiece piece then none
  else if piece = ['.', '.'] then some .parent
  else some (.normal (String.ofList piece))

/-- The components of a path. -/
def components (p : Path) : List Component :=
  p.split.1.components ++ (slashPieces p.split.2).filterMap componentOf?

/-- The last component of a path, if it is a name. -/
def fileName? (p : Path) : Option String :=
  match p.components.getLast? with
  | some (.normal name) => some name
  | _ => none

/-- Drops the pieces at the end that are no components. -/
def dropIdle (pieces : List (List Char)) : List (List Char) :=
  (pieces.reverse.dropWhile isIdlePiece).reverse

/-- The path without its last component. The root and the empty path have none to take off. -/
def parent? (p : Path) : Option Path :=
  let (lead, body) := p.split
  match dropIdle (slashPieces body) with
  | [] => if lead = .current then some ⟨""⟩ else none
  | pieces =>
    some ⟨String.ofList (lead.chars ++ joinPieces (dropIdle pieces.dropLast))⟩

/-- Hangs a path under another one. An absolute path stays as it is. -/
def join (base p : Path) : Path :=
  if p.isAbsolute then p
  else if base.chars.isEmpty || base.chars.getLast? == some '/' then ⟨base.text ++ p.text⟩
  else ⟨base.text ++ "/" ++ p.text⟩

/-- The path with its last name replaced; a path that does not end in a name gets one more. -/
def withFileName (p : Path) (name : String) : Path :=
  if p.fileName?.isSome then (p.parent?.getD ⟨""⟩).join ⟨name⟩ else p.join ⟨name⟩

end Path

end FileGateway

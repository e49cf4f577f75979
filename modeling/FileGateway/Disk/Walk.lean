import FileGateway.Disk.SystemError
import FileGateway.Disk.Tree

/-!
# Walking a tree

A path is walked name by name. All but the last name have to be directories or links to directories.
A link is a detour: its target is walked first, from the directory the link is in. Two dots lead to
the directory above the one that was reached, not to the text before them.

A walk ends at a spot, which may be vacant; whether it is an error that nothing is there is for the
call to say.
-/

namespace FileGateway

/-- The most bytes of a name. -/
def maxNameSize : Nat := 255

/-- A path has fewer bytes than this. -/
def maxPathSize : Nat := 4096

/-- The most links that a walk follows. -/
def maxLinks : Nat := 40

/-- What is left of a walk: the directory it has reached, the pieces that are left, without empty
ones, and whether a slash behind the last of them asks for a directory. -/
structure Way where
  here : Place
  pieces : List String
  slashed : Bool
deriving DecidableEq, Repr

/-- Where a walk has ended, what is there, and whether the path asks for a directory there. If
there is nothing, the place is in a directory all the same. -/
structure Spot where
  place : Place
  node : Option Node
  slashed : Bool
deriving DecidableEq, Repr

/-- What is done about the last name of a path: a link there is followed or not. Where something is
to be created, it is followed, and the name must not ask for a directory. -/
inductive LastName where
  | follow
  | stay
  | create
deriving DecidableEq, Repr

namespace Way

/-- The way of a path from a directory. -/
def ofPath (here : Place) (p : Path) : Way where
  here := if p.isAbsolute then [] else here
  pieces := ((slashPieces p.chars).filter fun piece => !piece.isEmpty).map String.ofList
  slashed := p.chars.getLast? == some '/'

/-- A detour over a link that was met in a directory, before further pieces. -/
def detour (here : Place) (target : Path) (rest : List String) (slashed : Bool) : Way :=
  let way := ofPath here target
  if rest.isEmpty then { way with slashed := way.slashed || slashed }
  else { way with pieces := way.pieces ++ rest, slashed := slashed }

end Way

namespace FileTree

/-- Looks a name up in a directory. -/
def entry? (t : FileTree) (here : Place) (name : String) : SystemResult (Option Node) :=
  if name.utf8ByteSize > maxNameSize then .error .nameTooLong
  else .ok (t.node? (here ++ [name]))

/-- Ends a walk at the last name, or follows the link that is there. -/
def atLast (t : FileTree) (last : LastName) (here : Place) (name : String) (slashed : Bool) :
    SystemResult (Spot ⊕ Way) :=
  if last = .create && slashed then .error .isDirectory
  else do
    match ← t.entry? here name with
    | some (.link target) =>
      if last = .stay then return .inl ⟨here ++ [name], some (.link target), slashed⟩
      else return .inr (.detour here target [] slashed)
    | node => return .inl ⟨here ++ [name], node, slashed⟩

/-- Walks to the next link, or to the end. -/
def stage (t : FileTree) (last : LastName) (here : Place) (slashed : Bool) :
    List String → SystemResult (Spot ⊕ Way)
  | [] => .ok (.inl ⟨here, some .directory, slashed⟩)
  | "." :: rest => stage t last here slashed rest
  | ".." :: rest => stage t last here.dropLast slashed rest
  | [name] => t.atLast last here name slashed
  | name :: rest => do
    match ← t.entry? here name with
    | none => .error .noEntry
    | some .directory => stage t last (here ++ [name]) slashed rest
    | some (.link target) => .ok (.inr (.detour here target rest slashed))
    | some _ => .error .notDirectory

/-- Walks in at most so many stages. -/
def walkWay (t : FileTree) (last : LastName) : Nat → Way → SystemResult Spot
  | 0, _ => .error .tooManyLinks
  | stages + 1, way => do
    match ← t.stage last way.here way.slashed way.pieces with
    | .inl spot => return spot
    | .inr way => walkWay t last stages way

/-- Walks a path from a directory. -/
def walk (t : FileTree) (last : LastName) (here : Place) (p : Path) : SystemResult Spot :=
  if p.chars.contains '\x00' then .error .nullInPath
  else if p.chars.isEmpty then .error .noEntry
  else if p.text.utf8ByteSize ≥ maxPathSize then .error .nameTooLong
  else t.walkWay last (maxLinks + 1) (.ofPath here p)

end FileTree

end FileGateway

import FileGateway.Path.Basic
import FileGateway.Text.Quoted

/-!
# Normal paths

The normal form of a path names the same place without dots, repeated slashes and a slash at the
end. It is found on the text alone: the components are entered one after the other, and two dots
leave the last name that was entered.
-/

namespace FileGateway

/-- Why a path has no normal form: it has two dots with no name before them to leave, or all its
names were left again. -/
inductive PathFault where
  | escapesRoot (path : Path)
  | namesNoFile (path : Path)
deriving DecidableEq, Repr

/-- The fault in words. -/
def PathFault.message : PathFault → String
  | escapesRoot path => "path " ++ Text.quote path.text ++ " escapes the filesystem root"
  | namesNoFile path => "path " ++ Text.quote path.text ++ " does not name a file"

namespace Path

/-- Follows one component from a place. -/
def follow? (place : Path) : Component → Option Path
  | .root => some (place.join ⟨"/"⟩)
  | .current => some place
  | .parent => place.parent?
  | .normal name => some (place.join ⟨name⟩)

/-- The normal form of a path that names a file. -/
def normal (p : Path) : Except PathFault Path :=
  match p.components.foldlM follow? ⟨""⟩ with
  | none => .error (.escapesRoot p)
  | some place => if place.fileName?.isNone then .error (.namesNoFile p) else .ok place

end Path

end FileGateway

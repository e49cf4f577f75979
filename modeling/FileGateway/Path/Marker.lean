import FileGateway.Path.Basic

/-!
# Marker paths

A writer announces itself to other writers by a marker file that stands beside its target.
-/

namespace FileGateway.Path

/-- The path of the marker of a target: the target's name with `.lock` behind it, in the same
directory. A path that does not end in a name has no marker. -/
def marker? (target : Path) : Option Path :=
  target.fileName?.map fun name => target.withFileName (name ++ ".lock")

end FileGateway.Path

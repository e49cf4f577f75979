import FileGateway.Store.Call

/-!
# File trees

A tree of directories, files, symbolic links and devices as one map from places to what is there.
The root is a directory and is not in the map.
-/

namespace FileGateway

/-- A place in a tree: the names that lead to it from the root. -/
abbrev Place := List String

/-- A device: the null device has nothing in it and takes everything, the full one has no end and
takes nothing. -/
inductive Device where
  | null
  | full
deriving DecidableEq, Repr

/-- What is at a place. A symbolic link leads to a path. -/
inductive Node where
  | file (content : Bytes)
  | directory
  | link (target : Path)
  | device (device : Device)
deriving DecidableEq, Repr

/-- A file tree, as the list of what is at each place. -/
structure FileTree where
  entries : List (Place × Node)
deriving DecidableEq

namespace FileTree

/-- The tree with nothing in it. -/
def empty : FileTree := ⟨[]⟩

/-- What is at a place. -/
def node? (t : FileTree) : Place → Option Node
  | [] => some .directory
  | place => t.entries.lookup place

/-- Takes away what is at a place. -/
def erase (t : FileTree) (place : Place) : FileTree :=
  ⟨t.entries.filter fun entry => entry.1 ≠ place⟩

/-- Puts something at a place. -/
def put (t : FileTree) (place : Place) (node : Node) : FileTree :=
  ⟨(place, node) :: (t.erase place).entries⟩

/-- Takes away what is at a place and below it. -/
def prune (t : FileTree) (place : Place) : FileTree :=
  ⟨t.entries.filter fun entry => !place.isPrefixOf entry.1⟩

/-- Puts directories where they are missing on the way to a place, and at the place itself. -/
def makeDirectories (t : FileTree) (place : Place) : FileTree :=
  (List.range place.length).foldl
    (fun t i =>
      let here := place.take (i + 1)
      if (t.node? here).isSome then t else t.put here .directory)
    t

/-- What is below a place, with the names that lead there from it. -/
def below (t : FileTree) (place : Place) : List (Place × Node) :=
  t.entries.filterMap fun entry =>
    if place.isPrefixOf entry.1 && entry.1 ≠ place then some (entry.1.drop place.length, entry.2)
    else none

end FileTree

end FileGateway

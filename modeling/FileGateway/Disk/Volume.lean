import FileGateway.Disk.Access
import FileGateway.Disk.Walk

/-!
# Volumes

A volume is a file tree in use: the directory that relative paths start from, and the streams that
are open. It is a file system of its own, so everything that runs on the disk of a machine also runs
on a volume, where it is a plain function.
-/

namespace FileGateway

/-- An open stream. The next read or write takes place at the `offset`, but with `append` all
writes go to the end. -/
structure OpenFile where
  place : Place
  offset : Nat
  append : Bool
deriving DecidableEq

/-- A file tree in use. Relative paths start from the directory `here`. Of the streams every one
that was ever opened is listed, and its number is its place in the list. -/
structure Volume where
  tree : FileTree
  here : Place
  streams : List OpenFile
deriving DecidableEq

/-- Puts a piece into a content from an offset on. A gap before it is filled with zeros. -/
def splice (content piece : Bytes) (offset : Nat) : Bytes :=
  content.take offset ++ List.replicate (offset - content.length) 0 ++ piece
    ++ content.drop (offset + piece.length)

namespace Volume

/-- A volume on which nothing was opened. -/
def ofTree (tree : FileTree) (here : Place) : Volume :=
  ⟨tree, here, []⟩

/-- Walks a path. -/
def walk (v : Volume) (last : LastName) (p : Path) : SystemResult Spot :=
  v.tree.walk last v.here p

/-- Opens a stream at a place. -/
def addStream (v : Volume) (place : Place) (append : Bool) : StreamId × Volume :=
  (v.streams.length, { v with streams := v.streams ++ [⟨place, 0, append⟩] })

/-- Whether a path leads to a directory. -/
def isDirectory (v : Volume) (p : Path) : SystemResult Bool := do
  let spot ← v.walk .follow p
  match spot.node with
  | none => .error .noEntry
  | some .directory => .ok true
  | some _ => if spot.slashed then .error .notDirectory else .ok false

/-- Creates an empty file where nothing is. -/
def createNew (v : Volume) (p : Path) : SystemResult Volume := do
  let spot ← v.walk .stay p
  match spot.node with
  | some _ => .error .fileExists
  | none =>
    if spot.slashed then .error .isDirectory
    else .ok { v with tree := v.tree.put spot.place (.file []) }

/-- Removes a file, a link or a device. -/
def remove (v : Volume) (p : Path) : SystemResult Volume := do
  let spot ← v.walk .stay p
  match spot.node with
  | none => .error .noEntry
  | some .directory => .error .isDirectory
  | some _ =>
    if spot.slashed then .error .notDirectory
    else .ok { v with tree := v.tree.erase spot.place }

/-- Opens a file for reading. A directory can be opened, but not read. -/
def openRead (v : Volume) (p : Path) : SystemResult (StreamId × Volume) := do
  let spot ← v.walk .follow p
  match spot.node with
  | none => .error .noEntry
  | some .directory => .ok (v.addStream spot.place false)
  | some _ =>
    if spot.slashed then .error .notDirectory else .ok (v.addStream spot.place false)

/-- Opens a file for writing. -/
def openWrite (v : Volume) (p : Path) (append : Bool) : SystemResult (StreamId × Volume) := do
  let spot ← v.walk .create p
  match spot.node with
  | none => .ok ({ v with tree := v.tree.put spot.place (.file []) }.addStream spot.place append)
  | some (.file content) =>
    let content := if append then content else []
    .ok ({ v with tree := v.tree.put spot.place (.file content) }.addStream spot.place append)
  | some (.device _) => .ok (v.addStream spot.place append)
  | some _ => .error .isDirectory

/-- Reads a piece of a stream. -/
def read (v : Volume) (id : StreamId) : SystemResult (Bytes × Volume) :=
  match v.streams[id]? with
  | none => .ok ([], v)
  | some stream =>
    match v.tree.node? stream.place with
    | some (.file content) =>
      let piece := (content.drop stream.offset).take FileAccess.pieceSize
      .ok (piece,
        { v with
          streams := v.streams.set id { stream with offset := stream.offset + piece.length } })
    | some .directory => .error .isDirectory
    | some (.device .full) => .ok (List.replicate FileAccess.pieceSize 0, v)
    | _ => .ok ([], v)

/-- Writes a piece to a stream. -/
def write (v : Volume) (id : StreamId) (piece : Bytes) : SystemResult Volume :=
  match v.streams[id]? with
  | none => .ok v
  | some stream =>
    match v.tree.node? stream.place with
    | some (.file content) =>
      let offset := if stream.append then content.length else stream.offset
      .ok
        { v with
          tree := v.tree.put stream.place (.file (splice content piece offset))
          streams := v.streams.set id { stream with offset := offset + piece.length } }
    | some (.device .full) => if piece.isEmpty then .ok v else .error .noSpace
    | _ => .ok v

/-- A call that changes a volume and answers, as a step of a state monad. A call that is refused
changes nothing. -/
def act {α : Type} (call : Volume → SystemResult (α × Volume)) : StateM Volume (SystemResult α) :=
  fun v =>
    match call v with
    | .ok (a, v) => (.ok a, v)
    | .error e => (.error e, v)

/-- A volume as a file system. -/
instance : FileAccess (StateM Volume) where
  isDirectory p := fun v => (v.isDirectory p, v)
  createNew p := act fun v => (v.createNew p).map ((), ·)
  remove p := act fun v => (v.remove p).map ((), ·)
  openRead p := act fun v => v.openRead p
  openWrite p append := act fun v => v.openWrite p append
  read id := act fun v => v.read id
  write id piece := act fun v => (v.write id piece).map ((), ·)

end Volume

end FileGateway

import FileGateway.Disk.Store
import FileGateway.Disk.Volume
import FileGateway.Gateway.Schedule
import FileGateway.Rehearsal.Script

/-!
# Stages

A stage is a world made up for a rehearsal: scripted stores that keep their files in memory or on a
volume, and for each task the source it reads from and the sink it writes to.
-/

namespace FileGateway

/-- The files of a store in memory, by the text of their paths. -/
abbrev Shelf := List (String × Bytes)

namespace Shelf

/-- Puts a file, in place of an earlier one. -/
def put (shelf : Shelf) (path : String) (content : Bytes) : Shelf :=
  (path, content) :: shelf.filter fun entry => entry.1 ≠ path

/-- Takes a file away. -/
def erase (shelf : Shelf) (path : String) : Shelf :=
  shelf.filter fun entry => entry.1 ≠ path

end Shelf

/-- Where a scripted store keeps its files: on the shelf of a number, or on the volume. -/
inductive Keeping where
  | memory (shelf : Nat)
  | disk
deriving DecidableEq

/-- A store that follows a script. It may create no files exclusively, whatever it says of itself.
The `trace` has the calls that were made, in their order. -/
structure StagedStore where
  backend : Backend
  keeping : Keeping
  refusesExclusive : Bool
  faults : List Fault
  delays : List (Method × Delay)
  trace : List String
deriving DecidableEq

/-- What a scripted stream reads from or writes to. -/
inductive Channel where
  | memorySource (rest : Bytes)
  | memoryTarget (shelf : Nat) (path : String)
  | disk (stream : StreamId)
deriving DecidableEq

/-- A stream of a scripted store, and why its next read, its next write and its completion fail. -/
structure ScriptedStream where
  channel : Channel
  readFault : Option String
  writeFault : Option String
  finishFault : Option String
deriving DecidableEq

/-- What a task reads from, and why the next read fails. -/
structure Source where
  rest : Bytes
  fault : Option String
deriving DecidableEq

/-- What a task writes to, and why the next write and the flush fail. -/
structure Sink where
  received : Bytes
  writeFault : Option String
  flushFault : Option String
deriving DecidableEq

/-- A world made up for a rehearsal. The backend of the first scripted store has the number 1;
number 0 is the disk. -/
structure Stage where
  stores : List StagedStore
  shelves : List Shelf
  volume : Volume
  streams : List ScriptedStream
  sources : List (TaskId × Source)
  sinks : List (TaskId × Sink)
deriving DecidableEq

namespace Stage

/-- A stage with a volume and nothing else. -/
def ofVolume (volume : Volume) : Stage :=
  ⟨[], [], volume, [], [], []⟩

/-- The scripted store that is behind a backend. -/
def store? (stage : Stage) (backend : Backend) : Option StagedStore :=
  if backend.id = 0 then none else stage.stores[backend.id - 1]?

/-- Changes the scripted store behind a backend. -/
def modifyStore (stage : Stage) (backend : Backend) (change : StagedStore → StagedStore) :
    Stage :=
  if backend.id = 0 then stage
  else { stage with stores := stage.stores.modify (backend.id - 1) change }

/-- The files on a shelf. -/
def shelf (stage : Stage) (number : Nat) : Shelf :=
  stage.shelves[number]?.getD []

/-- Changes a shelf. -/
def modifyShelf (stage : Stage) (number : Nat) (change : Shelf → Shelf) : Stage :=
  { stage with shelves := stage.shelves.modify number change }

/-- Asks the script of a store whether a call of a method is to fail. -/
def consult (stage : Stage) (backend : Backend) (method : Method) : Option String × Stage :=
  match stage.store? backend with
  | none => (none, stage)
  | some store =>
    let (message, faults) := FileGateway.consult method store.faults
    (message, stage.modifyStore backend fun store => { store with faults := faults })

/-! ## Streams -/

/-- Opens a stream for reading. -/
def openSource (stage : Stage) (backend : Backend) (channel : Channel) : StreamId × Stage :=
  let (readFault, stage) := stage.consult backend .read
  (stage.streams.length,
    { stage with streams := stage.streams ++ [⟨channel, readFault, none, none⟩] })

/-- Opens a stream for writing. -/
def openTarget (stage : Stage) (backend : Backend) (channel : Channel) : StreamId × Stage :=
  let (writeFault, stage) := stage.consult backend .write
  let (finishFault, stage) := stage.consult backend .finish
  (stage.streams.length,
    { stage with streams := stage.streams ++ [⟨channel, none, writeFault, finishFault⟩] })

/-- Changes a stream. -/
def modifyStream (stage : Stage) (id : StreamId) (change : ScriptedStream → ScriptedStream) :
    Stage :=
  { stage with streams := stage.streams.modify id change }

/-- Hands a call on to the disk. -/
def onDisk (stage : Stage) (call : StoreCall) : call.Answer × Stage :=
  let (answer, volume) := (DiskStore.answer call : StateM Volume call.Answer) stage.volume
  (answer, { stage with volume := volume })

/-- Reads a piece of a stream. -/
def read (stage : Stage) (id : StreamId) : Result Bytes × Stage :=
  match stage.streams[id]? with
  | none => (.ok [], stage)
  | some stream =>
    match stream.readFault with
    | some message =>
      (.error (.plain message), stage.modifyStream id fun s => { s with readFault := none })
    | none =>
      match stream.channel with
      | .memorySource rest =>
        (.ok (rest.take FileAccess.pieceSize),
          stage.modifyStream id fun s =>
            { s with channel := .memorySource (rest.drop FileAccess.pieceSize) })
      | .memoryTarget _ _ => (.ok [], stage)
      | .disk inner => stage.onDisk (.read inner)

/-- Writes a piece to a stream. -/
def write (stage : Stage) (id : StreamId) (piece : Bytes) : Result Unit × Stage :=
  match stage.streams[id]? with
  | none => (.ok (), stage)
  | some stream =>
    match stream.writeFault with
    | some message =>
      (.error (.plain message), stage.modifyStream id fun s => { s with writeFault := none })
    | none =>
      match stream.channel with
      | .memorySource _ => (.ok (), stage)
      | .memoryTarget number path =>
        (.ok (),
          stage.modifyShelf number fun shelf =>
            shelf.put path ((shelf.lookup path).getD [] ++ piece))
      | .disk inner => stage.onDisk (.write inner piece)

/-- Completes a stream. -/
def finish (stage : Stage) (id : StreamId) : Result Unit × Stage :=
  match stage.streams[id]?.bind ScriptedStream.finishFault with
  | some message => (.error (.plain message), stage)
  | none => (.ok (), stage)

/-! ## Stores -/

/-- The answer of a store in memory. -/
def onShelf (stage : Stage) (store : StagedStore) (number : Nat) :
    (call : StoreCall) → call.Answer × Stage
  | .resolve path _ => (.ok ⟨path⟩, stage)
  | .probe file => (.ok ((stage.shelf number).lookup file.path.text).isSome, stage)
  | .createFile file => (.ok (), stage.modifyShelf number fun shelf => shelf.put file.path.text [])
  | .createExclusive file =>
    if store.refusesExclusive then (.error (store.backend.noExclusiveCreate file), stage)
    else if ((stage.shelf number).lookup file.path.text).isSome then (.ok false, stage)
    else (.ok true, stage.modifyShelf number fun shelf => shelf.put file.path.text [])
  | .delete file =>
    (.ok ((stage.shelf number).lookup file.path.text).isSome,
      stage.modifyShelf number fun shelf => shelf.erase file.path.text)
  | .openRead file =>
    match (stage.shelf number).lookup file.path.text with
    | none => (.error (.plain ("no such file " ++ Text.quote file.path.text)), stage)
    | some content =>
      let (id, stage) := stage.openSource store.backend (.memorySource content)
      (.ok id, stage)
  | .openWrite file append =>
    let stage := stage.modifyShelf number fun shelf =>
      shelf.put file.path.text (if append then (shelf.lookup file.path.text).getD [] else [])
    let (id, stage) := stage.openTarget store.backend (.memoryTarget number file.path.text)
    (.ok id, stage)
  | .read id => stage.read id
  | .write id piece => stage.write id piece
  | .finish id => stage.finish id
  | .close => (.ok (), stage)

/-- The answer of a store on the volume. -/
def onVolume (stage : Stage) (backend : Backend) : (call : StoreCall) → call.Answer × Stage
  | .openRead file =>
    match stage.onDisk (.openRead file) with
    | (.error f, stage) => (.error f, stage)
    | (.ok inner, stage) =>
      let (id, stage) := stage.openSource backend (.disk inner)
      (.ok id, stage)
  | .openWrite file append =>
    match stage.onDisk (.openWrite file append) with
    | (.error f, stage) => (.error f, stage)
    | (.ok inner, stage) =>
      let (id, stage) := stage.openTarget backend (.disk inner)
      (.ok id, stage)
  | .read id => stage.read id
  | .write id piece => stage.write id piece
  | .finish id => stage.finish id
  | call => stage.onDisk call

/-- What a store does for a call that its script lets pass. -/
def act (stage : Stage) (backend : Backend) (call : StoreCall) : call.Answer × Stage :=
  match stage.store? backend with
  | none => stage.onVolume backend call
  | some store =>
    match store.keeping with
    | .memory number => stage.onShelf store number call
    | .disk =>
      match call with
      | .createExclusive file =>
        if store.refusesExclusive then (.error (store.backend.noExclusiveCreate file), stage)
        else stage.onVolume backend (.createExclusive file)
      | call => stage.onVolume backend call

/-- The answer of a store, as its script has it. -/
def answerStore (stage : Stage) (backend : Backend) (call : StoreCall) : call.Answer × Stage :=
  match call.trace? with
  | none => stage.act backend call
  | some _ =>
    match stage.consult backend (.ofCall call) with
    | (some message, stage) => (.error (.plain message), stage)
    | (none, stage) => stage.act backend call

/-- A call is made: it is noted, and takes the time that the script says. -/
def beginCall (stage : Stage) (backend : Backend) (call : StoreCall) : Nat × Stage :=
  match call.trace?, stage.store? backend with
  | some text, some store =>
    let (nanos, delays) := takeDelay (.ofCall call) store.delays
    (nanos,
      stage.modifyStore backend fun store =>
        { store with trace := store.trace ++ [text], delays := delays })
  | _, _ => (0, stage)

/-! ## Sources and sinks -/

/-- The source of a task. -/
def source (stage : Stage) (id : TaskId) : Source :=
  (stage.sources.lookup id).getD ⟨[], none⟩

/-- The sink of a task. -/
def sink (stage : Stage) (id : TaskId) : Sink :=
  (stage.sinks.lookup id).getD ⟨[], none, none⟩

/-- Gives a task its source. -/
def setSource (stage : Stage) (id : TaskId) (source : Source) : Stage :=
  { stage with sources := (id, source) :: stage.sources.filter fun entry => entry.1 ≠ id }

/-- Gives a task its sink. -/
def setSink (stage : Stage) (id : TaskId) (sink : Sink) : Stage :=
  { stage with sinks := (id, sink) :: stage.sinks.filter fun entry => entry.1 ≠ id }

/-- The next piece of a task's source. -/
def pull (stage : Stage) (id : TaskId) : Result Bytes × Stage :=
  let source := stage.source id
  match source.fault with
  | some message => (.error (.plain message), stage.setSource id { source with fault := none })
  | none =>
    (.ok (source.rest.take FileAccess.pieceSize),
      stage.setSource id { source with rest := source.rest.drop FileAccess.pieceSize })

/-- A piece for a task's sink. -/
def push (stage : Stage) (id : TaskId) (piece : Bytes) : Result Unit × Stage :=
  let sink := stage.sink id
  match sink.writeFault with
  | some message => (.error (.plain message), stage.setSink id { sink with writeFault := none })
  | none => (.ok (), stage.setSink id { sink with received := sink.received ++ piece })

/-- A task's sink is to pass on all it took. -/
def flush (stage : Stage) (id : TaskId) : Result Unit × Stage :=
  match (stage.sink id).flushFault with
  | some message => (.error (.plain message), stage)
  | none => (.ok (), stage)

/-- A stage as a world. -/
def world : World Stage where
  begin _ request stage :=
    match request with
    | .store backend call => stage.beginCall backend call
    | _ => (0, stage)
  answer id request stage :=
    match request with
    | .store backend call => stage.answerStore backend call
    | .guard _ => ((), stage)
    | .slot => ((), stage)
    | .pull => stage.pull id
    | .push piece => stage.push id piece
    | .flush => stage.flush id

end Stage

end FileGateway

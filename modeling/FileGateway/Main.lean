import FileGateway.CommandLine.Program
import FileGateway.Word

/-!
# The command line tool

The program on the file system of the machine it runs on. Everything but the calls to the system is
in the modules this one imports.
-/

namespace FileGateway

/-- The calls of the program to its machine. The state is the streams that were opened; the number
of a stream is its place in the list. -/
abbrev Machine := StateT (List IO.FS.Handle) IO

namespace Machine

/-- The error of a number of the system. Some calls give it negated, in two's complement. -/
def ofNumber (code : UInt32) (words : String) : SystemError :=
  .ofCode (if code.toNat < word32 / 2 then code.toNat else word32 - code.toNat) words

/-- What the system has answered. -/
def systemErrorOf : IO.Error → SystemError
  | .alreadyExists _ code words => ofNumber code words
  | .otherError code words => ofNumber code words
  | .resourceBusy code words => ofNumber code words
  | .resourceVanished code words => ofNumber code words
  | .unsupportedOperation code words => ofNumber code words
  | .hardwareFault code words => ofNumber code words
  | .unsatisfiedConstraints code words => ofNumber code words
  | .illegalOperation code words => ofNumber code words
  | .protocolError code words => ofNumber code words
  | .timeExpired code words => ofNumber code words
  | .interrupted _ code words => ofNumber code words
  | .noFileOrDirectory _ code words => ofNumber code words
  | .invalidArgument _ code words => ofNumber code words
  | .permissionDenied _ code words => ofNumber code words
  | .resourceExhausted _ code words => ofNumber code words
  | .inappropriateType _ code words => ofNumber code words
  | .noSuchThing _ code words => ofNumber code words
  | .unexpectedEof => .other 0 "unexpected end of file"
  | .userError words => .other 0 words

/-- A call to the system on a path. -/
def call {α : Type} (path : Path) (act : String → IO α) : Machine (SystemResult α) := do
  if path.chars.contains '\x00' then return .error .nullInPath
  try return .ok (← act path.text)
  catch e => return .error (systemErrorOf e)

/-- Keeps an opened stream. -/
def keep : SystemResult IO.FS.Handle → Machine (SystemResult StreamId)
  | .error e => return .error e
  | .ok handle => do
    let handles ← get
    set (handles ++ [handle])
    return .ok handles.length

/-- A call to the system on a stream. -/
def onStream {α : Type} (id : StreamId) (closed : α) (act : IO.FS.Handle → IO α) :
    Machine (SystemResult α) := do
  match (← get)[id]? with
  | none => return .ok closed
  | some handle =>
    try return .ok (← act handle)
    catch e => return .error (systemErrorOf e)

/-- Whether a path leads to a directory: a directory can be opened, but not read. -/
def isDirectory (path : Path) : Machine (SystemResult Bool) := do
  match ← call path fun name => IO.FS.Handle.mk name .read with
  | .error e => return .error e
  | .ok handle =>
    try
      let _ ← handle.read 1
      return .ok false
    catch e =>
      match systemErrorOf e with
      | .isDirectory => return .ok true
      | e => return .error e

instance : FileAccess Machine where
  isDirectory := isDirectory
  createNew path := do
    return (← call path fun name => IO.FS.Handle.mk name .writeNew).map fun _ => ()
  remove path := call path fun name => IO.FS.removeFile name
  openRead path := do keep (← call path fun name => IO.FS.Handle.mk name .read)
  openWrite path append := do
    keep (← call path fun name => IO.FS.Handle.mk name (if append then .append else .write))
  read id := onStream id [] fun handle => do
    return (← handle.read (USize.ofNat FileAccess.pieceSize)).toList
  write id piece := onStream id () fun handle => do
    handle.write ⟨piece.toArray⟩
    handle.flush

/-- The text of a file of the system, or nothing if it cannot be read. -/
def textOr (fallback name : String) : IO String := do
  try return (← IO.FS.readFile name).trimAscii.toString
  catch _ => return fallback

/-- What this process writes into markers. -/
def writer : IO Diagnostics := do
  let hostName ← textOr "" "/etc/hostname"
  let stat ← textOr "0" "/proc/self/stat"
  return {
    hostName := if hostName.isEmpty then "localhost" else hostName
    hostAddress := "127.0.0.1"
    processId := UInt32.ofNat (((stat.splitOn " ").headD "").toNat?.getD 0) }

/-- So many requests are answered at most. -/
def requestLimit : Nat := word64

end Machine

end FileGateway

/-- Runs the program and exits with its status. -/
def main (args : List String) : IO UInt32 := do
  let setting : FileGateway.CommandLine.Setting FileGateway.Machine :=
    ⟨← FileGateway.Machine.writer, do return (← IO.monoNanosNow),
      FileGateway.Machine.requestLimit⟩
  let (ending, _) ← (FileGateway.CommandLine.program setting args).run []
  IO.print ending.output
  IO.eprint ending.complaint
  return UInt32.ofNat ending.status

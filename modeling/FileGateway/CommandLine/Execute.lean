import FileGateway.CommandLine.Invocation
import FileGateway.Disk.Store
import FileGateway.Gateway.Drive
import FileGateway.Report
import FileGateway.Text.Utf8

/-!
# Executing an invocation

The connections file is loaded, the operation is run on a gateway of its own, and the gateway's
connections are closed again. What fails before the operation begins is a failure without a report;
what fails in the operation is in its report.

All of this happens in a monad in which a file system can be called, so it runs on a machine as well
as on a volume.
-/

namespace FileGateway.CommandLine

/-- Where a write gets its pieces from. -/
inductive Supply where
  | text (rest : Bytes)
  | stream (id : StreamId)
deriving DecidableEq

/-- Where a read brings its pieces to. -/
inductive Target where
  | collected (bytes : Bytes)
  | stream (id : StreamId)
deriving DecidableEq

/-- The two ends of a transfer that are not in a store. -/
structure Transfer where
  supply : Supply
  target : Target
deriving DecidableEq

/-- Nothing to write, and what is read is collected. -/
def Transfer.plain : Transfer := ⟨.text [], .collected []⟩

/-- The bytes that were collected. -/
def Transfer.collected (t : Transfer) : Bytes :=
  match t.target with
  | .collected bytes => bytes
  | .stream _ => []

variable {m : Type → Type} [Monad m] [FileAccess m]

/-- The next piece of a supply. -/
def pull : StateT Transfer m (Result Bytes) := fun t =>
  match t.supply with
  | .text rest =>
    return (.ok (rest.take FileAccess.pieceSize),
      { t with supply := .text (rest.drop FileAccess.pieceSize) })
  | .stream id => do
    return ((← FileAccess.read id).mapError SystemError.failure, t)

/-- A piece for a target. -/
def push (piece : Bytes) : StateT Transfer m (Result Unit) := fun t =>
  match t.target with
  | .collected bytes => return (.ok (), { t with target := .collected (bytes ++ piece) })
  | .stream id => do
    return ((← FileAccess.write id piece).mapError SystemError.failure, t)

/-- The answer to a request: all stores are on the disk. -/
def answer : (request : Request) → StateT Transfer m request.Answer
  | .store _ call => fun t => do return (← DiskStore.answer call, t)
  | .guard _ => return ()
  | .slot => return ()
  | .pull => pull
  | .push piece => push piece
  | .flush => return .ok ()

/-- What every step of the execution has at hand: what is written into markers, the clock, and as
`fuel` the most requests that are answered and the most pieces of the connections file. -/
structure Setting (m : Type → Type) where
  writer : Diagnostics
  clock : m Instant
  fuel : Nat

/-- Runs one operation on a gateway. -/
def perform (setting : Setting m) (d : Deployment) (key : ConnectionKey) (action : Action)
    (path : Path) (transfer : Transfer) (g : Gateway) : m (Report × Transfer × Gateway) := do
  let (id, g) := g.operate d key action path
  let (g, transfer) ←
    g.drive answer (fun t => do return (← setting.clock, t)) id setting.fuel transfer
  let result := match g.result? id with
    | some (.operated result) => result
    | _ => .error (.invalidConfig "the operation has not ended")
  return (.ofResult action key path result, transfer, g)

/-- The failure of opening something that the command line names. -/
def openingFailure (what : String) (path : Path) (e : SystemError) : Failure :=
  e.failure.within (what ++ " " ++ Text.quote path.text)

/-! ## The connections file -/

/-- The detail of what is wrong with a JSON text. -/
def faultText : Json.Fault → String
  | .malformed => "the text is not valid JSON"
  | .ended => "the text ends too early"
  | .mismatch difference => difference.message

/-- The failure of a connections file that was read but not accepted. -/
def fileFailure : FileFault → Failure
  | .unreadable fault =>
    (Failure.plain (faultText fault)).within (FileFault.unreadable fault).message
  | fault => .plain fault.message

/-- What the content of a connections file gives. -/
def parseFile (path : Path) (content : Bytes) : Result ConnectionsFile :=
  match Text.readUtf8 content with
  | none =>
    .error ((Failure.plain "stream did not contain valid UTF-8").within
      ("failed reading connections file " ++ Text.quote path.text))
  | some text =>
    (ConnectionsFile.parse text).mapError fun fault =>
      (fileFailure fault).within ("invalid connections file " ++ Text.quote path.text)

/-- Loads a connections file. -/
def loadFile (path : Path) (fuel : Nat) : m (Result ConnectionsFile) := do
  match ← FileAccess.readFile path fuel with
  | .error e => return .error (openingFailure "failed reading connections file" path e)
  | .ok content => return parseFile path content

/-! ## Commands -/

/-- The lock of a write for which the command line gives a scheme or an expiry: what is not given is
taken from the connection. -/
def chosenLock (file : ConnectionsFile) (key : ConnectionKey) (scheme : Option LockScheme)
    (expiry : Option Duration) : Result (Option LockConfig) :=
  if scheme.isNone && expiry.isNone then .ok none
  else
    let base := ((file.find? key).map ConnectionConfig.lock).getD .default
    let lock : LockConfig := ⟨scheme.getD base.scheme, expiry.getD base.expiry⟩
    if lock.isVoid then .error (.plain LockConfig.voidMessage) else .ok (some lock)

/-- Opens what a write reads from. -/
def openContent : Content → m (Result Supply)
  | .text data => return .ok (.text (Text.writeUtf8 data))
  | .input path => do
    match ← FileAccess.openRead path with
    | .error e => return .error (openingFailure "failed opening input file" path e)
    | .ok id => return .ok (.stream id)

/-- Opens what a read writes to. -/
def openOutput : Option Path → m (Result Target)
  | none => return .ok (.collected [])
  | some path => do
    match ← FileAccess.openWrite path false with
    | .error e => return .error (openingFailure "failed creating output file" path e)
    | .ok id => return .ok (.stream id)

/-- The report of a read, with what was read if it was collected. -/
def withContent (output : Option Path) (report : Report) (transfer : Transfer) : Report :=
  if report.isOk && output.isNone then
    { report with content := some (Text.readUtf8Lossy transfer.collected) }
  else report

/-- Runs a command on a gateway. -/
def carryOut (setting : Setting m) (file : ConnectionsFile) (key : ConnectionKey)
    (command : Command) (g : Gateway) : m (Result Report × Gateway) := do
  let d : Deployment := ⟨file, .standard⟩
  match command with
  | .probe path =>
    let (report, _, g) ← perform setting d key .probe path .plain g
    return (.ok report, g)
  | .delete path =>
    let (report, _, g) ← perform setting d key .delete path .plain g
    return (.ok report, g)
  | .read path output =>
    match ← openOutput output with
    | .error f => return (.error f, g)
    | .ok target =>
      let (report, transfer, g) ← perform setting d key .read path ⟨.text [], target⟩ g
      return (.ok (withContent output report transfer), g)
  | .write path content append scheme expiry =>
    match chosenLock file key scheme expiry with
    | .error f => return (.error f, g)
    | .ok lock =>
      match ← openContent content with
      | .error f => return (.error f, g)
      | .ok supply =>
        let (report, _, g) ←
          perform setting d key (.write ⟨append, lock⟩) path ⟨supply, .collected []⟩ g
        return (.ok report, g)

/-- Closes the connections of a namespace. A process that has aborted does not come to that. -/
def closeAll (setting : Setting m) (space : String) (g : Gateway) : m Gateway := do
  if g.isAborted then return g
  let (id, g) := g.shutdown space
  let (g, _) ←
    g.drive answer (fun t => do return (← setting.clock, t)) id setting.fuel Transfer.plain
  return g

/-- Opens the log file, if there is to be one. It is created, or else appended to. -/
def openLog : Option Path → m (Result Unit)
  | none => return .ok ()
  | some path => do
    match ← FileAccess.openWrite path true with
    | .error e => return .error (openingFailure "failed opening debug log file" path e)
    | .ok _ => return .ok ()

/-- Carries an invocation out. The gateway is there if the connections file was loaded. -/
def execute (setting : Setting m) (inv : Invocation) : m (Result Report × Option Gateway) := do
  match ← openLog inv.debugLog with
  | .error f => return (.error f, none)
  | .ok () =>
    match ← loadFile inv.config setting.fuel with
    | .error f => return (.error f, none)
    | .ok file =>
      let (result, g) ←
        carryOut setting file inv.connection inv.command (Gateway.start setting.writer)
      let g ← closeAll setting inv.connection.space g
      return (result, some g)

end FileGateway.CommandLine

import FileGateway.CommandLine.Arguments
import FileGateway.Connection.Config

/-!
# Invocations

What the command line of the program asks for: one operation on one path of one connection, and
where its contents come from or go to.
-/

namespace FileGateway.CommandLine

/-- Where the contents of a write come from: the command line, or a file of the machine. -/
inductive Content where
  | text (data : String)
  | input (path : Path)
deriving DecidableEq

/-- What is to be done. A file is read into a file of the machine, or into the report. -/
inductive Command where
  | probe (path : Path)
  | read (path : Path) (output : Option Path)
  | write (path : Path) (content : Content) (append : Bool) (scheme : Option LockScheme)
      (expiry : Option Duration)
  | delete (path : Path)
deriving DecidableEq

/-- What the command line asks for: an operation on a connection of the connections file `config`.
How much is logged is `verbose`, and everything is logged to the file `debugLog`; if it is `quiet`,
failures are not reported. With 0 `workers` there are as many threads as the machine suggests. -/
structure Invocation where
  config : Path
  connection : ConnectionKey
  command : Command
  verbose : Nat
  quiet : Bool
  debugLog : Option Path
  workers : Nat
  blockingThreads : Nat
deriving DecidableEq

/-! ## Grammar -/

/-- The option that asks for help. -/
def helpOption : OptionForm := ⟨"help", some 'h', .help⟩

/-- The arguments in front of the subcommand. -/
def mainGrammar : Grammar where
  options :=
    [⟨"config", none, .value .path⟩, ⟨"namespace", none, .value .text⟩,
     ⟨"connection", some 'c', .value .text⟩, ⟨"verbose", some 'v', .count⟩,
     ⟨"quiet", some 'q', .flag⟩, ⟨"debug-log-file", none, .value .text⟩,
     ⟨"max-workers", none, .value .number⟩, ⟨"max-blocking-threads", none, .value .number⟩,
     helpOption, ⟨"version", some 'V', .version⟩]
  positionals := []
  subcommands := ["exists", "read", "write", "delete", "help"]

/-- The path that every subcommand takes. -/
def pathPositional : Positional := ⟨"path", .path⟩

/-- The arguments of `exists` and `delete`. -/
def plainGrammar : Grammar := ⟨[helpOption], [pathPositional], []⟩

/-- The arguments of `read`. -/
def readGrammar : Grammar := ⟨[⟨"output", none, .value .path⟩, helpOption], [pathPositional], []⟩

/-- The arguments of `write`. -/
def writeGrammar : Grammar where
  options :=
    [⟨"data", none, .value .text⟩, ⟨"input", none, .value .path⟩, ⟨"append", none, .flag⟩,
     ⟨"lock", none, .value .scheme⟩, ⟨"lock-expiry", none, .value .duration⟩, helpOption]
  positionals := [pathPositional]
  subcommands := []

/-! ## Reading -/

/-- The path of a subcommand. -/
def targetOf (given : Given) : Except Stop Path := do
  return ⟨← given.need "path"⟩

/-- What a write writes: a text or a file, and not both. -/
def contentOf (given : Given) : Except Stop Content :=
  match given.lookup "data", given.lookup "input" with
  | some data, none => .ok (.text data)
  | none, some path => .ok (.input ⟨path⟩)
  | _, _ => .error .misuse

/-- What `help` is asked about: nothing, a subcommand, or itself. -/
def helpAbout (args : List String) : Stop :=
  match args with
  | [] => .help
  | [about] => if mainGrammar.subcommands.contains about then .help else .misuse
  | _ => .misuse

/-- Reads a subcommand and its arguments. -/
def readCommand (name : String) (args : List String) : Except Stop Command :=
  match name with
  | "exists" => do return .probe (← targetOf (← plainGrammar.parse args))
  | "delete" => do return .delete (← targetOf (← plainGrammar.parse args))
  | "read" => do
    let given ← readGrammar.parse args
    return .read (← targetOf given) ((given.lookup "output").map Path.mk)
  | "write" => do
    let given ← writeGrammar.parse args
    return .write (← targetOf given) (← contentOf given) (given.has "append")
      ((given.lookup "lock").bind LockScheme.ofText?)
      ((given.lookup "lock-expiry").bind fun text => (Duration.read text).toOption)
  | _ => .error (helpAbout args)

/-- A number that was given, or 0. -/
def numberOf (given : Given) (name : String) : Nat :=
  ((given.lookup name).bind fun text => Text.readNatural text.toList).getD 0

/-- Reads a command line. -/
def Invocation.read (args : List String) : Except Stop Invocation := do
  let (scan, subcommand) ← (Scan.start mainGrammar).run mainGrammar args
  match subcommand with
  | none =>
    let _ ← scan.settle
    .error .misuse
  | some (name, rest) =>
    let command ← readCommand name rest
    let given := (← scan.settle).given
    let space := (given.lookup "namespace").getD ConnectionConfig.defaultSpace
    return {
      config := ⟨← Given.need given "config"⟩
      connection := ⟨space, ← Given.need given "connection"⟩
      command := command
      verbose := (given.filter fun entry => entry.1 == "verbose").length
      quiet := Given.has given "quiet"
      debugLog := (given.lookup "debug-log-file").map Path.mk
      workers := numberOf given "max-workers"
      blockingThreads := numberOf given "max-blocking-threads" }

end FileGateway.CommandLine

import FileGateway.CommandLine.Execute

/-!
# The program

What the program prints and which status it exits with: 0 for help and for an operation that
succeeded, 1 for one that failed, 2 for a command line that is not understood. A program that aborts
prints nothing but what it aborts over.
-/

namespace FileGateway.CommandLine

/-- The name and version of the program. -/
def versionText : String := "vfsop 0.4.0\n"

/-- How the program is called. -/
def usageText : String :=
  "Usage: vfsop --config <PATH> [--namespace <NAME>] --connection <NAME> <COMMAND>\n"

/-- What the program tells about itself. -/
def helpText : String :=
  "Run one file operation against a configured connection\n\n" ++ usageText ++ "\n"
    ++ "Commands:\n"
    ++ "  exists <PATH>                    Check whether a file exists\n"
    ++ "  read <PATH> [--output <PATH>]    Read a file\n"
    ++ "  write <PATH> (--data <TEXT> | --input <PATH>) [--append]\n"
    ++ "        [--lock <SCHEME>] [--lock-expiry <DURATION>]    Write a file\n"
    ++ "  delete <PATH>                    Delete a file\n"
    ++ "  help [COMMAND]                   Print this text\n\n"
    ++ "Options:\n"
    ++ "  --config <PATH>              JSON file listing the available connections\n"
    ++ "  --namespace <NAME>           Namespace the connection is looked up in [default: default]\n"
    ++ "  -c, --connection <NAME>      Name of the connection\n"
    ++ "  -v, --verbose                Log more; can be repeated\n"
    ++ "  -q, --quiet                  Do not report errors\n"
    ++ "  --debug-log-file <PATH>      Also log everything to this file\n"
    ++ "  --max-workers <N>            Number of worker threads\n"
    ++ "  --max-blocking-threads <N>   Number of blocking worker threads\n"
    ++ "  -h, --help                   Print this text\n"
    ++ "  -V, --version                Print the version\n"

/-- How a run of the program has ended: its status, and what it has printed on its standard output
and on its standard error output. -/
structure Ending where
  status : Nat
  output : String
  complaint : String
deriving DecidableEq, Repr

/-- The ending of a program that has aborted, with the status that the signal is told by. -/
def Ending.aborted : Ending :=
  ⟨134, "", "overflow when adding duration to instant\n"⟩

/-- The ending of a command line that is not carried out. -/
def Stop.ending : Stop → Ending
  | misuse => ⟨2, "", usageText⟩
  | help => ⟨0, helpText, ""⟩
  | version => ⟨0, versionText, ""⟩

/-- The ending of an invocation that was carried out. -/
def Invocation.ending (inv : Invocation) : Result Report → Ending
  | .ok report => ⟨if report.isOk then 0 else 1, report.toJson.write ++ "\n", ""⟩
  | .error f => ⟨1, "", if inv.quiet then "" else f.text ++ "\n"⟩

variable {m : Type → Type} [Monad m] [FileAccess m]

/-- Runs the program with the arguments of its command line. -/
def program (setting : Setting m) (args : List String) : m Ending := do
  match Invocation.read args with
  | .error stop => return stop.ending
  | .ok inv =>
    let (result, gateway?) ← execute setting inv
    return if gateway?.any Gateway.isAborted then .aborted else inv.ending result

end FileGateway.CommandLine

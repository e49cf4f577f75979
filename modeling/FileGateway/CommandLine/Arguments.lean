import FileGateway.Connection.Protocol
import FileGateway.Duration.Reader
import FileGateway.Text.Digits
import FileGateway.Word

/-!
# Arguments

The arguments of a command are options and positionals. An option starts with dashes:
`--name value`, `--name=value`, or with one letter `-n value`, `-nvalue`, `-n=value`; letters
without a value may share one dash. A positional is told by its order. After two dashes alone
everything is a positional. A command ends where the name of a subcommand stands; what follows
belongs to that.

Scanning is from left to right and stops at the first thing that is wrong, or at a wish for help. A
value is only looked at when the next option or positional comes or the arguments end, so a wish for
help within a subcommand is heard before a bad value in front of it.
-/

namespace FileGateway.CommandLine

/-- What a value has to be. A path is a text that is not empty, and a number is natural and below
`2 ^ 64`. -/
inductive ValueKind where
  | text
  | path
  | number
  | scheme
  | duration
deriving DecidableEq, Repr

/-- Whether a text is a value of a kind. -/
def ValueKind.accepts : ValueKind → String → Bool
  | text, _ => true
  | path, value => !value.isEmpty
  | number, value => (Text.readBelow word64 value.toList).isSome
  | scheme, value => (LockScheme.ofText? value).isSome
  | duration, value => (Duration.read value).isOk

/-- What an option does. A flag is there or not, and of a counted option it is told how often it is
there. -/
inductive OptionKind where
  | flag
  | count
  | help
  | version
  | value (kind : ValueKind)
deriving DecidableEq, Repr

/-- An option. -/
structure OptionForm where
  name : String
  letter : Option Char
  kind : OptionKind
deriving DecidableEq, Repr

/-- A positional. -/
structure Positional where
  name : String
  kind : ValueKind
deriving DecidableEq, Repr

/-- The arguments that a command knows, and the names of its subcommands. -/
structure Grammar where
  options : List OptionForm
  positionals : List Positional
  subcommands : List String

/-- Why a command line is not carried out: its arguments are not understood, or it asks for a
text. -/
inductive Stop where
  | misuse
  | help
  | version
deriving DecidableEq, Repr

/-- An argument whose value is still to be looked at. -/
structure Held where
  name : String
  kind : ValueKind
  value : Option String
deriving DecidableEq, Repr

/-- The state of scanning the arguments of one command. What was `given` is listed by name, a flag
with an empty value, and `positionals` are those that are left. While it is `awaiting`, the next
argument is the value of the option that is held; after two dashes alone it is `literal`, and no
argument is an option any more. -/
structure Scan where
  given : List (String × String)
  held : Option Held
  awaiting : Bool
  positionals : List Positional
  literal : Bool

namespace Scan

/-- The start of scanning. -/
def start (g : Grammar) : Scan :=
  ⟨[], none, false, g.positionals, false⟩

/-- Takes over an argument that may be given once. -/
def take (s : Scan) (name value : String) : Except Stop Scan :=
  if (s.given.lookup name).isSome then .error .misuse
  else .ok { s with given := s.given ++ [(name, value)] }

/-- Takes over a value that is looked at now. -/
def takeValue (s : Scan) (name : String) (kind : ValueKind) (value : String) : Except Stop Scan :=
  if kind.accepts value then s.take name value else .error .misuse

/-- Looks at the value that is held. -/
def settle (s : Scan) : Except Stop Scan :=
  match s.held with
  | none => .ok s
  | some ⟨_, _, none⟩ => .error .misuse
  | some ⟨name, kind, some value⟩ =>
    { s with held := none, awaiting := false }.takeValue name kind value

/-- An option that takes no value. -/
def react (s : Scan) (option : OptionForm) : Except Stop Scan := do
  let s ← s.settle
  match option.kind with
  | .flag => s.take option.name ""
  | .count => return { s with given := s.given ++ [(option.name, "")] }
  | .help => .error .help
  | .version => .error .version
  | .value _ => .error .misuse

/-- An option that takes a value, with its value if that is attached. -/
def valued (s : Scan) (option : OptionForm) (kind : ValueKind) (attached : Option String) :
    Except Stop Scan := do
  let s ← s.settle
  match attached with
  | some value => s.takeValue option.name kind value
  | none => return { s with held := some ⟨option.name, kind, none⟩, awaiting := true }

/-- An option by its name, from what follows the two dashes. -/
def long (g : Grammar) (s : Scan) (body : List Char) : Except Stop Scan :=
  let name := String.ofList (body.takeWhile fun c => c ≠ '=')
  let attached := (body.dropWhile fun c => c ≠ '=').tail?.map String.ofList
  match g.options.find? fun option => option.name == name with
  | none => .error .misuse
  | some option =>
    match option.kind, attached with
    | .value kind, attached => s.valued option kind attached
    | _, some _ => .error .misuse
    | _, none => s.react option

/-- The value attached to a letter. -/
def attachedTo : List Char → Option String
  | [] => none
  | '=' :: value => some (String.ofList value)
  | value => some (String.ofList value)

/-- Options by their letters, from what follows the dash. -/
def letters (g : Grammar) (s : Scan) : List Char → Except Stop Scan
  | [] => .ok s
  | c :: rest =>
    match g.options.find? fun option => option.letter == some c with
    | none => .error .misuse
    | some option =>
      match option.kind with
      | .value kind => s.valued option kind (attachedTo rest)
      | _ => do letters g (← s.react option) rest

/-- A positional. -/
def positional (s : Scan) (value : String) : Except Stop Scan := do
  match s.positionals with
  | [] => .error .misuse
  | p :: rest =>
    let s ← s.settle
    return { s with held := some ⟨p.name, p.kind, some value⟩, positionals := rest }

/-- An argument that is neither an option nor a subcommand. -/
def plain (s : Scan) (arg : String) : Except Stop Scan :=
  if s.awaiting then
    .ok { s with held := s.held.map fun h => { h with value := some arg }, awaiting := false }
  else s.positional arg

/-- One argument. -/
def step (g : Grammar) (s : Scan) (arg : String) : Except Stop Scan :=
  if s.literal then s.positional arg
  else
    match arg.toList with
    | ['-', '-'] => .ok { s with literal := true }
    | '-' :: '-' :: body => s.long g body
    | ['-'] => s.plain arg
    | '-' :: body => s.letters g body
    | _ => s.plain arg

/-- All arguments up to the name of a subcommand, and that name with what follows it. -/
def run (g : Grammar) (s : Scan) : List String → Except Stop (Scan × Option (String × List String))
  | [] => .ok (s, none)
  | arg :: rest =>
    if !s.literal && !s.awaiting && g.subcommands.contains arg then .ok (s, some (arg, rest))
    else do run g (← s.step g arg) rest

end Scan

/-- The arguments of one command that were given, by name. -/
abbrev Given := List (String × String)

/-- Whether an argument was given. -/
def Given.has (given : Given) (name : String) : Bool :=
  (given.lookup name).isSome

/-- An argument that has to be given. -/
def Given.need (given : Given) (name : String) : Except Stop String :=
  match given.lookup name with
  | some value => .ok value
  | none => .error .misuse

/-- All arguments of a command that has no subcommands. -/
def Grammar.parse (g : Grammar) (args : List String) : Except Stop Given := do
  let (s, _) ← (Scan.start g).run g args
  return (← s.settle).given

end FileGateway.CommandLine

import FileGateway.Store.Call

/-!
# Scripts

A script makes a store misbehave on purpose: calls of a method can be made slow, and calls of a
method can be made to fail for a while.
-/

namespace FileGateway

/-- What a script can speak of: the calls of a store, and what is done with its streams. -/
inductive Method where
  | resolve
  | probe
  | createFile
  | createExclusive
  | delete
  | openRead
  | openWrite
  | close
  | read
  | write
  | finish
deriving DecidableEq, Repr

namespace Method

/-- All methods by name. -/
def known : List (String × Method) :=
  [("resolve", resolve), ("exists", probe), ("create_file", createFile),
   ("create_exclusive", createExclusive), ("delete", delete), ("open_read", openRead),
   ("open_write", openWrite), ("close", close), ("read", read), ("write", write),
   ("shutdown", finish)]

/-- The method of a name. -/
def ofName? (name : String) : Option Method :=
  known.lookup name

/-- The method of a call. -/
def ofCall : StoreCall → Method
  | .resolve _ _ => resolve
  | .probe _ => probe
  | .createFile _ => createFile
  | .createExclusive _ => createExclusive
  | .delete _ => delete
  | .openRead _ => openRead
  | .openWrite _ _ => openWrite
  | .read _ => read
  | .write _ _ => write
  | .finish _ => finish
  | .close => close

end Method

/-- How a call shows in a trace. What is done with a stream does not show. -/
def StoreCall.trace? : StoreCall → Option String
  | resolve path options =>
    some (" ".intercalate
      ("resolve" :: path.text :: options.toList.map fun (name, value) => name ++ "=" ++ value))
  | probe file => some ("exists " ++ file.path.text)
  | createFile file => some ("create_file " ++ file.path.text)
  | createExclusive file => some ("create_exclusive " ++ file.path.text)
  | delete file => some ("delete " ++ file.path.text)
  | openRead file => some ("open_read " ++ file.path.text)
  | openWrite file append =>
    some ("open_write " ++ file.path.text ++ if append then " append" else "")
  | close => some "close"
  | read _ => none
  | write _ _ => none
  | finish _ => none

/-! ## Faults -/

/-- A scripted fault: so many calls of a method still pass, and as many after these fail, or all of
them if nothing is said. -/
structure Fault where
  method : Method
  message : String
  skip : Nat
  times : Option Nat
deriving DecidableEq, Repr

/-- Asks whether a call of a method is to fail. The first fault of the method that is not used up
decides, also when it lets the call pass. -/
def consult (method : Method) : List Fault → Option String × List Fault
  | [] => (none, [])
  | fault :: rest =>
    if fault.method = method && fault.times ≠ some 0 then
      if fault.skip > 0 then (none, { fault with skip := fault.skip - 1 } :: rest)
      else (some fault.message, { fault with times := fault.times.map fun n => n - 1 } :: rest)
    else
      let (message, rest) := consult method rest
      (message, fault :: rest)

/-! ## Delays -/

/-- How long calls take, in nanoseconds: always the same, or as long as is said for each, and no
time after that. -/
inductive Delay where
  | always (nanos : Nat)
  | each (nanos : List Nat)
deriving DecidableEq, Repr

/-- How long the next call takes, and the calls after it. -/
def Delay.next : Delay → Nat × Delay
  | always n => (n, always n)
  | each [] => (0, each [])
  | each (n :: rest) => (n, each rest)

/-- How long the next call of a method takes. -/
def takeDelay (method : Method) : List (Method × Delay) → Nat × List (Method × Delay)
  | [] => (0, [])
  | (m, delay) :: rest =>
    if m = method then (delay.next.1, (m, delay.next.2) :: rest)
    else
      let (nanos, rest) := takeDelay method rest
      (nanos, (m, delay) :: rest)

end FileGateway

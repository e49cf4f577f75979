import FileGateway.Connection.Config
import FileGateway.Duration.Reader

/-!
# Decoding configurations

The form of configurations in JSON. Fields may stand in any order, each at most once; a field of
another name is a fault. What has a default may be left out, and an optional value may be `null`.
-/

namespace FileGateway

open Json

/-- Decodes a duration from its words. -/
def Duration.ofTree (tree : Tree) : Decoded Duration := do
  let words ← tree.text "a string"
  match Duration.read words with
  | .ok d => .ok d
  | .error fault => .error (.mismatch (.refused fault.message))

/-- Decodes a path. -/
def Path.ofTree (tree : Tree) : Decoded Path := do
  let text ← tree.text "path string"
  return ⟨text⟩

/-- Decodes options. Of entries with one name the last one counts. -/
def Options.ofTree (tree : Tree) : Decoded Options := do
  let entries ← tree.textMembers
  return Options.ofList entries

namespace LockConfig

/-- A lock configuration that is being read. -/
structure Draft where
  scheme : Option LockScheme := none
  expiry : Option Duration := none

/-- The form of a lock configuration. -/
def form : RecordForm Draft where
  title := "LockConfig"
  fields := ["scheme", "expiry"]
  optional := ["scheme", "expiry"]
  strict := true
  put draft field value :=
    if field = "scheme" then do
      return { draft with scheme := some (← LockScheme.ofTree value) }
    else do
      return { draft with expiry := some (← Duration.ofTree value) }

/-- Decodes a lock configuration. -/
def ofTree (tree : Tree) : Decoded LockConfig := do
  let draft ← form.draft {} tree
  return ⟨draft.scheme.getD .none, draft.expiry.getD defaultExpiry⟩

end LockConfig

namespace ConnectionConfig

/-- A configuration that is being read. -/
structure Draft where
  name : Option String := none
  space : Option String := none
  protocol : Option Protocol := none
  host : Option (Option String) := none
  port : Option (Option UInt16) := none
  username : Option (Option String) := none
  password : Option (Option String) := none
  workingDir : Option Path := none
  maxFailures : Option UInt32 := none
  suspendDuration : Option Duration := none
  backoffMultiplier : Option UInt32 := none
  maxBackoff : Option (Option Duration) := none
  options : Option Options := none
  lock : Option LockConfig := none

/-- A number of 32 bits. -/
def word32 (tree : Tree) : Decoded UInt32 := do
  let n ← tree.natural 32
  return UInt32.ofNat n

/-- A number of 16 bits. -/
def word16 (tree : Tree) : Decoded UInt16 := do
  let n ← tree.natural 16
  return UInt16.ofNat n

/-- Takes a field into a draft. -/
def Draft.put (d : Draft) (field : String) (value : Tree) : Decoded Draft :=
  let string := Tree.text "a string"
  match field with
  | "name" => do return { d with name := some (← string value) }
  | "namespace" => do return { d with space := some (← string value) }
  | "protocol" => do return { d with protocol := some (← Protocol.ofTree value) }
  | "host" => do return { d with host := some (← value.optional string) }
  | "port" => do return { d with port := some (← value.optional word16) }
  | "username" => do return { d with username := some (← value.optional string) }
  | "password" => do return { d with password := some (← value.optional string) }
  | "working_dir" => do return { d with workingDir := some (← Path.ofTree value) }
  | "max_failure_retry_count" => do return { d with maxFailures := some (← word32 value) }
  | "suspend_duration" => do return { d with suspendDuration := some (← Duration.ofTree value) }
  | "backoff_multiplier" => do return { d with backoffMultiplier := some (← word32 value) }
  | "max_backoff" => do return { d with maxBackoff := some (← value.optional Duration.ofTree) }
  | "options" => do return { d with options := some (← Options.ofTree value) }
  | "lock" => do return { d with lock := some (← LockConfig.ofTree value) }
  | _ => .ok d

/-- The form of a configuration. -/
def form : RecordForm Draft where
  title := "ConnectionConfig"
  fields := ["name", "namespace", "protocol", "host", "port", "username", "password", "working_dir",
    "max_failure_retry_count", "suspend_duration", "backoff_multiplier", "max_backoff", "options",
    "lock"]
  optional := ["namespace", "host", "port", "username", "password", "max_failure_retry_count",
    "suspend_duration", "backoff_multiplier", "max_backoff", "options", "lock"]
  strict := true
  put := Draft.put

/-- The configuration of a draft, with defaults for what was left out. -/
def Draft.complete (d : Draft) : Decoded ConnectionConfig := do
  return {
    name := ← need "name" d.name
    space := d.space.getD defaultSpace
    protocol := ← need "protocol" d.protocol
    host := d.host.getD none
    port := d.port.getD none
    username := d.username.getD none
    password := d.password.getD none
    workingDir := ← need "working_dir" d.workingDir
    maxFailures := d.maxFailures.getD defaultMaxFailures
    suspendDuration := d.suspendDuration.getD initialSuspension
    backoffMultiplier := d.backoffMultiplier.getD 1
    maxBackoff := d.maxBackoff.getD none
    options := d.options.getD .empty
    lock := d.lock.getD .default }

/-- Decodes a configuration. -/
def ofTree (tree : Tree) : Decoded ConnectionConfig := do
  let draft ← form.draft {} tree
  draft.complete

end ConnectionConfig

end FileGateway

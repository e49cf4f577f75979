import FileGateway.Connection.Key
import FileGateway.Connection.Protocol
import FileGateway.Duration.Basic
import FileGateway.Options
import FileGateway.Path.Basic
import FileGateway.Text.Blank

/-!
# Connection configurations

The parameters of one backend connection as an operator supplies them, and the conditions under
which they make sense. A configuration is refused for the first condition it does not meet, in the
order in which they are listed.
-/

namespace FileGateway

/-- How writes over a connection are locked. A lease lasts for the `expiry`, and an abandoned
marker is removed after this long. -/
structure LockConfig where
  scheme : LockScheme
  expiry : Duration
deriving DecidableEq

namespace LockConfig

/-- How long a lease lasts unless another time is configured. -/
def defaultExpiry : Duration := .ofSeconds 30

/-- No locks. -/
def default : LockConfig := ⟨.none, defaultExpiry⟩

/-- Whether leases of this configuration could never be held. -/
def isVoid (lock : LockConfig) : Bool :=
  lock.scheme = .marker && lock.expiry.nanos = 0

/-- What is said of a configuration whose leases could never be held. -/
def voidMessage : String := "lock expiry must be greater than zero"

end LockConfig

/-- The parameters of one backend connection. It is deployed under the namespace `space`, and
relative paths hang off its `workingDir`. It is suspended after `maxFailures` consecutive failures,
or never if that is 0: first for `suspendDuration`, then each time longer by the factor
`backoffMultiplier`, and never longer than `maxBackoff`. The options are handed to the backing
store as they are. -/
structure ConnectionConfig where
  name : String
  space : String
  protocol : Protocol
  host : Option String
  port : Option UInt16
  username : Option String
  password : Option String
  workingDir : Path
  maxFailures : UInt32
  suspendDuration : Duration
  backoffMultiplier : UInt32
  maxBackoff : Option Duration
  options : Options
  lock : LockConfig
deriving DecidableEq

/-- Why a configuration is refused. -/
inductive ConfigFault where
  | nameEmpty
  | namespaceEmpty (name : String)
  | workingDirMissing (name : String)
  | hostMissing (name : String) (protocol : Protocol)
  | suspensionVoid (name : String)
  | multiplierZero (name : String)
  | lockVoid (name : String)
deriving DecidableEq

/-- The fault in words. -/
def ConfigFault.message : ConfigFault → String
  | nameEmpty => "connection name must not be empty"
  | namespaceEmpty name => s!"connection {name}: namespace must not be empty"
  | workingDirMissing name => s!"connection {name}: working_dir must be specified"
  | hostMissing name protocol =>
    s!"connection {name}: host must be specified for protocol {protocol.name}"
  | suspensionVoid name =>
    s!"connection {name}: suspend_duration must be greater than zero when "
      ++ "max_failure_retry_count is set"
  | multiplierZero name => s!"connection {name}: backoff_multiplier must be at least 1"
  | lockVoid name => s!"connection {name}: " ++ LockConfig.voidMessage

namespace ConnectionConfig

/-- The namespace of a connection that is given none. -/
def defaultSpace : String := "default"

/-- The consecutive failures that suspend a connection unless another number is configured. -/
def defaultMaxFailures : UInt32 := 3

/-- How long a suspension lasts unless another time is configured. -/
def initialSuspension : Duration := .ofSeconds 30

/-- The connection to a directory of the local disk, all else left at its default. -/
def onDisk (space name : String) (workingDir : Path) : ConnectionConfig where
  name := name
  space := space
  protocol := .file
  host := none
  port := none
  username := none
  password := none
  workingDir := workingDir
  maxFailures := defaultMaxFailures
  suspendDuration := initialSuspension
  backoffMultiplier := 1
  maxBackoff := none
  options := .empty
  lock := .default

/-- The key of the connection. -/
def key (c : ConnectionConfig) : ConnectionKey :=
  ⟨c.space, c.name⟩

/-- Whether no host is given, or only blanks. -/
def lacksHost (c : ConnectionConfig) : Bool :=
  match c.host with
  | none => true
  | some host => Text.allBlank host

/-- The first condition that the configuration does not meet. -/
def fault? (c : ConnectionConfig) : Option ConfigFault :=
  if Text.allBlank c.name then some .nameEmpty
  else if Text.allBlank c.space then some (.namespaceEmpty c.name)
  else if c.workingDir.text.isEmpty then some (.workingDirMissing c.name)
  else if c.protocol.isRemote && c.lacksHost then some (.hostMissing c.name c.protocol)
  else if 0 < c.maxFailures && c.suspendDuration.nanos = 0 then some (.suspensionVoid c.name)
  else if c.backoffMultiplier = 0 then some (.multiplierZero c.name)
  else if c.lock.isVoid then some (.lockVoid c.name)
  else none

end ConnectionConfig

end FileGateway

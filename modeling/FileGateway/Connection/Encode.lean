import FileGateway.Connection.Config
import FileGateway.Duration.Printer

/-!
# Encoding configurations

A configuration as JSON, with every field written out and the password left out.
-/

namespace FileGateway

open Json

/-- Encodes a duration in words. -/
def Duration.toJson (d : Duration) : Value :=
  .string d.write

/-- Encodes options as an object. -/
def Options.toJson (o : Options) : Value :=
  .object (o.entries.map fun e => (e.1, .string e.2))

/-- Encodes a lock configuration. -/
def LockConfig.toJson (lock : LockConfig) : Value :=
  .object [("scheme", lock.scheme.toJson), ("expiry", lock.expiry.toJson)]

/-- Encodes a configuration without its password. -/
def ConnectionConfig.toJson (c : ConnectionConfig) : Value :=
  .object [
    ("name", .string c.name),
    ("namespace", .string c.space),
    ("protocol", c.protocol.toJson),
    ("host", .optional .string c.host),
    ("port", .optional (fun p => .number p.toNat) c.port),
    ("username", .optional .string c.username),
    ("working_dir", .string c.workingDir.text),
    ("max_failure_retry_count", .number c.maxFailures.toNat),
    ("suspend_duration", c.suspendDuration.toJson),
    ("backoff_multiplier", .number c.backoffMultiplier.toNat),
    ("max_backoff", .optional Duration.toJson c.maxBackoff),
    ("options", c.options.toJson),
    ("lock", c.lock.toJson)]

end FileGateway

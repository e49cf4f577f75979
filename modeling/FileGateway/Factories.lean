import FileGateway.Registry

/-!
# Store factories

A factory builds the backing stores of one protocol from configurations. The local disk is the only
backend the gateway brings along; factories for the other protocols are registered by whoever embeds
it.
-/

namespace FileGateway

/-- What builds the stores of a protocol. -/
abbrev StoreFactory := ConnectionConfig → Except Failure Backend

/-- How the store on the local disk describes itself. -/
def diskIdentity : String := "file://"

/-- The store on the local disk. -/
def Backend.disk : Backend :=
  ⟨0, diskIdentity, true⟩

/-- Builds stores on the local disk, for connections whose directory is absolute. -/
def diskFactory : StoreFactory := fun config =>
  if config.workingDir.isAbsolute then .ok .disk
  else
    .error (.plain ("working_dir " ++ Text.quote config.workingDir.text ++ " of local connection "
      ++ config.name ++ " must be absolute"))

/-- The factories by protocol. -/
structure Factories where
  entries : List (Protocol × StoreFactory)

namespace Factories

/-- No factories. -/
def empty : Factories := ⟨[]⟩

/-- Adds the factory of a protocol, in place of an earlier one. -/
def register (f : Factories) (protocol : Protocol) (factory : StoreFactory) : Factories :=
  ⟨f.entries.filter (fun entry => entry.1 ≠ protocol) ++ [(protocol, factory)]⟩

/-- The factories the gateway brings along. -/
def standard : Factories :=
  empty.register .file diskFactory

/-- The factory of a protocol. -/
def get? (f : Factories) (protocol : Protocol) : Option StoreFactory :=
  f.entries.lookup protocol

/-- The names of the protocols that have a factory, in ascending order. -/
def names (f : Factories) : List String :=
  (f.entries.map fun entry => entry.1.name).mergeSort fun a b => decide (a ≤ b)

/-- The factories on one line. -/
def text (f : Factories) : String :=
  "StoreFactories \x7b protocols: [" ++ ", ".intercalate (f.names.map Text.quote) ++ "] \x7d"

end Factories

/-- Builds a handle from a configuration. -/
def connect (config : ConnectionConfig) (factories : Factories) : Except Error Handle :=
  match config.fault? with
  | some fault => .error (.invalidConfig fault.message)
  | none =>
    match factories.get? config.protocol with
    | none => .error (.unsupportedProtocol config.protocol.name)
    | some factory =>
      match factory config with
      | .error failure => .error (.connectionFailed config.name failure)
      | .ok backend =>
        .ok (.fresh config.key backend config.workingDir config.options (.ofConfig config)
          config.lock)

/-- The handle of a configured connection, built on first use. -/
def Registry.connect (r : Registry) (config : ConnectionConfig) (factories : Factories) :
    Registry.Creation :=
  r.provide config.key fun _ => FileGateway.connect config factories

end FileGateway

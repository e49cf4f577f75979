import FileGateway.CommandLine.Arguments
import FileGateway.CommandLine.Execute
import FileGateway.CommandLine.Invocation
import FileGateway.CommandLine.Program
import FileGateway.Connection.Config
import FileGateway.Connection.Decode
import FileGateway.Connection.Encode
import FileGateway.Connection.File
import FileGateway.Connection.Key
import FileGateway.Connection.Protocol
import FileGateway.Decimal.Shortest
import FileGateway.Deployment
import FileGateway.Disk.Access
import FileGateway.Disk.Store
import FileGateway.Disk.SystemError
import FileGateway.Disk.Tree
import FileGateway.Disk.Volume
import FileGateway.Disk.Walk
import FileGateway.Duration.Basic
import FileGateway.Duration.Printer
import FileGateway.Duration.Reader
import FileGateway.Duration.TimeUnit
import FileGateway.Error
import FileGateway.Factories
import FileGateway.Failure
import FileGateway.Gateway.Basic
import FileGateway.Gateway.Drive
import FileGateway.Gateway.Request
import FileGateway.Gateway.Schedule
import FileGateway.Gateway.Shared
import FileGateway.Gateway.Task
import FileGateway.Handle
import FileGateway.Json.Decode
import FileGateway.Json.Numeral
import FileGateway.Json.Printer
import FileGateway.Json.Token
import FileGateway.Json.Tree
import FileGateway.Lease.Acquire
import FileGateway.Lease.Basic
import FileGateway.Lease.Diagnostics
import FileGateway.Lease.Guards
import FileGateway.Lease.Release
import FileGateway.Main
import FileGateway.Operation.Basic
import FileGateway.Operation.Copy
import FileGateway.Operation.Read
import FileGateway.Operation.Resolve
import FileGateway.Operation.Write
import FileGateway.Options
import FileGateway.Path.Basic
import FileGateway.Path.Marker
import FileGateway.Path.Normal
import FileGateway.Proofs.CommandLine.Abort
import FileGateway.Proofs.CommandLine.Beginning
import FileGateway.Proofs.CommandLine.Completion
import FileGateway.Proofs.CommandLine.Faithful
import FileGateway.Proofs.CommandLine.Loading
import FileGateway.Proofs.CommandLine.Locking
import FileGateway.Proofs.CommandLine.Reported
import FileGateway.Proofs.CommandLine.Run
import FileGateway.Proofs.CommandLine.Secrecy
import FileGateway.Proofs.Connection.Accepted
import FileGateway.Proofs.Connection.Described
import FileGateway.Proofs.Connection.FirstFault
import FileGateway.Proofs.Connection.Passwords
import FileGateway.Proofs.Connection.Printed
import FileGateway.Proofs.Disk.Answers
import FileGateway.Proofs.Disk.Opening
import FileGateway.Proofs.Disk.Passage
import FileGateway.Proofs.Disk.Plain
import FileGateway.Proofs.Disk.Resolve
import FileGateway.Proofs.Disk.Shape
import FileGateway.Proofs.Disk.Twins
import FileGateway.Proofs.Duration.Written
import FileGateway.Proofs.Gateway.Abiding
import FileGateway.Proofs.Gateway.Blindness
import FileGateway.Proofs.Gateway.Bystanders
import FileGateway.Proofs.Gateway.Calls
import FileGateway.Proofs.Gateway.Ending
import FileGateway.Proofs.Gateway.Lasting
import FileGateway.Proofs.Gateway.Memory
import FileGateway.Proofs.Gateway.Pursuit
import FileGateway.Proofs.Gateway.Realm
import FileGateway.Proofs.Gateway.Scene
import FileGateway.Proofs.Gateway.Solo
import FileGateway.Proofs.Gateway.Writer
import FileGateway.Proofs.Json.Printed
import FileGateway.Proofs.Json.Spelled
import FileGateway.Proofs.Lease.Abandonment
import FileGateway.Proofs.Lease.Alone
import FileGateway.Proofs.Lease.Aside
import FileGateway.Proofs.Lease.Contention
import FileGateway.Proofs.Lease.Contents
import FileGateway.Proofs.Lease.Correspondence
import FileGateway.Proofs.Lease.CreationProtocols
import FileGateway.Proofs.Lease.Diagnostics
import FileGateway.Proofs.Lease.Entitlement
import FileGateway.Proofs.Lease.Exclusion
import FileGateway.Proofs.Lease.Expiry
import FileGateway.Proofs.Lease.Guards
import FileGateway.Proofs.Lease.Idle
import FileGateway.Proofs.Lease.LeaseOp
import FileGateway.Proofs.Lease.LeaseSystem
import FileGateway.Proofs.Lease.Legible
import FileGateway.Proofs.Lease.Lifecycle
import FileGateway.Proofs.Lease.MarkerOwners
import FileGateway.Proofs.Lease.Naming
import FileGateway.Proofs.Lease.Once
import FileGateway.Proofs.Lease.PathLocks
import FileGateway.Proofs.Lease.Removal
import FileGateway.Proofs.Lease.Surrendering
import FileGateway.Proofs.Lease.TimedRun
import FileGateway.Proofs.Lease.Traceless
import FileGateway.Proofs.Lease.Turns
import FileGateway.Proofs.Operation.Account
import FileGateway.Proofs.Operation.Alone
import FileGateway.Proofs.Operation.Delivery
import FileGateway.Proofs.Operation.Draining
import FileGateway.Proofs.Operation.Fetch
import FileGateway.Proofs.Operation.Holding
import FileGateway.Proofs.Operation.Intake
import FileGateway.Proofs.Operation.Mapping
import FileGateway.Proofs.Operation.Order
import FileGateway.Proofs.Operation.Phase
import FileGateway.Proofs.Operation.Refusal
import FileGateway.Proofs.Operation.Retrieval
import FileGateway.Proofs.Operation.Return
import FileGateway.Proofs.Operation.Serial
import FileGateway.Proofs.Operation.Session
import FileGateway.Proofs.Operation.Streams
import FileGateway.Proofs.Operation.Transfer
import FileGateway.Proofs.Operation.Write
import FileGateway.Proofs.Operation.WriteHistory
import FileGateway.Proofs.Operation.Writers
import FileGateway.Proofs.Path.Canonical
import FileGateway.Proofs.Path.Markers
import FileGateway.Proofs.Path.Names
import FileGateway.Proofs.Registry.Checkout
import FileGateway.Proofs.Registry.Conservation
import FileGateway.Proofs.Registry.RegistryUse
import FileGateway.Proofs.Registry.Sharing
import FileGateway.Proofs.Suspension.Attribution
import FileGateway.Proofs.Suspension.Clock
import FileGateway.Proofs.Suspension.Growth
import FileGateway.Proofs.Suspension.History
import FileGateway.Proofs.Suspension.Throttle
import FileGateway.Proofs.Suspension.Traffic
import FileGateway.Registry
import FileGateway.Rehearsal.Script
import FileGateway.Rehearsal.Stage
import FileGateway.Report
import FileGateway.Store.Call
import FileGateway.Suspension
import FileGateway.Text.Blank
import FileGateway.Text.CodePoints
import FileGateway.Text.Combining
import FileGateway.Text.Digits
import FileGateway.Text.Quoted
import FileGateway.Text.Unprintable
import FileGateway.Text.Utf8
import FileGateway.Word

import FileGateway.Error
import FileGateway.Lease.Diagnostics
import FileGateway.Path.Marker
import FileGateway.Store.Call

/-!
# Leases

A lease gives one writer at a time the right to write a target. It is held by whoever created the
marker beside the target, and given up by removing the marker. A lease is used once: after it was
active it is never acquired again. An active lease has a timer that gives it up by force.

```text
idle --acquire--> acquiring --marker created--> active --release or expiry--> released
                  acquiring --marker taken, or a failure--> idle
```
-/

namespace FileGateway

/-- The stage of a lease's life. -/
inductive LeaseState where
  | idle
  | acquiring
  | active
  | released
deriving DecidableEq, Repr

/-- The name of a stage. -/
def LeaseState.name : LeaseState → String
  | idle => "idle"
  | acquiring => "acquiring"
  | active => "active"
  | released => "released"

/-- What an active lease holds. -/
structure Held where
  backend : Backend
  marker : FileRef
deriving DecidableEq

/-- The timer of a lease. It is `unset` as long as the lease was never active; once armed, it gives
the lease up by force at its deadline, and it is `cancelled` if the lease is given up before. -/
inductive Timer where
  | unset
  | armed (deadline : Instant)
  | cancelled
  | fired
deriving DecidableEq, Repr

/-- Starts a timer, unless it was cancelled already. -/
def Timer.arm (deadline : Instant) : Timer → Timer
  | cancelled => cancelled
  | _ => armed deadline

/-- A lease on one target, with the path of its marker as it is handed to the store. -/
structure Lease where
  target : Path
  marker : Path
  state : LeaseState
  held : Option Held
  timer : Timer
deriving DecidableEq

/-- The number of a lease. -/
abbrev LeaseId := Nat

/-- How often the removal of a marker is tried before it is given up. -/
def removalLimit : Nat := 3

namespace Lease

/-- A lease on a target that was not acquired yet. A target that does not end in a name has none. -/
def fresh (target : Path) : Except Error Lease :=
  match target.marker? with
  | some marker =>
    .ok { target := target, marker := marker, state := .idle, held := none, timer := .unset }
  | none => .error (.lockNotAcquired target "target has no file name")

/-- Whether the lease is active. -/
def isActive (l : Lease) : Bool :=
  l.state = .active

/-- The error of acquiring a lease that is not idle. -/
def notIdle (l : Lease) : Error :=
  .lockNotAcquired l.marker ("lease is " ++ l.state.name ++ " and cannot be acquired again")

/-- The error of a target whose marker another writer holds. -/
def taken (l : Lease) : Error :=
  .lockNotAcquired l.marker "held by another writer"

end Lease

end FileGateway

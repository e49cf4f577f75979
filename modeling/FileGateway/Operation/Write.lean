import FileGateway.Lease.Acquire
import FileGateway.Lease.Release
import FileGateway.Operation.Copy

/-!
# Writing a file

A locked write takes a lease on its target before it opens it, and gives the lease up when the copy
has ended, well or badly. A write that finds the target taken does not touch it. If both the copy
and the release fail, the copy's error counts; a lease that has expired in the meantime is no error.
-/

namespace FileGateway

/-- How a file is written: whether it keeps what it holds, and the lock of this write if it is not
the connection's. -/
structure WriteMode where
  append : Bool
  lock : Option LockConfig
deriving DecidableEq

namespace Write

/-- The write of a resolved file. -/
structure Target where
  backend : Backend
  file : FileRef
  append : Bool
deriving DecidableEq

/-- Where a write of a resolved file waits: for its lease, for its copy, or for its lease to be
given up after the copy has ended. -/
inductive Place where
  | locking (acquire : Acquire) (place : Acquire.Place)
  | copying (lease : Option LeaseId) (place : Copy.Place)
  | unlocking (lease : LeaseId) (marker : Path) (place : Surrender.Place) (copied : Result Nat)

/-- What the result of the copy makes of the write. -/
def outcome (t : Target) : Result Nat → Except Error Nat
  | .ok count => .ok count
  | .error f => .error (.filesystem t.file.path f)

/-- What the release makes of the write. -/
def released (t : Target) (copied : Result Nat) : Except Error Bool → Except Error Nat
  | .ok _ => outcome t copied
  | .error e =>
    match copied with
    | .ok _ => .error e
    | .error _ => outcome t copied

/-- The copy has ended. -/
def copied (t : Target) (lease : Option LeaseId) (result : Result Nat) :
    Move Place (Except Error Nat) := fun s =>
  match lease with
  | none => (.done (outcome t result), s)
  | some id =>
    let marker := ((s.lease? id).map Lease.marker).getD t.file.path
    let (step, s) := Release.start id s
    (step.map (fun place => .unlocking id marker place result) (released t result), s)

/-- The acquisition of the lease has ended. -/
def locked (a : Acquire) (result : Except Error Bool) : Step Place (Except Error Nat) :=
  match result with
  | .ok true => .paused (.copying (some a.lease) .opening)
  | .ok false => .done (.error (.lockNotAcquired a.marker "held by another writer"))
  | .error e => .done (.error e)

/-- A step of the acquisition as a step of the write. -/
def lockStep (a : Acquire) : Step Acquire.Place (Except Error Bool) → Step Place (Except Error Nat)
  | .paused place => .paused (.locking a place)
  | .done result => locked a result

/-- Starts the write of a resolved file with a lock configuration. -/
def start (t : Target) (options : Options) (lock : LockConfig) :
    Move Place (Except Error Nat) := fun s =>
  match lock.scheme with
  | .none => (.paused (.copying none .opening), s)
  | .marker =>
    match Lease.fresh t.file.path with
    | .error e => (.done (.error e), s)
    | .ok lease =>
      let (id, s) := s.addLease lease
      let a : Acquire := ⟨id, lease.marker, t.backend, options, lock.expiry⟩
      let (step, s) := a.start s
      (lockStep a step, s)

/-- What a write waits for at a place, and how it goes on. Its result is the number of bytes. -/
def next (t : Target) (writer : Diagnostics) : Place → Pending (Move Place (Except Error Nat))
  | .locking a place =>
    (a.next writer place).map fun move s =>
      let (step, s) := move s
      (lockStep a step, s)
  | .copying lease place =>
    (Copy.next t.backend t.file t.append place).map fun
      | .paused place => fun s => (.paused (.copying lease place), s)
      | .done result => copied t lease result
  | .unlocking lease marker place result =>
    (Surrender.next ⟨lease, false⟩ place).map fun move s =>
      let (step, s) := move s
      (step.map (fun place => .unlocking lease marker place result)
        fun removed => released t result (Release.result marker removed), s)

end Write

end FileGateway

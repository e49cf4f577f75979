import FileGateway.Gateway.Shared

/-!
# Releasing a lease

An active lease is given up once, by a release or by its timer, whichever comes first: it leaves the
active stage at once, and whoever made it do so takes what the lease holds and removes the marker,
in a few attempts. A release also cancels the timer. The one that comes second finds the lease
released and does nothing. A timer that cannot remove the marker leaves it behind.
-/

namespace FileGateway

/-- The removal of a marker, with the number of the attempt that is being made. -/
structure Removal where
  backend : Backend
  marker : FileRef
  attempt : Nat
deriving DecidableEq

namespace Removal

/-- The removal of what an active lease held. -/
def ofHeld (held : Held) : Removal :=
  ⟨held.backend, held.marker, 1⟩

/-- A removal waits for its attempt, and makes another one if that failed and some are left. -/
def next (r : Removal) : Pending (Step Removal (Result Bool)) :=
  ⟨.store r.backend (.delete r.marker), fun
    | .ok deleted => .done (.ok deleted)
    | .error f =>
      if r.attempt < removalLimit then .paused { r with attempt := r.attempt + 1 }
      else .done (.error f)⟩

end Removal

/-- The giving up of a lease that has left the active stage. It is `forced` if it is the timer that
gives the lease up. -/
structure Surrender where
  lease : LeaseId
  forced : Bool
deriving DecidableEq

namespace Surrender

/-- Where the giving up of a lease waits: to take what the lease holds, to cancel its timer, or for
the marker to be removed. -/
inductive Place where
  | taking
  | cancelling (held : Held)
  | removing (removal : Removal)
deriving DecidableEq

/-- What the lease holds is taken. If it holds nothing, nothing is to be removed. -/
def take (r : Surrender) : Move Place (Result Bool) := fun s =>
  match (s.lease? r.lease).bind Lease.held with
  | none => (.done (.ok true), s)
  | some held =>
    (.paused (if r.forced then .removing (.ofHeld held) else .cancelling held),
      s.modifyLease r.lease fun l => { l with held := none })

/-- The timer of the lease is cancelled. -/
def cancel (r : Surrender) (held : Held) : Move Place (Result Bool) := fun s =>
  (.paused (.removing (.ofHeld held)),
    s.modifyLease r.lease fun l => { l with timer := .cancelled })

/-- What the giving up of a lease waits for at a place, and how it goes on. -/
def next (r : Surrender) : Place → Pending (Move Place (Result Bool))
  | .taking => ⟨.slot, fun _ => r.take⟩
  | .cancelling held => ⟨.slot, fun _ => r.cancel held⟩
  | .removing removal => removal.next.map fun step s => (step.map .removing id, s)

end Surrender

namespace Release

/-- Starts the release of a lease. A lease that is not active is left alone. -/
def start (id : LeaseId) : Move Surrender.Place (Except Error Bool) := fun s =>
  match s.lease? id with
  | none => (.done (.ok false), s)
  | some l =>
    if l.state = .active then
      (.paused .taking, s.modifyLease id fun l => { l with state := .released })
    else (.done (.ok false), s)

/-- The result of a release whose removal has ended. -/
def result (marker : Path) : Result Bool → Except Error Bool
  | .ok _ => .ok true
  | .error f => .error (.filesystem marker f)

/-- The result of a release of a lease that has to be active. -/
def strict (marker : Path) : Except Error Bool → Except Error Unit
  | .ok true => .ok ()
  | .ok false => .error (.lockNotHeld marker)
  | .error e => .error e

end Release

namespace Expiry

/-- Whether the timer of a lease is due. -/
def isDue (l : Lease) (now : Instant) : Bool :=
  match l.timer with
  | .armed deadline => deadline ≤ now
  | _ => false

/-- Runs the timer of a lease, and tells whether it has given an active lease up. -/
def start (id : LeaseId) : Shared → Bool × Shared := fun s =>
  match s.lease? id with
  | none => (false, s)
  | some l =>
    if l.state = .active then
      (true, s.modifyLease id fun l => { l with state := .released, timer := .fired })
    else (false, s.modifyLease id fun l => { l with timer := .fired })

end Expiry

end FileGateway

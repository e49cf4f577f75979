import FileGateway.Gateway.Shared

/-!
# Acquiring a lease

A lease is acquired by creating its marker:

* the store resolves the path of the marker;
* the guard of the resolved path is taken, and held to the end;
* the marker is created, either exclusively or by looking for it first;
* the diagnostics of this process are written into it.

Then the guard is left, and the lease notes what it holds, becomes active and starts its timer, one
after the other. Whoever finds the marker taken leaves the lease idle, and so does every failure. If
the diagnostics cannot be written, one attempt is made to remove the marker again.
-/

namespace FileGateway

/-- The acquisition of a lease through a store. The path of the marker is handed to the store as it
is here. The lease is to last for the `expiry` once it is active. -/
structure Acquire where
  lease : LeaseId
  marker : Path
  backend : Backend
  options : Options
  expiry : Duration
deriving DecidableEq

namespace Acquire

/-- A marker that is being created, and the ticket for the guard of its path. -/
structure Bid where
  marker : FileRef
  ticket : Ticket
deriving DecidableEq

/-- Where an acquisition waits. -/
inductive Place where
  -- for the store to resolve the path of the marker, and for the turn at its guard
  | resolving
  | queued (bid : Bid)
  -- for the marker: it is created exclusively, or looked for and created if there is none
  | creating (bid : Bid)
  | probing (bid : Bid)
  | filling (bid : Bid)
  -- for the new marker to be opened, written and completed, or removed if that has failed
  | opening (bid : Bid)
  | writing (bid : Bid) (stream : StreamId)
  | finishing (bid : Bid) (stream : StreamId)
  | cleaning (bid : Bid) (failure : Failure)
  -- to note what the lease holds, to make it active, to start its timer, or to make it idle again
  | holding (bid : Bid)
  | activating (bid : Bid)
  | arming
  | retreating (error : Option Error)
deriving DecidableEq

/-- The key of the guard of a marker. -/
def guardKey (a : Acquire) (marker : FileRef) : String :=
  a.backend.identity ++ marker.path.text

/-- Starts an acquisition. Only an idle lease can be acquired. -/
def start (a : Acquire) : Move Place (Except Error Bool) := fun s =>
  match s.lease? a.lease with
  | none => (.done (.ok false), s)
  | some l =>
    if l.state = .idle then
      (.paused .resolving, s.modifyLease a.lease fun l => { l with state := .acquiring })
    else (.done (.error l.notIdle), s)

/-- Goes on waiting at another place. -/
def waitAt (place : Place) : Move Place (Except Error Bool) := fun s => (.paused place, s)

/-- Lets the guard of a bid go, and goes on waiting at another place. -/
def leaveGuard (bid : Bid) (place : Place) : Move Place (Except Error Bool) := fun s =>
  (.paused place, { s with guards := s.guards.leave bid.ticket })

/-- Gives an acquisition that holds the guard up for a failed call about the marker. -/
def fail (a : Acquire) (bid : Bid) (failure : Failure) : Move Place (Except Error Bool) :=
  leaveGuard bid (.retreating (some (.filesystem a.marker failure)))

/-- The lease notes what it holds. -/
def hold (a : Acquire) (bid : Bid) : Move Place (Except Error Bool) := fun s =>
  (.paused (.activating bid),
    s.modifyLease a.lease fun l => { l with held := some ⟨a.backend, bid.marker⟩ })

/-- The lease becomes active. -/
def activate (a : Acquire) : Move Place (Except Error Bool) := fun s =>
  (.paused .arming, s.modifyLease a.lease fun l => { l with state := .active })

/-- Ends an acquisition with the lease: its timer starts, unless it was cancelled already. -/
def arm (a : Acquire) : Move Place (Except Error Bool) := fun s =>
  (.done (.ok true),
    (s.modifyLease a.lease fun l =>
      { l with timer := l.timer.arm (s.now + a.expiry.nanos) }).noteTimer a.lease)

/-- Ends an acquisition without the lease, which is idle again. -/
def retreat (a : Acquire) (error : Option Error) : Move Place (Except Error Bool) := fun s =>
  (.done (error.elim (.ok false) .error),
    s.modifyLease a.lease fun l => { l with state := .idle })

/-- The resolved marker's guard is asked for. -/
def enqueue (a : Acquire) (marker : FileRef) : Move Place (Except Error Bool) := fun s =>
  let (ticket, guards) := s.guards.arrive (a.guardKey marker)
  (.paused (.queued ⟨marker, ticket⟩), { s with guards := guards })

/-- What an acquisition waits for at a place, and how it goes on. -/
def next (a : Acquire) (writer : Diagnostics) : Place → Pending (Move Place (Except Error Bool))
  | .resolving =>
    ⟨.store a.backend (.resolve a.marker a.options), fun
      | .ok marker => a.enqueue marker
      | .error f => waitAt (.retreating (some (.filesystem a.marker f)))⟩
  | .queued bid =>
    ⟨.guard bid.ticket, fun _ =>
      waitAt (if a.backend.exclusiveCreate then .creating bid else .probing bid)⟩
  | .creating bid =>
    ⟨.store a.backend (.createExclusive bid.marker), fun
      | .ok true => waitAt (.opening bid)
      | .ok false => leaveGuard bid (.retreating none)
      | .error f => a.fail bid f⟩
  | .probing bid =>
    ⟨.store a.backend (.probe bid.marker), fun
      | .ok true => leaveGuard bid (.retreating none)
      | .ok false => waitAt (.filling bid)
      | .error f => a.fail bid f⟩
  | .filling bid =>
    ⟨.store a.backend (.createFile bid.marker), fun
      | .ok () => waitAt (.opening bid)
      | .error f => a.fail bid f⟩
  | .opening bid =>
    ⟨.store a.backend (.openWrite bid.marker false), fun
      | .ok stream => waitAt (.writing bid stream)
      | .error f => waitAt (.cleaning bid f)⟩
  | .writing bid stream =>
    ⟨.store a.backend (.write stream writer.text.toUTF8.toList), fun
      | .ok () => waitAt (.finishing bid stream)
      | .error f => waitAt (.cleaning bid f)⟩
  | .finishing bid stream =>
    ⟨.store a.backend (.finish stream), fun
      | .ok () => leaveGuard bid (.holding bid)
      | .error f => waitAt (.cleaning bid f)⟩
  | .cleaning bid failure =>
    ⟨.store a.backend (.delete bid.marker), fun _ => a.fail bid failure⟩
  | .holding bid => ⟨.slot, fun _ => a.hold bid⟩
  | .activating _ => ⟨.slot, fun _ => a.activate⟩
  | .arming => ⟨.slot, fun _ => a.arm⟩
  | .retreating error => ⟨.slot, fun _ => a.retreat error⟩

end Acquire

end FileGateway

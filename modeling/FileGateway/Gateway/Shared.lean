import FileGateway.Lease.Basic
import FileGateway.Lease.Guards
import FileGateway.Gateway.Request
import FileGateway.Registry

/-!
# Shared state

What the activities of one gateway share: the clock, the live connections, the leases and the path
guards. An activity changes it only between two pauses, so nothing comes in between.
-/

namespace FileGateway

/-- What the activities of a gateway share. The number of a lease is its place in the list of all
that were ever made; `timers` are those whose timer was started, in that order. The gateway writes
`writer` into its markers. -/
structure Shared where
  now : Instant
  registry : Registry
  leases : List Lease
  timers : List LeaseId
  guards : Guards
  writer : Diagnostics
deriving DecidableEq

namespace Shared

/-- A gateway that has done nothing yet. -/
def start (writer : Diagnostics) : Shared :=
  ⟨0, .empty, [], [], .empty, writer⟩

/-- A lease by its number. -/
def lease? (s : Shared) (id : LeaseId) : Option Lease :=
  s.leases[id]?

/-- Changes a lease. -/
def modifyLease (s : Shared) (id : LeaseId) (change : Lease → Lease) : Shared :=
  { s with leases := s.leases.modify id change }

/-- Notes that the timer of a lease was started. -/
def noteTimer (s : Shared) (id : LeaseId) : Shared :=
  { s with timers := s.timers ++ [id] }

/-- Numbers a new lease. -/
def addLease (s : Shared) (l : Lease) : LeaseId × Shared :=
  (s.leases.length, { s with leases := s.leases ++ [l] })

/-- A handle by its number. -/
def handle? (s : Shared) (id : HandleId) : Option Handle :=
  s.registry.handle? id

/-- Changes a handle. -/
def modifyHandle (s : Shared) (id : HandleId) (change : Handle → Handle) : Shared :=
  { s with registry := s.registry.modify id change }

end Shared

/-- What an answer makes of an activity: a step, taken on the shared state. -/
abbrev Move (π ρ : Type) : Type :=
  Shared → Step π ρ × Shared

end FileGateway

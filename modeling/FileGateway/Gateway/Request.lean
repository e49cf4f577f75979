import FileGateway.Lease.Guards
import FileGateway.Store.Call

/-!
# Requests

An activity of the gateway goes on by itself until it needs an answer from outside: from a backing
store, from the caller's source or sink, or from the queue of a path guard. There it pauses. What it
asks for is a request; a paused activity is a request and what an answer makes of it.

An activity also pauses between two changes of what it shares with others, if others may come in
between. It asks for nothing then but a slot to go on in.
-/

namespace FileGateway

/-- What an activity waits for: the answer of a store to a call, the turn of a ticket to hold its
guard, the next piece of the caller's source, of which the empty piece is the end, or that the
caller's sink has taken a piece or has passed on all it took.

With `slot` nothing is asked for, but others may go on before the activity does. -/
inductive Request where
  | store (backend : Backend) (call : StoreCall)
  | guard (ticket : Ticket)
  | slot
  | pull
  | push (piece : Bytes)
  | flush
deriving DecidableEq

/-- What a request is answered with. -/
@[reducible] def Request.Answer : Request → Type
  | store _ call => call.Answer
  | guard _ => Unit
  | slot => Unit
  | pull => Result Bytes
  | push _ => Result Unit
  | flush => Result Unit

/-- A paused activity: its request, and what an answer makes of the activity. -/
structure Pending (α : Type) where
  request : Request
  resume : request.Answer → α

/-- A paused activity as part of a wider one. -/
def Pending.map {α β : Type} (f : α → β) (p : Pending α) : Pending β :=
  ⟨p.request, fun answer => f (p.resume answer)⟩

/-- Where an activity has come to: a place where it waits, or its result. -/
inductive Step (π ρ : Type) where
  | paused (place : π)
  | done (result : ρ)
deriving DecidableEq

/-- A step of an activity as a step of a wider one. -/
def Step.map {π ρ π' ρ' : Type} (place : π → π') (result : ρ → ρ') : Step π ρ → Step π' ρ'
  | paused p => paused (place p)
  | done r => done (result r)

end FileGateway

import FileGateway.Gateway.Basic

/-!
# Driving a gateway

A gateway that has one caller is driven by answering its requests one after the other. Timers that
have become due meanwhile run first, so that a lease is given up on time even during a long copy.
-/

namespace FileGateway.Gateway

variable {m : Type → Type} [Monad m]

/-- The task whose request is answered next: a background task that waits for an answer, or else the
task that is driven. -/
def nextTask (g : Gateway) (id : TaskId) : TaskId :=
  ((List.range g.tasks.length).find? fun other =>
    ((g.task? other).map Task.isBackground).getD false && (g.pending? other).isSome).getD id

/-- Drives a task to its end, with at most `fuel` answers. -/
def drive (answer : (request : Request) → m request.Answer) (clock : m Instant) (id : TaskId) :
    Nat → Gateway → m Gateway
  | 0, g => return g
  | fuel + 1, g => do
    let g := (g.advanceTo (← clock)).fireDue
    match g.pending? (g.nextTask id) with
    | none => return g
    | some pending => drive answer clock id fuel (pending.resume (← answer pending.request))

end FileGateway.Gateway

import FileGateway.Operation.Basic

/-!
# Tasks

A task is one activity of a gateway from its start to its result: a call of the library, the removal
that a timer has started, or the closing of a handle. It waits at one request at a time.
-/

namespace FileGateway

/-- What a finished task has ended with. A shutdown tells how many handles were evicted and
closed. -/
inductive TaskResult where
  | acquired (result : Except Error Bool)
  | released (result : Except Error Bool)
  | releasedStrictly (result : Except Error Unit)
  | expired (result : Result Bool)
  | resolved (result : Except Error FileRef)
  | operated (result : Except Error Effect)
  | closed (result : Result Unit)
  | evicted (count : Nat)

/-- An activity, and where it waits.

It is the timer of a lease that is `expiring`. The store of a handle is closed in the background if
nobody waits for it; a shutdown that is `evicting` closes the store of the first handle, and then
those of the rest. -/
inductive Task where
  | acquiring (acquire : Acquire) (place : Acquire.Place)
  | releasing (lease : LeaseId) (marker : Path) (strict : Bool) (place : Surrender.Place)
  | expiring (lease : LeaseId) (place : Surrender.Place)
  | resolving (resolve : Resolve)
  | operating (handle : HandleId) (place : Operation.Place)
  | closing (handle : HandleId) (background : Bool)
  | evicting (handle : HandleId) (rest : List HandleId) (count : Nat)
  | finished (result : TaskResult)

namespace Task

/-- A step of an activity as a task. -/
def ofStep {π ρ : Type} (place : π → Task) (result : ρ → TaskResult) : Step π ρ → Task
  | .paused p => place p
  | .done r => finished (result r)

/-- The task of an acquisition. -/
def ofAcquire (a : Acquire) : Step Acquire.Place (Except Error Bool) → Task :=
  ofStep (acquiring a) .acquired

/-- The result of a release. -/
def releaseResult (marker : Path) (strict : Bool) (result : Except Error Bool) : TaskResult :=
  if strict then .releasedStrictly (Release.strict marker result) else .released result

/-- The task of a release. -/
def ofRelease (lease : LeaseId) (marker : Path) (strict : Bool) :
    Step Surrender.Place (Except Error Bool) → Task :=
  ofStep (releasing lease marker strict) (releaseResult marker strict)

/-- The task of an operation. When it is done, its handle gets its options back. -/
def ofOperation (id : HandleId) (step : Step Operation.Place (Except Error Effect)) (s : Shared) :
    Task × Shared :=
  match step with
  | .paused place => (operating id place, s)
  | .done result => (finished (.operated result), { s with registry := s.registry.giveBack id })

/-- The task of closing a list of handles. -/
def ofEvicted (count : Nat) : List HandleId → Task
  | [] => finished (.evicted count)
  | id :: rest => evicting id rest count

/-- The store of a handle. -/
def backendOf (s : Shared) (id : HandleId) : Backend :=
  ((s.handle? id).map Handle.backend).getD default

/-- What closing a handle ends with. -/
def closeResult (s : Shared) (id : HandleId) : Result Unit → Result Unit
  | .ok () => .ok ()
  | .error f => .error (((s.handle? id).map fun h => h.closeFailure f).getD f)

/-- Whether nobody waits for the result of a task. -/
def isBackground : Task → Bool
  | expiring _ _ => true
  | closing _ background => background
  | _ => false

/-- What a task waits for, and how it goes on. A finished task waits for nothing. -/
def next? (s : Shared) : Task → Option (Pending (Shared → Task × Shared))
  | acquiring a place =>
    some ((a.next s.writer place).map fun move s =>
      let (step, s) := move s
      (ofAcquire a step, s))
  | releasing lease marker strict place =>
    some ((Surrender.next ⟨lease, false⟩ place).map fun move s =>
      let (step, s) := move s
      (ofRelease lease marker strict (step.map id (Release.result marker)), s))
  | expiring lease place =>
    some ((Surrender.next ⟨lease, true⟩ place).map fun move s =>
      let (step, s) := move s
      (ofStep (expiring lease) .expired step, s))
  | resolving r =>
    some (r.next.map fun move s =>
      let (step, s) := move s
      (ofStep resolving .resolved step, s))
  | operating id place =>
    some ((Operation.next id s.writer place).map fun move s =>
      let (step, s) := move s
      ofOperation id step s)
  | closing id _ =>
    some ⟨.store (backendOf s id) .close, fun answer s =>
      (finished (.closed (closeResult s id answer)), s)⟩
  | evicting id rest count =>
    some ⟨.store (backendOf s id) .close, fun _ s => (ofEvicted count rest, s)⟩
  | finished _ => none

end Task

end FileGateway

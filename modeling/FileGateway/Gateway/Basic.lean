import FileGateway.Gateway.Task

/-!
# Gateways

A gateway is its shared state and its tasks. It moves by events from outside: a call of the library
starts a task or changes the shared state at once, an answer lets a task go on to its next request,
a due timer gives its lease up, and the clock advances. Between two events nothing happens, so the
order of events is all there is to the interleaving of tasks.

A process that runs a gateway aborts when a failure suspends a connection for too long for the clock
(`Gateway.isAborted`). From then on there are no events in it. The events of a gateway may go on, so
what holds after all sequences of events holds in particular up to there.
-/

namespace FileGateway

/-- The number of a task. -/
abbrev TaskId := Nat

/-- The state of a gateway. Every task that was started is listed, and its number is its place in
the list. -/
structure Gateway where
  shared : Shared
  tasks : List Task

namespace Gateway

/-- A gateway that has done nothing yet. -/
def start (writer : Diagnostics) : Gateway :=
  ⟨.start writer, []⟩

/-- A task by its number. -/
def task? (g : Gateway) (id : TaskId) : Option Task :=
  g.tasks[id]?

/-- The result of a task that is finished. -/
def result? (g : Gateway) (id : TaskId) : Option TaskResult :=
  match g.task? id with
  | some (.finished result) => some result
  | _ => none

/-- Whether the process that runs the gateway has aborted. -/
def isAborted (g : Gateway) : Bool :=
  g.shared.registry.built.any fun h => h.policy.overflows

/-- Adds a task. -/
def add (g : Gateway) (task : Task) (s : Shared) : TaskId × Gateway :=
  (g.tasks.length, ⟨s, g.tasks ++ [task]⟩)

/-! ## Calls that start a task -/

/-- Starts to acquire a lease through a store. -/
def acquire (g : Gateway) (id : LeaseId) (backend : Backend) (options : Options)
    (expiry : Duration) : TaskId × Gateway :=
  let marker := ((g.shared.lease? id).map Lease.marker).getD default
  let a : Acquire := ⟨id, marker, backend, options, expiry⟩
  let (step, s) := a.start g.shared
  g.add (.ofAcquire a step) s

/-- Starts to release a lease; if `strict`, a lease that is not active is an error. -/
def release (g : Gateway) (id : LeaseId) (strict : Bool) : TaskId × Gateway :=
  let marker := ((g.shared.lease? id).map Lease.marker).getD default
  let (step, s) := Release.start id g.shared
  g.add (.ofRelease id marker strict step) s

/-- Starts to resolve a path on a handle. -/
def resolve (g : Gateway) (id : HandleId) (path : Path) : TaskId × Gateway :=
  let (step, s) := Resolve.start id path g.shared
  g.add (.ofStep .resolving .resolved step) s

/-- Starts an operation on a connection of a deployment. -/
def operate (g : Gateway) (d : Deployment) (key : ConnectionKey) (action : Action) (path : Path) :
    TaskId × Gateway :=
  let creation := d.provide g.shared.registry key
  let s := { g.shared with registry := creation.registry }
  match creation.handle with
  | .error e => g.add (.finished (.operated (.error e))) s
  | .ok id =>
    let (step, s) := Operation.start action id path s
    let (task, s) := Task.ofOperation id step s
    g.add task s

/-- Starts to close the store of a handle. -/
def close (g : Gateway) (id : HandleId) : TaskId × Gateway :=
  g.add (.closing id false) g.shared

/-- Takes the handles of a namespace out of the registry and starts to close them. -/
def shutdown (g : Gateway) (space : String) : TaskId × Gateway :=
  let (evicted, registry) := g.shared.registry.evict space
  g.add (.ofEvicted evicted.length evicted) { g.shared with registry := registry }

/-! ## Calls that end at once -/

/-- Makes a lease on a target. -/
def addLease (g : Gateway) (target : Path) : Except Error (LeaseId × Gateway) :=
  (Lease.fresh target).map fun lease =>
    let (id, s) := g.shared.addLease lease
    (id, { g with shared := s })

/-- Takes a creation over. A handle that was built in vain is closed in the background. -/
def create (g : Gateway) (c : Registry.Creation) : Except Error HandleId × Gateway :=
  let s := { g.shared with registry := c.registry }
  match c.discarded with
  | some id => (c.handle, (g.add (.closing id true) s).2)
  | none => (c.handle, { g with shared := s })

/-! ## Events -/

/-- Whether a request can be answered as far as the gateway decides: a guard has to be held. -/
def isOpen (s : Shared) : Request → Bool
  | .guard ticket => s.guards.holds ticket
  | _ => true

/-- The request a task waits for, with what an answer makes of the gateway. A task that waits for
its turn at a guard has none. -/
def pending? (g : Gateway) (id : TaskId) : Option (Pending Gateway) :=
  match (g.task? id).bind (Task.next? g.shared) with
  | none => none
  | some pending =>
    if isOpen g.shared pending.request then
      some (pending.map fun go =>
        let (task, s) := go g.shared
        ⟨s, g.tasks.set id task⟩)
    else none

/-- Runs the timer of a lease, if it is due. -/
def fire (g : Gateway) (id : LeaseId) : Gateway :=
  match g.shared.lease? id with
  | none => g
  | some l =>
    if Expiry.isDue l g.shared.now then
      match Expiry.start id g.shared with
      | (true, s) => (g.add (.expiring id .taking) s).2
      | (false, s) => { g with shared := s }
    else g

/-- The timers that are due, those that were started first to the front. -/
def dueTimers (g : Gateway) : List LeaseId :=
  g.shared.timers.filter fun id =>
    match g.shared.lease? id with
    | some lease => Expiry.isDue lease g.shared.now
    | none => false

/-- Runs the timers that are due. -/
def fireDue (g : Gateway) : Gateway :=
  g.dueTimers.foldl fire g

/-- The clock advances to a later moment. -/
def advanceTo (g : Gateway) (now : Instant) : Gateway :=
  { g with shared := { g.shared with now := max g.shared.now now } }

end Gateway

end FileGateway

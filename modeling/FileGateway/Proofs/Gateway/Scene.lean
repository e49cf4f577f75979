import FileGateway.Proofs.Gateway.Calls
import FileGateway.Proofs.Gateway.Realm

/-!
# Scenes

A scene is a gateway in a world, at any moment of any interleaving. Its events are the smallest
there are: a call of the library starts, a timer runs, the clock advances, the world acts on the
request of one task, or one task is given its answer and goes on to its next request. An answer
that was not given yet lies in the inbox of its task, so that anything can happen between what a
call does and the moment at which its caller knows.

Every event makes one of a few changes, and `Scene.step_changes` says which. Invariants of scenes
are proved from these changes, and of runs by `Scene.run_induction`.
-/

namespace FileGateway

/-- What has happened in a scene: the world has acted on the request of a task, or a task has gone
on with an answer. -/
inductive Entry where
  | served (id : TaskId) (task : Task) (reply : Reply)
  | resumed (id : TaskId) (task : Task) (reply : Reply)

/-- A gateway in a world. In the `inbox` are the answers that were not given to their tasks yet,
and the `history` is what has happened so far, the latest first. -/
structure Scene (ε : Type) where
  gateway : Gateway
  world : ε
  inbox : TaskId → Option Reply
  history : List Entry

/-- What can happen in a scene. The world serves the request of a task at one moment, and at a
later one the answer is delivered to the task, which goes on; timers fire in between. -/
inductive Event where
  | call (call : Call)
  | fire (lease : LeaseId)
  | advance (now : Instant)
  | serve (id : TaskId)
  | deliver (id : TaskId)

namespace Scene

variable {ε : Type}

/-- A gateway that has done nothing yet, in any world. -/
def start (writer : Diagnostics) (world : ε) : Scene ε :=
  ⟨.start writer, world, fun _ => none, []⟩

/-- The world acts on the request of a task. -/
def serve (w : World ε) (c : Scene ε) (id : TaskId) : Scene ε :=
  match c.gateway.task? id, c.gateway.pending? id, c.inbox id with
  | some t, some p, none =>
    let (answer, world) := w.answer id p.request c.world
    { c with
      world := world
      inbox := Function.update c.inbox id (some ⟨p.request, answer⟩)
      history := .served id t ⟨p.request, answer⟩ :: c.history }
  | _, _, _ => c

/-- A task is given its answer. -/
def deliver (c : Scene ε) (id : TaskId) : Scene ε :=
  match c.gateway.task? id, c.gateway.pending? id, c.inbox id with
  | some t, some p, some ⟨request, answer⟩ =>
    if h : request = p.request then
      { c with
        gateway := p.resume (h ▸ answer)
        inbox := Function.update c.inbox id none
        history := .resumed id t ⟨request, answer⟩ :: c.history }
    else c
  | _, _, _ => c

/-- What an event makes of a scene. An event that cannot happen changes nothing. -/
def step (w : World ε) (c : Scene ε) : Event → Scene ε
  | .call call => { c with gateway := c.gateway.call call }
  | .fire lease => { c with gateway := c.gateway.fire lease }
  | .advance now => { c with gateway := c.gateway.advanceTo now }
  | .serve id => c.serve w id
  | .deliver id => c.deliver id

/-- What a sequence of events makes of a scene. -/
def run (w : World ε) (c : Scene ε) (events : List Event) : Scene ε :=
  events.foldl (step w) c

/-- What an event changes: nothing; something begins; the world acts on a request; or a task goes
on. -/
inductive Changes (w : World ε) (c : Scene ε) : Scene ε → Prop where
  | nothing : Changes w c c
  | starts (d : Option LeaseOp) (g : Gateway) (starts : c.gateway.Starts c.gateway.tasks.length d g)
      (grows : c.gateway.Grows g) : Changes w c { c with gateway := g }
  | serves (id : TaskId) (t : Task) (p : Pending Gateway) (task : c.gateway.task? id = some t)
      (pending : c.gateway.pending? id = some p) (inbox : c.inbox id = none) :
    Changes w c
      { c with
        world := (w.answer id p.request c.world).2
        inbox := Function.update c.inbox id (some ⟨p.request, (w.answer id p.request c.world).1⟩)
        history := .served id t ⟨p.request, (w.answer id p.request c.world).1⟩ :: c.history }
  | resumes (id : TaskId) (t : Task) (p : Pending Gateway) (answer : p.request.Answer)
      (task : c.gateway.task? id = some t) (pending : c.gateway.pending? id = some p)
      (inbox : c.inbox id = some ⟨p.request, answer⟩) :
    Changes w c
      { c with
        gateway := p.resume answer
        inbox := Function.update c.inbox id none
        history := .resumed id t ⟨p.request, answer⟩ :: c.history }

theorem step_changes (w : World ε) (c : Scene ε) (e : Event) : Changes w c (c.step w e) := by
  cases e with
  | call call =>
    obtain ⟨d, h⟩ := c.gateway.starts_call call
    exact .starts d _ h (c.gateway.grows_call call)
  | fire lease =>
    obtain ⟨d, h⟩ := c.gateway.starts_fire lease
    exact .starts d _ h (c.gateway.grows_fire lease)
  | advance now =>
    -- the clock is no matter of leases
    exact .starts none _ (Gateway.starts_shared (.nothing ⟨rfl, rfl⟩)) (Or.inl rfl)
  | serve id =>
    simp only [step, serve]
    split
    · next t p ht hp hin => exact .serves id t p ht hp hin
    · exact .nothing
  | deliver id =>
    simp only [step, deliver]
    split
    · next t p request answer ht hp hin =>
      -- what lies in the inbox is the answer to what the task waits for, or is not given to it
      split
      · next hrequest =>
        subst hrequest
        exact .resumes id t p answer ht hp hin
      · exact .nothing
    · exact .nothing

/-- What holds at the start and is kept by every change holds at all times. -/
theorem run_induction {w : World ε} {c : Scene ε} {P : Scene ε → Prop} (start : P c)
    (step : ∀ c c', P c → Changes w c c' → P c') (events : List Event) : P (c.run w events) := by
  induction events generalizing c with
  | nil => exact start
  | cons e events ih => exact ih (step c _ start (step_changes w c e))

end Scene

end FileGateway

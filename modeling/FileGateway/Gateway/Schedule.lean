import FileGateway.Gateway.Basic

/-!
# Schedules

A schedule runs a gateway in a world that answers its requests, each after a time of the world's own
choosing. Time is virtual: it stands still while anything can go on, and then moves to the next
moment at which an answer comes or a timer is due, and never past one.

At one moment the tasks go on in rounds. In a round every task that can go on does so once, in the
order of their numbers, and runs until it has to wait. Tasks that somebody waits for come first; due
timers and background tasks follow, and then the next round.
-/

namespace FileGateway

/-- What answers the requests of a gateway. `ε` is the state of the world. When a request is made,
`begin` tells how long the answer takes, in nanoseconds, and `answer` gives it when that time has
passed. -/
structure World (ε : Type) where
  begin : TaskId → Request → ε → Nat × ε
  answer : TaskId → (request : Request) → ε → request.Answer × ε

/-- A gateway in its world. The tasks whose request was made and takes time are listed with the
moment at which the answer comes. -/
structure Run (ε : Type) where
  gateway : Gateway
  world : ε
  due : List (TaskId × Instant)

namespace Run

variable {ε : Type}

/-- A gateway that starts in a world. -/
def start (gateway : Gateway) (world : ε) : Run ε :=
  ⟨gateway, world, []⟩

/-- The moment a run has come to. -/
def now (run : Run ε) : Instant :=
  run.gateway.shared.now

/-- When the answer to the request of a task comes, if it was made and takes time. -/
def dueAt? (run : Run ε) (id : TaskId) : Option Instant :=
  run.due.lookup id

/-- Whether a task can go on at this moment. -/
def isReady (run : Run ε) (id : TaskId) : Bool :=
  match run.dueAt? id with
  | some moment => moment ≤ run.now
  | none => (run.gateway.pending? id).isSome

/-- The numbers of the tasks that nobody waits for, or of all others. -/
def ids (run : Run ε) (background : Bool) : List TaskId :=
  (List.range run.gateway.tasks.length).filter fun id =>
    ((run.gateway.task? id).map Task.isBackground).getD false == background

/-- Whether anything can go on at this moment. -/
def isBusy (run : Run ε) : Bool :=
  !run.gateway.dueTimers.isEmpty || (List.range run.gateway.tasks.length).any run.isReady

/-! ## Going on -/

/-- Makes the request of a task and goes on with its answer, until an answer takes time, the task
has to wait for a guard, or it is finished. At most `fuel` requests are answered. -/
def goOn (w : World ε) (id : TaskId) : Nat → Run ε → Run ε
  | 0, run => run
  | fuel + 1, run =>
    match run.gateway.pending? id with
    | none => run
    | some pending =>
      let (delay, world) := w.begin id pending.request run.world
      if delay = 0 then
        let (answer, world) := w.answer id pending.request world
        goOn w id fuel { run with gateway := pending.resume answer, world := world }
      else { run with world := world, due := run.due ++ [(id, run.now + delay)] }

/-- Answers the request of a task whose time has come. -/
def answerDue (w : World ε) (id : TaskId) (run : Run ε) : Run ε :=
  let run := { run with due := run.due.filter fun entry => entry.1 ≠ id }
  match run.gateway.pending? id with
  | none => run
  | some pending =>
    let (answer, world) := w.answer id pending.request run.world
    { run with gateway := pending.resume answer, world := world }

/-- A task goes on if it can. -/
def visit (w : World ε) (fuel : Nat) (run : Run ε) (id : TaskId) : Run ε :=
  match run.dueAt? id with
  | some moment => if moment ≤ run.now then goOn w id fuel (answerDue w id run) else run
  | none => goOn w id fuel run

/-- One round of all tasks. -/
def round (w : World ε) (fuel : Nat) (run : Run ε) : Run ε :=
  let run := (run.ids false).foldl (visit w fuel) run
  let run := { run with gateway := run.gateway.fireDue }
  (run.ids true).foldl (visit w fuel) run

/-- Everything that can go on at this moment does so. -/
def settle (w : World ε) : Nat → Run ε → Run ε
  | 0, run => run
  | fuel + 1, run => if run.isBusy then settle w fuel (round w (fuel + 1) run) else run

/-! ## Time -/

/-- The moments at which something will go on by itself. -/
def moments (run : Run ε) : List Instant :=
  run.due.map Prod.snd ++ run.gateway.shared.leases.filterMap fun lease =>
    match lease.timer with
    | .armed deadline => some deadline
    | _ => none

/-- The next of these moments. -/
def nextMoment? (run : Run ε) : Option Instant :=
  run.moments.min?

/-- The clock advances. -/
def advanceTo (run : Run ε) (moment : Instant) : Run ε :=
  { run with gateway := run.gateway.advanceTo moment }

/-- Whether tasks are finished. -/
def areFinished (run : Run ε) (tasks : List TaskId) : Bool :=
  tasks.all fun id => (run.gateway.result? id).isSome

/-- Runs until tasks are finished, and everything that then can go on has done so. -/
def await (w : World ε) (tasks : List TaskId) : Nat → Run ε → Run ε
  | 0, run => run
  | fuel + 1, run =>
    let run := settle w (fuel + 1) run
    if run.areFinished tasks then run
    else
      match run.nextMoment? with
      | none => run
      | some moment => await w tasks fuel (run.advanceTo moment)

/-- Runs up to a moment; what is due at it has been done. -/
def passTo (w : World ε) (target : Instant) : Nat → Run ε → Run ε
  | 0, run => run
  | fuel + 1, run =>
    let run := settle w (fuel + 1) run
    match run.nextMoment? with
    | none => run.advanceTo target
    | some moment =>
      if moment ≤ target then passTo w target fuel (run.advanceTo moment)
      else run.advanceTo target

end Run

end FileGateway

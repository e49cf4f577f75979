import FileGateway.CommandLine.Execute
import FileGateway.Gateway.Schedule
import FileGateway.Proofs.Disk.Answers

/-!
# One activity alone on the disk

While nobody else is about, an activity of a gateway on the local disk is a sequence of turns: time
passes, the request is answered from the volume or by the caller, and the activity goes on. What it
comes to is said by `Solo.Leads`: after so many answers at most, however long each of them takes, it
ends with a result that fits. There is a rule for each kind of request, and one for an activity that
is part of a wider one (`Leads.within`); `Leads.carry` says what it means for the run of a gateway.
-/

namespace FileGateway

open CommandLine (Transfer)

/-- The disk of a volume, and the caller's ends of a transfer. All requests are answered at once. -/
def diskWorld : World (Transfer × Volume) where
  begin _ _ w := (0, w)
  answer _ request w :=
    let answered :=
      (CommandLine.answer request : StateT Transfer (StateM Volume) request.Answer) w.1 w.2
    (answered.1.1, answered.1.2, answered.2)

/-- A task is carried on from one moment to the next: whenever one has come, the request of the task
is answered, if it has one. -/
def Run.carry {ε : Type} (w : World ε) (id : TaskId) (run : Run ε) (moments : List Instant) :
    Run ε :=
  moments.foldl (fun run now => (run.advanceTo now).goOn w id 1) run

/-- What an activity finds that is alone on the disk. -/
structure Solo where
  shared : Shared
  transfer : Transfer
  volume : Volume

namespace Solo

variable {π ρ π' ρ' : Type} {next : Diagnostics → π → Pending (Move π ρ)} {Q : ρ → Solo → Prop}
  {n : Nat} {place : π} {step : Step π ρ} {x : Solo}

/-- The same at another moment. -/
def atTime (x : Solo) (now : Instant) : Solo :=
  { x with shared := { x.shared with now := now } }

/-- The request of an activity is answered, and it goes on. -/
def turn (next : Diagnostics → π → Pending (Move π ρ)) (place : π) (x : Solo) :
    Step π ρ × Solo :=
  let pending := next x.shared.writer place
  let answered := diskWorld.answer 0 pending.request (x.transfer, x.volume)
  let moved := pending.resume answered.1 x.shared
  (moved.1, ⟨moved.2, answered.2.1, answered.2.2⟩)

/-- After at most so many answers, at whatever moments they come, an activity has ended with a
result that fits. -/
inductive Leads (next : Diagnostics → π → Pending (Move π ρ)) (Q : ρ → Solo → Prop) :
    Nat → Step π ρ → Solo → Prop where
  | done {n : Nat} {r : ρ} {x : Solo} (fits : Q r x) : Leads next Q n (.done r) x
  | paused {n : Nat} {place : π} {x : Solo}
      (isOpen : Gateway.isOpen x.shared (next x.shared.writer place).request = true)
      (goesOn : ∀ now, Leads next Q n (turn next place (x.atTime now)).1
        (turn next place (x.atTime now)).2) :
      Leads next Q (n + 1) (.paused place) x

/-! ## Rules -/

theorem Leads.mono {m : Nat} (h : Leads next Q n step x) (hle : n ≤ m) : Leads next Q m step x := by
  induction h generalizing m with
  | done fits => exact .done fits
  | paused isOpen goesOn ih =>
    cases m with
    | zero => exact absurd hle (Nat.not_succ_le_zero _)
    | succ m => exact .paused isOpen fun now => ih now (Nat.le_of_succ_le_succ hle)

/-- What a turn makes of an activity, by its request and the answer. -/
theorem turn_eq {request : Request} {resume : request.Answer → Move π ρ} {answer : request.Answer}
    {transfer : Transfer} {volume : Volume}
    (hnext : next x.shared.writer place = ⟨request, resume⟩)
    (hanswer : diskWorld.answer 0 request (x.transfer, x.volume) = (answer, transfer, volume)) :
    turn next place x =
      ((resume answer x.shared).1, ⟨(resume answer x.shared).2, transfer, volume⟩) := by
  simp only [turn]
  rw [hnext]
  simp only [hanswer]

/-- An activity is given an answer, at some moment, and goes on. -/
theorem Leads.answered {request : Request} {resume : request.Answer → Move π ρ}
    {answer : request.Answer} {transfer : Transfer} {volume : Volume}
    (hnext : next x.shared.writer place = ⟨request, resume⟩)
    (hopen : Gateway.isOpen x.shared request = true)
    (hanswer : diskWorld.answer 0 request (x.transfer, x.volume) = (answer, transfer, volume))
    (goesOn : ∀ now, Leads next Q n (resume answer (x.atTime now).shared).1
      ⟨(resume answer (x.atTime now).shared).2, transfer, volume⟩) :
    Leads next Q (n + 1) (.paused place) x := by
  refine .paused ?_ fun now => ?_
  · rwa [hnext]
  · have hturn : turn next place (x.atTime now) = _ := turn_eq hnext hanswer
    rw [hturn]
    exact goesOn now

/-- A call to a store is answered by the volume. -/
theorem Leads.store {backend : Backend} {call : StoreCall} {resume : call.Answer → Move π ρ}
    {answer : call.Answer} {volume : Volume}
    (hnext : next x.shared.writer place = ⟨.store backend call, resume⟩)
    (hreply : DiskStore.reply call x.volume = (answer, volume))
    (goesOn : ∀ now, Leads next Q n (resume answer (x.atTime now).shared).1
      ⟨(resume answer (x.atTime now).shared).2, x.transfer, volume⟩) :
    Leads next Q (n + 1) (.paused place) x := by
  have hanswer : diskWorld.answer 0 (.store backend call) (x.transfer, x.volume) =
      ((DiskStore.reply call x.volume).1, x.transfer, (DiskStore.reply call x.volume).2) := rfl
  rw [hreply] at hanswer
  exact .answered hnext rfl hanswer goesOn

/-! ## Activities within activities -/

/-- A step of an activity as a step of a wider one, which goes on when the activity has ended. -/
def lift (widen : π → π') (finish : ρ → Move π' ρ') : Step π ρ × Shared → Step π' ρ' × Shared
  | (.paused place, s) => (.paused (widen place), s)
  | (.done r, s) => finish r s

/-- An activity leads a wider one to where it goes on from when the activity has ended. -/
theorem Leads.within {outer : Diagnostics → π' → Pending (Move π' ρ')} {Q' : ρ' → Solo → Prop}
    {widen : π → π'} {finish : ρ → Move π' ρ'} {m : Nat} (h : Leads next Q n step x)
    (hnext : ∀ writer place, outer writer (widen place) =
      (next writer place).map fun move s => lift widen finish (move s))
    (hfinish : ∀ r y, Q r y →
      Leads outer Q' m (finish r y.shared).1 ⟨(finish r y.shared).2, y.transfer, y.volume⟩) :
    Leads outer Q' (n + m) (lift widen finish (step, x.shared)).1
      ⟨(lift widen finish (step, x.shared)).2, x.transfer, x.volume⟩ := by
  induction h with
  | @done n r x fits => exact (hfinish r x fits).mono (Nat.le_add_left m n)
  | @paused n place x isOpen goesOn ih =>
    rw [Nat.add_right_comm]
    refine .paused ?_ fun now => ?_
    · rw [hnext]
      exact isOpen
    · have hturn : turn outer (widen place) (x.atTime now) =
          ((lift widen finish ((turn next place (x.atTime now)).1,
              (turn next place (x.atTime now)).2.shared)).1,
            ⟨(lift widen finish ((turn next place (x.atTime now)).1,
              (turn next place (x.atTime now)).2.shared)).2,
              (turn next place (x.atTime now)).2.transfer,
              (turn next place (x.atTime now)).2.volume⟩) := by
        simp only [turn]
        rw [hnext]
        rfl
      exact hturn ▸ ih now

/-! ## Runs of a gateway -/

/-- The run of a gateway in which an activity is the latest task. -/
def among (x : Solo) (tasks : List Task) (task : Task) (due : List (TaskId × Instant)) :
    Run (Transfer × Volume) :=
  ⟨⟨x.shared, tasks ++ [task]⟩, (x.transfer, x.volume), due⟩

/-- A step of an activity as a task, which ends when the activity has ended. -/
def taskOf (widen : π → Task) (finish : ρ → Shared → TaskResult × Shared) :
    Step π ρ × Shared → Task × Shared
  | (.paused place, s) => (widen place, s)
  | (.done r, s) => (.finished (finish r s).1, (finish r s).2)

variable {tasks : List Task} {task : Task} {due : List (TaskId × Instant)}

theorem task?_among : (x.among tasks task due).gateway.task? tasks.length = some task := by
  simp [among, Gateway.task?]

theorem advanceTo_among (now : Instant) : (x.among tasks task due).advanceTo now =
    (x.atTime (max x.shared.now now)).among tasks task due :=
  rfl

/-- A task that waits for nothing is not carried anywhere, but time passes. -/
theorem carry_still {ε : Type} (w : World ε) (run : Run ε) (id : TaskId)
    (h : ∀ s, (run.gateway.task? id).bind (Task.next? s) = none) (moments : List Instant) :
    ∃ now, run.carry w id moments = ⟨⟨{ run.gateway.shared with now := now }, run.gateway.tasks⟩,
      run.world, run.due⟩ := by
  induction moments generalizing run with
  | nil => exact ⟨run.now, rfl⟩
  | cons moment moments ih =>
    have hgoOn : Run.goOn w id 1 (run.advanceTo moment) = run.advanceTo moment := by
      have hpending : (run.advanceTo moment).gateway.pending? id = none := by
        simp only [Gateway.pending?]
        rw [show ((run.advanceTo moment).gateway.task? id).bind
          (Task.next? (run.advanceTo moment).gateway.shared) = none from h _]
      simp only [Run.goOn, hpending]
    obtain ⟨now, hnow⟩ := ih (run.advanceTo moment) h
    refine ⟨now, ?_⟩
    rw [Run.carry, List.foldl_cons, hgoOn]
    exact hnow

/-- A task that is finished stays as it is. -/
theorem carry_finished (x : Solo) (tasks : List Task) (result : TaskResult)
    (due : List (TaskId × Instant)) (moments : List Instant) :
    ∃ now, Run.carry diskWorld tasks.length (x.among tasks (.finished result) due) moments =
      (x.atTime now).among tasks (.finished result) due :=
  carry_still _ _ _ (fun s => by rw [task?_among]; rfl) moments

/-- One answer of a task is one turn of its activity. -/
theorem goOn_among {widen : π → Task} {finish : ρ → Shared → TaskResult × Shared}
    (hnext : ∀ s place, (widen place).next? s =
      some ((next s.writer place).map fun move s => taskOf widen finish (move s)))
    (hopen : Gateway.isOpen x.shared (next x.shared.writer place).request = true)
    (moment : Instant) :
    Run.goOn diskWorld tasks.length 1 ((x.among tasks (widen place) due).advanceTo moment) =
      let turned := turn next place (x.atTime (max x.shared.now moment))
      let moved := taskOf widen finish (turned.1, turned.2.shared)
      Solo.among ⟨moved.2, turned.2.transfer, turned.2.volume⟩ tasks moved.1 due := by
  rw [advanceTo_among]
  generalize max x.shared.now moment = now
  have hopen' : Gateway.isOpen (x.atTime now).shared
      (next (x.atTime now).shared.writer place).request = true := hopen
  simp only [Run.goOn, Gateway.pending?, task?_among, Option.bind_some]
  simp only [among, hnext, Pending.map, hopen', if_true]
  simp [turn, diskWorld, Solo.atTime]

/-- Carried on from moment to moment, the task of an activity comes to what the activity leads
to. -/
theorem Leads.carry {widen : π → Task} {finish : ρ → Shared → TaskResult × Shared}
    (h : Leads next Q n step x)
    (hnext : ∀ s place, (widen place).next? s =
      some ((next s.writer place).map fun move s => taskOf widen finish (move s)))
    (tasks : List Task) (due : List (TaskId × Instant)) {moments : List Instant}
    (hn : n ≤ moments.length) :
    ∃ r y now, Q r y ∧
      Run.carry diskWorld tasks.length
        (Solo.among ⟨(taskOf widen finish (step, x.shared)).2, x.transfer, x.volume⟩ tasks
          (taskOf widen finish (step, x.shared)).1 due) moments =
        (atTime ⟨(finish r y.shared).2, y.transfer, y.volume⟩ now).among tasks
          (.finished (finish r y.shared).1) due := by
  induction h generalizing moments with
  | @done n r x fits =>
    obtain ⟨now, hnow⟩ := carry_finished _ tasks _ due moments
    exact ⟨r, x, now, fits, hnow⟩
  | @paused n place x isOpen goesOn ih =>
    cases moments with
    | nil => exact absurd hn (Nat.not_succ_le_zero n)
    | cons moment moments =>
      obtain ⟨r, y, now, hQ, hcarry⟩ := ih (max x.shared.now moment) (Nat.le_of_succ_le_succ hn)
      refine ⟨r, y, now, hQ, ?_⟩
      rw [← hcarry, ← goOn_among hnext isOpen moment]
      rfl

end Solo

end FileGateway

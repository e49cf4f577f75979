import FileGateway.Proofs.Lease.LeaseOp

/-!
# Calls

What the calls of the library, the timers and the answers make of a gateway, as far as leases are
concerned: a call or a timer adds at most one task, which may begin a lease operation, and an answer
lets one task go on, which makes a move of its lease operation or begins one.

* `Gateway.starts_call` and `Gateway.starts_fire` are about calls and timers;
* `Gateway.goes_resume` and `Gateway.starts_resume` are about answers.
-/

namespace FileGateway

/-- A call of the library. -/
inductive Call where
  | addLease (target : Path)
  | acquire (lease : LeaseId) (backend : Backend) (options : Options) (expiry : Duration)
  | release (lease : LeaseId) (strict : Bool)
  | resolve (handle : HandleId) (path : Path)
  | operate (deployment : Deployment) (key : ConnectionKey) (action : Action) (path : Path)
  | create (creation : Registry.Creation)
  | close (handle : HandleId)
  | shutdown (space : String)

deriving instance DecidableEq for TaskResult

/-- The write that a task is about, once the path of its file is resolved. -/
def Task.write? : Task → Option (Write.Target × Write.Place)
  | operating _ (.writing target place) => some (target, place)
  | _ => none

namespace Gateway

/-- Carries a call out, as far as it goes at once. -/
def call (g : Gateway) : Call → Gateway
  | .addLease target =>
    match g.addLease target with
    | .ok (_, g) => g
    | .error _ => g
  | .acquire lease backend options expiry => (g.acquire lease backend options expiry).2
  | .release lease strict => (g.release lease strict).2
  | .resolve handle path => (g.resolve handle path).2
  | .operate deployment key action path => (g.operate deployment key action path).2
  | .create creation => (g.create creation).2
  | .close handle => (g.close handle).2
  | .shutdown space => (g.shutdown space).2

/-- The lease operations of the tasks. -/
def leaseOps (g : Gateway) (id : TaskId) : Option LeaseOp :=
  (g.task? id).bind Task.leaseOp?

/-- Whatever begins, begins as a task that had no lease operation. -/
structure Starts (g : Gateway) (id : TaskId) (d : Option LeaseOp) (g' : Gateway) : Prop where
  idle : g.leaseOps id = none
  begins : Begins g.shared d g'.shared
  leaseOps : g'.leaseOps = Function.update g.leaseOps id d

/-- At most one task is added, and it writes no file yet. -/
def Grows (g g' : Gateway) : Prop :=
  g'.tasks = g.tasks ∨ ∃ t, g'.tasks = g.tasks ++ [t] ∧ t.write? = none

/-! ### Tasks that are added and replaced -/

theorem task?_length (g : Gateway) : g.task? g.tasks.length = none := by
  simp [task?]

theorem leaseOps_eq {g : Gateway} {id : TaskId} {t : Task} (h : g.task? id = some t) :
    g.leaseOps id = t.leaseOp? := by
  rw [leaseOps, h]
  rfl

theorem leaseOps_of_lone {g : Gateway} {id : TaskId} {t : Task} {d : LeaseOp}
    (h : g.task? id = some t)
    (hd : t.lone? = some d) : g.leaseOps id = some d :=
  (leaseOps_eq h).trans (Task.leaseOp_of_lone hd)

theorem leaseOps_length (g : Gateway) : g.leaseOps g.tasks.length = none := by
  rw [leaseOps, task?_length]
  rfl

theorem task?_concat {g g' : Gateway} {t : Task} (h : g'.tasks = g.tasks ++ [t]) :
    g'.task? = Function.update g.task? g.tasks.length (some t) := by
  funext id
  rw [task?, h]
  rcases Nat.lt_trichotomy id g.tasks.length with hid | hid | hid
  · rw [Function.update_of_ne (Nat.ne_of_lt hid), List.getElem?_append_left hid]
    rfl
  · subst hid
    simp
  · -- past the new task there is none, neither before nor now
    rw [Function.update_of_ne (Nat.ne_of_gt hid), task?, List.getElem?_eq_none (Nat.le_of_lt hid)]
    refine List.getElem?_eq_none ?_
    rw [List.length_append]
    exact hid

theorem task?_set {g : Gateway} {id : TaskId} {t : Task} (h : g.task? id = some t) (task : Task)
    (s : Shared) : task? ⟨s, g.tasks.set id task⟩ = Function.update g.task? id (some task) := by
  have hlt : id < g.tasks.length := (List.getElem?_eq_some_iff.1 h).1
  funext n
  by_cases hn : n = id
  · subst hn
    rw [Function.update_self]
    simp [task?, hlt]
  · have hn' : id ≠ n := fun heq => hn heq.symm
    rw [Function.update_of_ne hn]
    simp [task?, hn']

/-- What is read off the tasks changes where a task does. -/
theorem bind_task? {α : Type} (f : Task → Option α) {g g' : Gateway} {id : TaskId} {t : Task}
    (h : g'.task? = Function.update g.task? id (some t)) :
    (fun n => (g'.task? n).bind f) = Function.update (fun n => (g.task? n).bind f) id (f t) := by
  rw [h]
  exact Function.comp_update (fun o : Option Task => o.bind f) g.task? id (some t)

theorem task?_add (g : Gateway) (task : Task) (s : Shared) :
    (g.add task s).2.task? g.tasks.length = some task := by
  have hconcat : (g.add task s).2.task? = Function.update g.task? g.tasks.length (some task) :=
    task?_concat rfl
  rw [hconcat, Function.update_self]

/-- An operation starts by resolving its path, or has failed. -/
theorem task?_operate (g : Gateway) (deployment : Deployment) (key : ConnectionKey)
    (action : Action) (path : Path) :
    (∃ error, (g.operate deployment key action path).2.task? g.tasks.length =
        some (.finished (.operated (.error error)))) ∨
      ∃ handle r, (g.operate deployment key action path).2.task? g.tasks.length =
        some (.operating handle (.resolving action r)) := by
  simp only [operate]
  split
  · next error _ => exact .inl ⟨error, g.task?_add _ _⟩
  · next handle _ =>
    simp only [task?_add, Operation.start, Resolve.start]
    split
    · exact .inl ⟨_, rfl⟩
    · split
      · exact .inl ⟨_, rfl⟩
      · exact .inr ⟨_, _, rfl⟩

theorem leaseOps_add (g : Gateway) (task : Task) (s : Shared) :
    (g.add task s).2.leaseOps = Function.update g.leaseOps g.tasks.length task.leaseOp? :=
  bind_task? Task.leaseOp? (task?_concat rfl)

theorem leaseOps_set {g : Gateway} {id : TaskId} {t : Task} (h : g.task? id = some t) (task : Task)
    (s : Shared) :
    leaseOps ⟨s, g.tasks.set id task⟩ = Function.update g.leaseOps id task.leaseOp? :=
  bind_task? Task.leaseOp? (task?_set h task s)

theorem result?_eq {g : Gateway} {id : TaskId} {result : TaskResult} :
    g.result? id = some result ↔ g.task? id = some (.finished result) := by
  unfold result?
  split
  · next r h =>
    rw [h]
    simp
  · next h =>
    constructor
    · intro hn
      cases hn
    · intro ht
      exact absurd ht (h result)

/-! ### What starts -/

theorem starts_add {g : Gateway} {task : Task} {s : Shared}
    (h : Begins g.shared task.leaseOp? s) :
    Starts g g.tasks.length task.leaseOp? (g.add task s).2 :=
  ⟨g.leaseOps_length, h, g.leaseOps_add task s⟩

/-- Something begins that is no task. -/
theorem starts_shared {g : Gateway} {s : Shared} (h : Begins g.shared none s) :
    Starts g g.tasks.length none { g with shared := s } := by
  constructor
  · exact g.leaseOps_length
  · exact h
  · rw [← g.leaseOps_length, Function.update_eq_self]
    rfl

theorem starts_acquire (g : Gateway) (id : LeaseId) (backend : Backend) (options : Options)
    (expiry : Duration) :
    ∃ d, Starts g g.tasks.length d (g.acquire id backend options expiry).2 := by
  have hstart : ∀ a : Acquire, a.lease = id →
      a.marker = ((g.shared.lease? id).map Lease.marker).getD default →
        Begins g.shared ((a.start g.shared).1.place?.map (LeaseOp.acquire a))
          (a.start g.shared).2 := by
    intro a ha hm
    subst ha
    cases hl : g.shared.lease? a.lease with
    | none =>
      -- a lease that does not exist is acquired in vain
      simp only [Acquire.start, hl]
      exact .nothing (.refl _)
    | some l =>
      rw [hl] at hm
      exact .of_acquire_start hl hm
  refine ⟨_, starts_add ?_⟩
  rw [Task.leaseOp?_ofAcquire]
  exact hstart _ rfl rfl

theorem starts_release (g : Gateway) (id : LeaseId) (strict : Bool) :
    ∃ d, Starts g g.tasks.length d (g.release id strict).2 := by
  refine ⟨_, starts_add ?_⟩
  rw [Task.leaseOp?_ofRelease]
  exact .of_release_start id

theorem agrees_resolve_start (id : HandleId) (path : Path) (s : Shared) :
    s.Agrees (Resolve.start id path s).2 := by
  unfold Resolve.start
  split
  · exact .refl s
  · split <;> exact .refl s

theorem starts_resolve (g : Gateway) (id : HandleId) (path : Path) :
    ∃ d, Starts g g.tasks.length d (g.resolve id path).2 := by
  refine ⟨_, starts_add ?_⟩
  have hleaseOp : ∀ step, (Task.ofStep .resolving .resolved step).leaseOp? = none := by
    intro step
    cases step <;> rfl
  rw [hleaseOp]
  exact .nothing (agrees_resolve_start id path g.shared)

theorem starts_operate (g : Gateway) (d : Deployment) (key : ConnectionKey) (action : Action)
    (path : Path) : ∃ leaseOp, Starts g g.tasks.length leaseOp (g.operate d key action path).2 := by
  simp only [operate]
  cases (d.provide g.shared.registry key).handle with
  | error e => exact ⟨_, starts_add (.nothing ⟨rfl, rfl⟩)⟩
  | ok id =>
    -- a handle may be made for the operation, which is no matter of leases
    refine ⟨_, starts_add (Begins.of_operation id ?_)⟩
    refine Begins.of_agrees ?_ (.of_resolveStep action id _ _)
    have hs := agrees_resolve_start id path
      { g.shared with registry := (d.provide g.shared.registry key).registry }
    exact ⟨hs.leases, hs.guards⟩

theorem starts_shutdown (g : Gateway) (space : String) :
    ∃ d, Starts g g.tasks.length d (g.shutdown space).2 := by
  refine ⟨_, starts_add ?_⟩
  have hleaseOp : ∀ (count : Nat) ids, (Task.ofEvicted count ids).leaseOp? = none := by
    intro count ids
    cases ids <;> rfl
  rw [hleaseOp]
  exact .nothing ⟨rfl, rfl⟩

theorem starts_addLease (g : Gateway) (target : Path) :
    Starts g g.tasks.length none (g.call (.addLease target)) := by
  cases hf : Lease.fresh target with
  | error e =>
    simp only [call, addLease, hf, Except.map]
    exact starts_shared (.nothing (.refl _))
  | ok lease =>
    simp only [call, addLease, hf, Except.map]
    exact starts_shared (.lease target lease hf (.refl _))

theorem tasks_addLease (g : Gateway) (target : Path) :
    (g.call (.addLease target)).tasks = g.tasks := by
  simp only [call, addLease]
  cases Lease.fresh target <;> rfl

/-- Whatever is called, at most one task begins. -/
theorem starts_call (g : Gateway) (c : Call) : ∃ d, Starts g g.tasks.length d (g.call c) := by
  cases c with
  | addLease target => exact ⟨none, g.starts_addLease target⟩
  | acquire lease backend options expiry => exact g.starts_acquire lease backend options expiry
  | release lease strict => exact g.starts_release lease strict
  | resolve handle path => exact g.starts_resolve handle path
  | operate deployment key action path => exact g.starts_operate deployment key action path
  | create creation =>
    simp only [call, create]
    split
    · exact ⟨_, starts_add (.nothing ⟨rfl, rfl⟩)⟩
    · exact ⟨none, starts_shared (.nothing ⟨rfl, rfl⟩)⟩
  | close handle => exact ⟨_, starts_add (.nothing (.refl _))⟩
  | shutdown space => exact g.starts_shutdown space

theorem write?_ofOperation (id : HandleId) (step : Step Operation.Place (Except Error Effect))
    (s : Shared) (h : ∀ target place, step ≠ .paused (.writing target place)) :
    (Task.ofOperation id step s).1.write? = none := by
  cases step with
  | done result => rfl
  | paused place =>
    cases place with
    | writing target place => exact absurd rfl (h target place)
    | _ => rfl

/-- An operation starts by resolving its path. -/
theorem write?_start (action : Action) (id : HandleId) (path : Path) (s : Shared) :
    (Task.ofOperation id (Operation.start action id path s).1
      (Operation.start action id path s).2).1.write? = none := by
  -- it waits for the path, or ends at once because its connection is suspended
  refine write?_ofOperation id _ _ fun target place h => ?_
  simp only [Operation.start, Resolve.start] at h
  split at h
  · cases h
  · split at h <;> cases h

theorem write?_ofStep {π ρ : Type} {place : π → Task} {result : ρ → TaskResult}
    (h : ∀ p, (place p).write? = none) (step : Step π ρ) :
    (Task.ofStep place result step).write? = none := by
  cases step with
  | paused p => exact h p
  | done r => rfl

theorem write?_ofEvicted (count : Nat) (ids : List HandleId) :
    (Task.ofEvicted count ids).write? = none := by
  cases ids <;> rfl

theorem grows_call (g : Gateway) (c : Call) : g.Grows (g.call c) := by
  cases c with
  | addLease target => exact Or.inl (g.tasks_addLease target)
  | acquire lease backend options expiry =>
    exact Or.inr ⟨_, rfl, write?_ofStep (fun _ => rfl) _⟩
  | release lease strict => exact Or.inr ⟨_, rfl, write?_ofStep (fun _ => rfl) _⟩
  | resolve handle path => exact Or.inr ⟨_, rfl, write?_ofStep (fun _ => rfl) _⟩
  | operate deployment key action path =>
    simp only [Grows, call, operate]
    cases (deployment.provide g.shared.registry key).handle with
    | error e => exact Or.inr ⟨_, rfl, rfl⟩
    | ok id => exact Or.inr ⟨_, rfl, write?_start action id path _⟩
  | create creation =>
    simp only [Grows, call, create]
    split
    · exact Or.inr ⟨_, rfl, rfl⟩
    · exact Or.inl rfl
  | close handle => exact Or.inr ⟨_, rfl, rfl⟩
  | shutdown space => exact Or.inr ⟨_, rfl, write?_ofEvicted _ _⟩

/-- A timer that runs gives its lease up, or changes no tasks. -/
theorem tasks_fire (g : Gateway) (id : LeaseId) :
    (g.fire id).tasks = g.tasks ∨ (g.fire id).tasks = g.tasks ++ [.expiring id .taking] := by
  unfold fire
  split
  · exact Or.inl rfl
  · split
    · split
      · exact Or.inr rfl
      · exact Or.inl rfl
    · exact Or.inl rfl

theorem grows_fire (g : Gateway) (id : LeaseId) : g.Grows (g.fire id) :=
  (g.tasks_fire id).imp_right fun h => ⟨_, h, rfl⟩

/-- A timer that runs gives an active lease up, or comes too late. -/
theorem starts_fire (g : Gateway) (id : LeaseId) : ∃ d, Starts g g.tasks.length d (g.fire id) := by
  unfold fire
  cases hl : g.shared.lease? id with
  | none => exact ⟨none, starts_shared (.nothing (.refl _))⟩
  | some l =>
    simp only
    split
    · next hdue =>
      simp only [Expiry.start, hl]
      by_cases hactive : l.state = .active
      · rw [if_pos hactive]
        exact ⟨_, starts_add (.surrender ⟨id, true⟩ l (fun _ => .fired) hl hactive (.refl _))⟩
      · rw [if_neg hactive]
        exact ⟨none, starts_shared (.late id l hl hactive (.refl _) (Expiry.armed_of_due hdue))⟩
    · exact ⟨none, starts_shared (.nothing (.refl _))⟩

/-! ## Answers -/

theorem pending?_eq {g : Gateway} {id : TaskId} {p : Pending Gateway} (h : g.pending? id = some p) :
    ∃ t q, g.task? id = some t ∧ t.next? g.shared = some q ∧ isOpen g.shared p.request = true ∧
      p = q.map fun go => ⟨(go g.shared).2, g.tasks.set id (go g.shared).1⟩ := by
  unfold pending? at h
  cases ht : g.task? id with
  | none => simp [ht] at h
  | some t =>
    simp only [ht, Option.bind_some] at h
    cases hq : t.next? g.shared with
    | none => simp [hq] at h
    | some q =>
      simp only [hq] at h
      split at h
      · next hopen =>
        cases h
        exact ⟨t, q, rfl, hq, hopen, rfl⟩
      · cases h

theorem pending?_of_next {g : Gateway} {id : TaskId} {t : Task}
    {q : Pending (Shared → Task × Shared)} (ht : g.task? id = some t)
    (hq : t.next? g.shared = some q) (hopen : isOpen g.shared q.request = true) :
    g.pending? id = some (q.map fun go => ⟨(go g.shared).2, g.tasks.set id (go g.shared).1⟩) := by
  unfold pending?
  rw [ht, Option.bind_some, hq]
  exact if_pos hopen

/-- A task with a lease operation asks for what its lease operation asks for. -/
theorem request_of_leaseOp {g : Gateway} {id : TaskId} {d : LeaseOp} {p : Pending Gateway}
    (hd : g.leaseOps id = some d) (hp : g.pending? id = some p) :
    p.request = (d.next g.shared.writer).request := by
  obtain ⟨t, q, ht, hq, -, rfl⟩ := pending?_eq hp
  have htd : t.leaseOp? = some d := by simpa [leaseOps, ht] using hd
  obtain ⟨q', hq', hrequest, -⟩ := Task.next?_of_leaseOp htd g.shared
  rw [hq] at hq'
  cases hq'
  exact hrequest

/-- A task without a lease operation goes on without one, or begins one. -/
theorem starts_resume {g : Gateway} {id : TaskId} {p : Pending Gateway} (hd : g.leaseOps id = none)
    (hp : g.pending? id = some p) (answer : p.request.Answer) :
    ∃ d, Starts g id d (p.resume answer) := by
  obtain ⟨t, q, ht, hq, -, rfl⟩ := pending?_eq hp
  have htd : t.leaseOp? = none := by simpa [leaseOps, ht] using hd
  exact ⟨_, hd, Task.begins_of_no_leaseOp htd hq answer, leaseOps_set ht _ _⟩

/-- What an answer makes of a gateway whose task has a lease operation: it makes one of its moves.
Whoever was let into a guard holds it. -/
structure Goes (g : Gateway) (id : TaskId) (d : LeaseOp) (reply : Reply) (g' : Gateway) : Prop where
  leaseOp : g.leaseOps id = some d
  turn : ∀ ticket, reply.1 = .guard ticket → g.shared.guards.holds ticket = true
  moves : ∃ step s, d.Moves g.shared.writer g.shared reply step s ∧ s.Agrees g'.shared ∧
    g'.leaseOps = Function.update g.leaseOps id step.place?

/-- A task with a lease operation makes one of its moves. -/
theorem goes_resume {g : Gateway} {id : TaskId} {d : LeaseOp} {p : Pending Gateway}
    (hd : g.leaseOps id = some d) (hp : g.pending? id = some p) (answer : p.request.Answer) :
    Goes g id d ⟨p.request, answer⟩ (p.resume answer) := by
  obtain ⟨t, q, ht, hq, hopen, rfl⟩ := pending?_eq hp
  have htd : t.leaseOp? = some d := by simpa [leaseOps, ht] using hd
  obtain ⟨q', hq', -, hmoves⟩ := Task.next?_of_leaseOp htd g.shared
  rw [hq] at hq'
  cases hq'
  obtain ⟨step, s, hm, hleaseOp, hs⟩ := hmoves answer g.shared
  refine ⟨hd, fun ticket hreply => ?_, step, s, hm, hs, ?_⟩
  · -- a guard answers whoever holds it, and nobody else
    have hguard : isOpen g.shared (.guard ticket) = true := hreply ▸ hopen
    exact hguard
  · rw [← hleaseOp]
    exact leaseOps_set ht _ _

end Gateway

end FileGateway

import FileGateway.Gateway.Schedule
import FileGateway.Proofs.Gateway.Calls
import FileGateway.Proofs.Lease.Lifecycle

/-!
# Runs of leases in time

Leases are made, acquired and released in a world that answers each call to a store after a time of
its own choosing. A `TimedRun` is such a run, at any moment of any interleaving, with a log of what
matters about time: when a lease was acquired and for how long, when it ceased to be active and
whether it was its timer that made it so, and what the tasks have asked for.

Time is virtual: the clock advances only while nothing can go on, and never past a moment at which
something will go on by itself (`TimedRun.act`). Whatever happens, the gateway makes one of a few
steps (`TimedRun.acts_act`). What a schedule lets go on at one moment, and how it comes to the next
one, is among what can happen (`TimedRun.leads_settle`, `TimedRun.leads_advanceTo`).
-/

namespace FileGateway

/-- The timer of a lease, if there is the lease. -/
def Shared.timer? (s : Shared) (id : LeaseId) : Option Timer :=
  (s.lease? id).map Lease.timer

/-- Whether a task is what the timer of a lease does. -/
def Task.isExpiry : Task → Bool
  | expiring _ _ => true
  | _ => false

/-- What is put on record in a run: a lease was acquired, to last for so long; a lease ceased to be
active, `forced` if it was its timer that made it so; a task has asked for something. -/
inductive TimedRun.Entry where
  | granted (lease : LeaseId) (time : Instant) (expiry : Duration)
  | ended (lease : LeaseId) (time : Instant) (forced : Bool)
  | asked (task : Task) (time : Instant) (request : Request)

/-- A run, and what has happened in it so far, the latest first. -/
structure TimedRun (ε : Type) where
  run : Run ε
  log : List TimedRun.Entry

namespace TimedRun

variable {ε : Type}

/-- What can happen. A task begins with its request, which may be answered at once; otherwise the
answer comes later. -/
inductive Event where
  | addLease (target : Path)
  | acquire (lease : LeaseId) (backend : Backend) (options : Options) (expiry : Duration)
  | release (lease : LeaseId) (strict : Bool)
  | begin (id : TaskId)
  | answer (id : TaskId)
  | fire (lease : LeaseId)
  | advance (now : Instant)

/-- A gateway that has done nothing yet, in any world. -/
def start (writer : Diagnostics) (world : ε) : TimedRun ε :=
  ⟨.start (.start writer) world, []⟩

/-- What an event makes of a run. An event that cannot happen changes nothing. -/
def act (w : World ε) (run : Run ε) : Event → Run ε
  | .addLease target => { run with gateway := run.gateway.call (.addLease target) }
  | .acquire lease backend options expiry =>
    { run with gateway := run.gateway.call (.acquire lease backend options expiry) }
  | .release lease strict => { run with gateway := run.gateway.call (.release lease strict) }
  | .begin id =>
    match run.dueAt? id with
    | none => run.goOn w id 1
    | some _ => run
  | .answer id =>
    match run.dueAt? id with
    | none => run
    | some moment => if moment ≤ run.now then run.answerDue w id else run
  | .fire lease => { run with gateway := run.gateway.fire lease }
  | .advance now =>
    if run.isBusy = false ∧ ∀ moment ∈ run.moments, now ≤ moment then run.advanceTo now else run

/-- Whether an event is a step of a timer. -/
def byTimer (g : Gateway) : Event → Bool
  | .fire _ => true
  | .begin id => ((g.task? id).map Task.isExpiry).getD false
  | .answer id => ((g.task? id).map Task.isExpiry).getD false
  | _ => false

/-- What is asked for at an event. -/
def asks (run : Run ε) : Event → List Entry
  | .begin id =>
    match run.dueAt? id, run.gateway.task? id, run.gateway.pending? id with
    | none, some t, some p => [.asked t run.now p.request]
    | _, _, _ => []
  | _ => []

/-- The leases that were acquired between two states. -/
def granted (g g' : Gateway) : List Entry :=
  (List.range g.tasks.length).filterMap fun i =>
    match g.task? i, g'.task? i with
    | some (.acquiring a _), some (.finished (.acquired (.ok true))) =>
      some (.granted a.lease g'.shared.now a.expiry)
    | _, _ => none

/-- The leases that ceased to be active between two states. -/
def ended (g g' : Gateway) (forced : Bool) : List Entry :=
  (List.range g.shared.leases.length).filterMap fun id =>
    if g.shared.stage? id = some .active ∧ g'.shared.stage? id ≠ some .active then
      some (.ended id g'.shared.now forced)
    else none

/-- What has become of the leases between two states. -/
def changes (g g' : Gateway) (forced : Bool) : List Entry :=
  granted g g' ++ ended g g' forced

/-- What an event makes of a timed run. -/
def step (w : World ε) (c : TimedRun ε) (e : Event) : TimedRun ε :=
  let run := act w c.run e
  ⟨run, changes c.run.gateway run.gateway (byTimer c.run.gateway e) ++ (asks c.run e ++ c.log)⟩

/-- What a sequence of events makes of a timed run. -/
def follow (w : World ε) (c : TimedRun ε) (events : List Event) : TimedRun ε :=
  events.foldl (step w) c

/-! ## What is put on record -/

theorem mem_granted {g g' : Gateway} {entry : Entry} (h : entry ∈ granted g g') :
    ∃ i a place, g.task? i = some (.acquiring a place) ∧
      g'.task? i = some (.finished (.acquired (.ok true))) ∧
      entry = .granted a.lease g'.shared.now a.expiry := by
  obtain ⟨i, -, hi⟩ := List.mem_filterMap.1 h
  split at hi
  · next a place ht ht' =>
    cases hi
    exact ⟨i, a, place, ht, ht', rfl⟩
  · cases hi

theorem mem_ended {g g' : Gateway} {forced : Bool} {entry : Entry} (h : entry ∈ ended g g' forced) :
    ∃ id, g.shared.stage? id = some .active ∧ g'.shared.stage? id ≠ some .active ∧
      entry = .ended id g'.shared.now forced := by
  obtain ⟨id, -, hid⟩ := List.mem_filterMap.1 h
  split at hid
  · next hstages =>
    cases hid
    exact ⟨id, hstages.1, hstages.2, rfl⟩
  · cases hid

theorem ended_mem {g g' : Gateway} {forced : Bool} {id : LeaseId}
    (h : g.shared.stage? id = some .active) (h' : g'.shared.stage? id ≠ some .active) :
    .ended id g'.shared.now forced ∈ changes g g' forced := by
  refine List.mem_append_right _ (List.mem_filterMap.2 ⟨id, ?_, if_pos ⟨h, h'⟩⟩)
  rw [List.mem_range]
  obtain ⟨l, hl, -⟩ := Option.map_eq_some_iff.1 h
  exact (List.getElem?_eq_some_iff.1 hl).1

theorem granted_of_changes {g g' : Gateway} {forced : Bool} {id : LeaseId} {time : Instant}
    {expiry : Duration} (h : .granted id time expiry ∈ changes g g' forced) :
    ∃ i a place, g.task? i = some (.acquiring a place) ∧
      g'.task? i = some (.finished (.acquired (.ok true))) ∧
      a.lease = id ∧ g'.shared.now = time ∧ a.expiry = expiry := by
  rcases List.mem_append.1 h with h | h
  · obtain ⟨i, a, place, ht, ht', heq⟩ := mem_granted h
    cases heq
    exact ⟨i, a, place, ht, ht', rfl, rfl, rfl⟩
  · obtain ⟨id', -, -, heq⟩ := mem_ended h
    cases heq

theorem ended_of_changes {g g' : Gateway} {forced forced' : Bool} {id : LeaseId} {time : Instant}
    (h : .ended id time forced' ∈ changes g g' forced) :
    g.shared.stage? id = some .active ∧ g'.shared.stage? id ≠ some .active ∧
      g'.shared.now = time ∧ forced = forced' := by
  rcases List.mem_append.1 h with h | h
  · obtain ⟨i, a, place, -, -, heq⟩ := mem_granted h
    cases heq
  · obtain ⟨id', hactive, hover, heq⟩ := mem_ended h
    cases heq
    exact ⟨hactive, hover, rfl, rfl⟩

theorem not_asked_changes {g g' : Gateway} {forced : Bool} {t : Task} {time : Instant}
    {request : Request} : .asked t time request ∉ changes g g' forced := by
  intro h
  rcases List.mem_append.1 h with h | h
  · obtain ⟨i, a, place, -, -, heq⟩ := mem_granted h
    cases heq
  · obtain ⟨id', -, -, heq⟩ := mem_ended h
    cases heq

theorem changes_same (g g' : Gateway) (ht : g'.tasks = g.tasks)
    (hs : g'.shared.leases = g.shared.leases) (forced : Bool) : changes g g' forced = [] := by
  refine List.eq_nil_iff_forall_not_mem.2 fun entry h => ?_
  rcases List.mem_append.1 h with h | h
  · obtain ⟨i, a, place, hi, hi', -⟩ := mem_granted h
    rw [Gateway.task?, ht, ← Gateway.task?, hi] at hi'
    cases hi'
  · obtain ⟨id, hactive, hover, -⟩ := mem_ended h
    refine hover ?_
    rw [Shared.stage?, Shared.lease?, hs]
    exact hactive

/-! ## What an event makes of the gateway -/

/-- The steps of a gateway in a timed run. A task may be answered at any moment, but time passes
only as far as no timer is due before. -/
inductive Acts (g : Gateway) : Bool → Gateway → Prop where
  | nothing (forced : Bool) : Acts g forced g
  | addLease (target : Path) : Acts g false (g.call (.addLease target))
  | acquire (lease : LeaseId) (backend : Backend) (options : Options) (expiry : Duration) :
    Acts g false (g.call (.acquire lease backend options expiry))
  | release (lease : LeaseId) (strict : Bool) : Acts g false (g.call (.release lease strict))
  | fire (lease : LeaseId) : Acts g true (g.fire lease)
  | resume (i : TaskId) (t : Task) (q : Pending (Shared → Task × Shared))
      (task : g.task? i = some t) (next : t.next? g.shared = some q) (answer : q.request.Answer) :
    Acts g t.isExpiry
      ⟨(q.resume answer g.shared).2, g.tasks.set i (q.resume answer g.shared).1⟩
  | advance (now : Instant) (early : ∀ id deadline, g.shared.timer? id = some (.armed deadline) →
      now ≤ deadline) : Acts g false (g.advanceTo now)

theorem acts_pending {g : Gateway} {id : TaskId} {p : Pending Gateway} (hp : g.pending? id = some p)
    (answer : p.request.Answer) :
    Acts g (((g.task? id).map Task.isExpiry).getD false) (p.resume answer) := by
  obtain ⟨t, q, ht, hq, -, rfl⟩ := Gateway.pending?_eq hp
  rw [ht]
  exact .resume id t q ht hq answer

theorem acts_act (w : World ε) (run : Run ε) (e : Event) :
    Acts run.gateway (byTimer run.gateway e) (act w run e).gateway := by
  cases e with
  | addLease target => exact .addLease target
  | acquire lease backend options expiry => exact .acquire lease backend options expiry
  | release lease strict => exact .release lease strict
  | fire lease => exact .fire lease
  | begin id =>
    simp only [act]
    split
    · simp only [Run.goOn]
      split
      · exact .nothing _
      · next p hp =>
        split
        · exact acts_pending hp _
        · exact .nothing _
    · exact .nothing _
  | answer id =>
    simp only [act]
    split
    · exact .nothing _
    · split
      · simp only [Run.answerDue]
        split
        · exact .nothing _
        · next p hp => exact acts_pending hp _
      · exact .nothing _
  | advance now =>
    simp only [act]
    split
    · next hquiet =>
      refine .advance now fun id deadline harmed => hquiet.2 deadline ?_
      obtain ⟨l, hl, htimer⟩ := Option.map_eq_some_iff.1 harmed
      refine List.mem_append_right _ (List.mem_filterMap.2 ⟨l, List.mem_of_getElem? hl, ?_⟩)
      rw [htimer]
    · exact .nothing _

/-! ## Timers -/

theorem timer?_modifyLease {s : Shared} {id n : LeaseId} {f : Lease → Lease} (timer : Timer → Timer)
    (h : ∀ l, (f l).timer = timer l.timer) :
    (s.modifyLease id f).timer? n =
      if id = n then (s.timer? n).map timer else s.timer? n := by
  rw [Shared.timer?, Shared.lease?_modifyLease]
  split
  · rw [Shared.timer?, Option.map_map, Option.map_map]
    congr 1
    funext l
    exact h l
  · rfl

/-- What a move makes of the timer of its lease. -/
def retime (now : Instant) : LeaseOp → Timer → Timer
  | .acquire a .arming, timer => timer.arm (now + a.expiry.nanos)
  | .surrender _ (.cancelling _), _ => .cancelled
  | _, timer => timer

theorem timer_change (now : Instant) (d : LeaseOp) (l : Lease) :
    (d.change now l).timer = retime now d l.timer := by
  cases d with
  | acquire a place => cases place <;> rfl
  | surrender r place => cases place <;> rfl

theorem timer?_moves {writer : Diagnostics} {s s' : Shared} {d : LeaseOp} {reply : Reply}
    {step : Step LeaseOp LeaseOp.Ending} (h : d.Moves writer s reply step s') (n : LeaseId) :
    s'.timer? n = if d.lease = n then (s.timer? n).map (retime s.now d) else s.timer? n := by
  have hsame : s'.timer? n = (s.modifyLease d.lease (d.change s.now)).timer? n := by
    rw [Shared.timer?, Shared.timer?, h.lease? rfl, Shared.lease?_modifyLease]
  rw [hsame]
  exact timer?_modifyLease _ (timer_change s.now d)

/-- A timer that is started is noted, and nothing else is. -/
theorem timers_moves {writer : Diagnostics} {s s' : Shared} {d : LeaseOp} {reply : Reply}
    {step : Step LeaseOp LeaseOp.Ending} (h : d.Moves writer s reply step s') :
    s'.now = s.now ∧
      ((∃ a, d = .acquire a .arming ∧ step = .done (.acquired (.ok true)) ∧
          s'.timers = s.timers ++ [a.lease]) ∨
        s'.timers = s.timers ∧ step ≠ .done (.acquired (.ok true)) ∧
          ∀ a, d ≠ .acquire a .arming) := by
  cases h with
  | armed a => exact ⟨rfl, Or.inl ⟨a, rfl, rfl, rfl⟩⟩
  | retreated a error =>
    refine ⟨rfl, Or.inr ⟨rfl, ?_, ?_⟩⟩
    · cases error <;> simp
    · simp
  | _ => exact ⟨rfl, Or.inr ⟨rfl, by simp, by simp⟩⟩

/-! ## Schedules -/

section

variable {w : World ε} {run run' run'' : Run ε}

/-- What can happen makes the one run of the other. -/
def Leads (w : World ε) (run run' : Run ε) : Prop :=
  ∃ events : List Event, events.foldl (act w) run = run'

theorem Leads.refl (w : World ε) (run : Run ε) : Leads w run run :=
  ⟨[], rfl⟩

theorem Leads.single (w : World ε) (run : Run ε) (e : Event) : Leads w run (act w run e) :=
  ⟨[e], rfl⟩

theorem Leads.trans (h : Leads w run run') (h' : Leads w run' run'') : Leads w run run'' := by
  obtain ⟨events, rfl⟩ := h
  obtain ⟨events', rfl⟩ := h'
  exact ⟨events ++ events', List.foldl_append⟩

/-- What is done one after the other leads as far as each of it does. -/
theorem Leads.foldl {α : Type} {f : Run ε → α → Run ε} (h : ∀ run x, Leads w run (f run x))
    (xs : List α) (run : Run ε) : Leads w run (xs.foldl f run) := by
  induction xs generalizing run with
  | nil => exact .refl w run
  | cons x xs ih => exact (h run x).trans (ih (f run x))

/-- A task that goes on makes its requests one after the other. -/
theorem leads_goOn (id : TaskId) (fuel : Nat) (hdue : run.dueAt? id = none) :
    Leads w run (run.goOn w id fuel) := by
  induction fuel generalizing run with
  | zero => exact .refl w run
  | succ fuel ih =>
    have hbegin : Leads w run (run.goOn w id 1) := by
      have h := Leads.single w run (.begin id)
      simp only [act, hdue] at h
      exact h
    cases hp : run.gateway.pending? id with
    | none =>
      simp only [Run.goOn, hp]
      exact .refl w run
    | some pending =>
      by_cases hdelay : (w.begin id pending.request run.world).1 = 0
      · simp only [Run.goOn, hp, hdelay, if_true] at hbegin ⊢
        exact hbegin.trans (ih hdue)
      · simp only [Run.goOn, hp, hdelay, if_false] at hbegin ⊢
        exact hbegin

theorem dueAt?_answerDue (w : World ε) (id : TaskId) (run : Run ε) :
    (run.answerDue w id).dueAt? id = none := by
  have hdue : (run.answerDue w id).due = run.due.filter fun entry => entry.1 ≠ id := by
    cases hp : run.gateway.pending? id <;> simp only [Run.answerDue, hp]
  rw [Run.dueAt?, hdue, List.lookup_eq_none_iff]
  intro entry hentry
  have hne : entry.1 ≠ id := of_decide_eq_true (List.mem_filter.1 hentry).2
  exact bne_iff_ne.2 hne.symm

theorem leads_visit (fuel : Nat) (run : Run ε) (id : TaskId) :
    Leads w run (run.visit w fuel id) := by
  unfold Run.visit
  split
  · next moment hdue =>
    split
    · next hpast =>
      have h := Leads.single w run (.answer id)
      simp only [act, hdue, hpast, if_true] at h
      exact h.trans (leads_goOn id fuel (dueAt?_answerDue w id run))
    · exact .refl w run
  · next hdue => exact leads_goOn id fuel hdue

theorem leads_fireDue (run : Run ε) :
    Leads w run { run with gateway := run.gateway.fireDue } := by
  have h : ∀ (ids : List LeaseId) (run : Run ε),
      ids.foldl (fun run id => act w run (.fire id)) run =
        { run with gateway := ids.foldl Gateway.fire run.gateway } := by
    intro ids
    induction ids with
    | nil => exact fun run => rfl
    | cons id ids ih => exact fun run => ih _
  have hleads := Leads.foldl (fun run id => Leads.single w run (.fire id))
    run.gateway.dueTimers run
  rw [h] at hleads
  exact hleads

/-- Whatever a schedule lets go on at one moment is among what can happen. -/
theorem leads_settle (fuel : Nat) (run : Run ε) : Leads w run (run.settle w fuel) := by
  induction fuel generalizing run with
  | zero => exact .refl w run
  | succ fuel ih =>
    unfold Run.settle
    split
    · have hround : Leads w run (run.round w (fuel + 1)) :=
        (Leads.foldl (leads_visit (fuel + 1)) _ run).trans
          ((leads_fireDue _).trans (Leads.foldl (leads_visit (fuel + 1)) _ _))
      exact hround.trans (ih _)
    · exact .refl w run

theorem nextMoment?_le {moment : Instant} (h : run.nextMoment? = some moment) {later : Instant}
    (hlater : later ∈ run.moments) : moment ≤ later :=
  (List.min?_eq_some_iff.1 h).2 later hlater

/-- So is that the clock moves on to the next moment, once nothing can go on any more. -/
theorem leads_advanceTo {moment : Instant} (hquiet : run.isBusy = false)
    (h : run.nextMoment? = some moment) : Leads w run (run.advanceTo moment) := by
  have hleads := Leads.single w run (.advance moment)
  have hearly : run.isBusy = false ∧ ∀ later ∈ run.moments, moment ≤ later :=
    ⟨hquiet, fun _ => nextMoment?_le h⟩
  simp only [act, if_pos hearly] at hleads
  exact hleads

end

end TimedRun

end FileGateway

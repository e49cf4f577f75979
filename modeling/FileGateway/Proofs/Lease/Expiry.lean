import FileGateway.Proofs.Gateway.Memory
import FileGateway.Proofs.Lease.TimedRun

/-!
# Expiry on time

A lease that was acquired at one moment to last for so long is active until then, unless it is given
up before: its timer gives it up when its time has come, neither earlier nor later. If it was given
up before, its timer asks for nothing any more, so it cannot remove a marker that is somebody else's
by then.

`TimedRun.Timed` is the invariant: how timers, stages and tasks go together with what has happened.
It goes along with whatever starts (`Timed.opens`), be it a call or a timer that is due
(`Timed.fire_cases`), with every answer (`Timed.goes`), and with the clock (`Timed.advance`).

`TimedRun.punctual_follow` is about every world and every run in time, and about leases that were
acquired to last for no time at all as well.
-/

namespace FileGateway

namespace TimedRun

variable {ε : Type}

/-- Leases expire on time.

* `exact`: a lease that its timer has ended has lasted as long as it was to last;
* `released`: when nothing can go on any more and its time has come, a lease is released;
* `active`: a lease that has not ended is active;
* `once`: a lease ends once, by itself or by its timer;
* `spared`: the timer of a lease that has ended without it asks for nothing. -/
structure Punctual (c : TimedRun ε) : Prop where
  exact : ∀ id start expiry time, .granted id start expiry ∈ c.log → .ended id time true ∈ c.log →
    time = start + expiry.nanos
  released : ∀ id start expiry, .granted id start expiry ∈ c.log → c.run.isBusy = false →
    start + expiry.nanos ≤ c.run.now → c.run.gateway.shared.stage? id = some .released
  active : ∀ id start expiry, .granted id start expiry ∈ c.log →
    (∀ time forced, .ended id time forced ∉ c.log) →
      c.run.gateway.shared.stage? id = some .active
  once : ∀ id time time' forced forced', .ended id time forced ∈ c.log →
    .ended id time' forced' ∈ c.log → time = time' ∧ forced = forced'
  spared : ∀ id time, .ended id time false ∈ c.log →
    ∀ place time' request, .asked (.expiring id place) time' request ∉ c.log

/-- A lease was active, and may be so still. -/
def Late (s : Shared) (id : LeaseId) : Prop :=
  s.stage? id = some .active ∨ s.stage? id = some .released

/-- Nobody acquires a lease. -/
def Quit (g : Gateway) (id : LeaseId) : Prop :=
  ∀ i a place, g.leaseOps i = some (.acquire a place) → a.lease ≠ id

/-- How leases, timers and tasks go together with what has happened. The timer of a lease is
started by whoever acquires it, and not before; a timer that is started has been noted, and it is
not too late for it.

What is on record is still so: a lease that was granted runs until its deadline or is released
(`granted`), and the leases that are released are those that have ended, each once (`ended`,
`once`, `gone`). -/
structure Timed (g : Gateway) (log : List Entry) : Prop where
  orderly : Orderly g.shared g.leaseOps
  lone : ∀ i t, g.task? i = some t → (∃ d, t.lone? = some d) ∨ ∃ result, t = .finished result
  unset : ∀ id, g.shared.stage? id = some .idle → g.shared.timer? id = some .unset
  starting : ∀ i a place, g.leaseOps i = some (.acquire a place) →
    g.shared.timer? a.lease = some .unset ∨
      g.shared.timer? a.lease = some .cancelled ∧ g.shared.stage? a.lease = some .released
  armed : ∀ id deadline, g.shared.timer? id = some (.armed deadline) →
    id ∈ g.shared.timers ∧ g.shared.now ≤ deadline ∧ Late g.shared id
  granted : ∀ id time expiry, .granted id time expiry ∈ log → Quit g id ∧
    (g.shared.timer? id = some (.armed (time + expiry.nanos)) ∧ Late g.shared id ∨
      g.shared.stage? id = some .released ∧ ∀ deadline, g.shared.timer? id ≠ some (.armed deadline))
  ended : ∀ id time forced, .ended id time forced ∈ log → g.shared.stage? id = some .released ∧
    (forced = true → Quit g id ∧
      ∀ start expiry, .granted id start expiry ∈ log → time = start + expiry.nanos)
  once : ∀ id time time' forced forced', .ended id time forced ∈ log →
    .ended id time' forced' ∈ log → time = time' ∧ forced = forced'
  gone : ∀ id, g.shared.stage? id = some .released → ∃ time forced, .ended id time forced ∈ log
  expiring : ∀ i id place, g.task? i = some (.expiring id place) →
    ∃ time, .ended id time true ∈ log
  asked : ∀ id place time request, .asked (.expiring id place) time request ∈ log →
    ∃ time', .ended id time' true ∈ log

/-! ## Stages -/

section

variable {s s' : Shared} {id : LeaseId}

theorem timer?_eq_none : s.timer? id = none ↔ s.stage? id = none := by
  rw [Shared.timer?, Shared.stage?, Option.map_eq_none_iff, Option.map_eq_none_iff]

theorem Late.ne_idle (h : Late s id) : s.stage? id ≠ some .idle := by
  rcases h with h | h <;> simp [h]

theorem Late.ne_none (h : Late s id) : s.stage? id ≠ none := by
  rcases h with h | h <;> simp [h]

/-- What becomes of the stage of a lease once it was active. -/
structure Ages (s s' : Shared) (id : LeaseId) : Prop where
  active : s.stage? id = some .active → Late s' id
  released : s.stage? id = some .released → s'.stage? id = some .released
  before : s'.stage? id = some .released → Late s id

theorem Ages.late (h : Ages s s' id) (hl : Late s id) : Late s' id := by
  rcases hl with hl | hl
  · exact h.active hl
  · exact Or.inr (h.released hl)

/-- A lease that ceases to be active is released. -/
theorem Ages.ends (h : Ages s s' id) (hactive : s.stage? id = some .active)
    (hover : s'.stage? id ≠ some .active) : s'.stage? id = some .released :=
  (h.active hactive).resolve_left hover

theorem ages_begins {d : Option LeaseOp} (h : Begins s d s') (id : LeaseId) : Ages s s' id := by
  have hstage := h.stage id
  constructor
  · intro hactive
    rw [hactive] at hstage
    unfold Late
    generalize s'.stage? id = after at hstage ⊢
    cases hstage with
    | same => exact Or.inl rfl
    | givenUp => exact Or.inr rfl
  · intro hreleased
    rw [hreleased] at hstage
    generalize s'.stage? id = after at hstage ⊢
    cases hstage
    rfl
  · intro hreleased
    rw [hreleased] at hstage
    unfold Late
    generalize s.stage? id = before at hstage ⊢
    cases hstage with
    | same => exact Or.inr rfl
    | made stage early => simp at early
    | givenUp => exact Or.inl rfl

theorem ages_moves {d : LeaseOp} (h : StageMoves d id (s.stage? id) (s'.stage? id)) :
    Ages s s' id where
  active := fun hactive => Or.inl ((h.late (Or.inl hactive)).trans hactive)
  released := fun hreleased => h.released.2 hreleased
  before := fun hreleased => Or.inr (h.released.1 hreleased)

theorem idle_begins {d : Option LeaseOp} (h : Begins s d s') (hidle : s'.stage? id = some .idle) :
    s.stage? id = some .idle ∨ s.stage? id = none := by
  have hstage := h.stage id
  rw [hidle] at hstage
  generalize s.stage? id = before at hstage ⊢
  cases hstage with
  | same => exact Or.inl rfl
  | made => exact Or.inr rfl

/-- What is about to be acquired was idle or has just been made. -/
theorem acquires_begins {a : Acquire} {place : Acquire.Place}
    (h : Begins s (some (.acquire a place)) s') :
    (s.stage? a.lease = some .idle ∨ s.stage? a.lease = none) ∧ s'.stage? a.lease ≠ none := by
  have hstage := h.stage a.lease
  cases h with
  | attempt a l found idle marker agrees =>
    have hidle : s.stage? a.lease = some .idle := by
      rw [Shared.stage?, found, Option.map_some, idle]
    refine ⟨Or.inl hidle, fun hnone => ?_⟩
    rw [hidle, hnone] at hstage
    cases hstage
  | acquisition target lease a fresh new marker agrees =>
    refine ⟨Or.inr ?_, ?_⟩
    · simp [Shared.stage?, Shared.lease?, new]
    · rw [agrees.stage?, Shared.stage?_modifyLease (l := lease)
        (by simp [Shared.addLease, Shared.lease?, new]), if_pos rfl]
      simp

end

/-! ## What was put on record -/

section

variable {g g' : Gateway} {log : List Entry} {id : LeaseId}

/-- A lease whose timer is started is acquired by nobody. -/
theorem Timed.quit (h : Timed g log) {deadline : Instant}
    (harmed : g.shared.timer? id = some (.armed deadline)) : Quit g id := by
  rintro i a place hi rfl
  rcases h.starting i a place hi with hunset | ⟨hcancelled, -⟩
  · rw [harmed] at hunset
    cases hunset
  · rw [harmed] at hcancelled
    cases hcancelled

theorem Timed.late (h : Timed g log) {time : Instant} {expiry : Duration}
    (hg : .granted id time expiry ∈ log) : Late g.shared id := by
  rcases (h.granted id time expiry hg).2 with ⟨-, hlate⟩ | ⟨hreleased, -⟩
  · exact hlate
  · exact Or.inr hreleased

/-- A lease that has ended is not active any more. -/
theorem Timed.not_active (h : Timed g log) {time : Instant} {forced : Bool}
    (he : .ended id time forced ∈ log) : g.shared.stage? id ≠ some .active := by
  rw [(h.ended id time forced he).1]
  simp

theorem Timed.once_changes (h : Timed g log) {b : Bool} {time time' : Instant}
    {forced forced' : Bool} (he : .ended id time forced ∈ changes g g' b ++ log)
    (he' : .ended id time' forced' ∈ changes g g' b ++ log) :
    time = time' ∧ forced = forced' := by
  rcases List.mem_append.1 he with he | he <;> rcases List.mem_append.1 he' with he' | he'
  · obtain ⟨-, -, rfl, rfl⟩ := ended_of_changes he
    obtain ⟨-, -, rfl, rfl⟩ := ended_of_changes he'
    exact ⟨rfl, rfl⟩
  · exact absurd (ended_of_changes he).1 (h.not_active he')
  · exact absurd (ended_of_changes he').1 (h.not_active he)
  · exact h.once id time time' forced forced' he he'

theorem Timed.gone_changes (h : Timed g log) (ha : Ages g.shared g'.shared id) (b : Bool)
    (hreleased : g'.shared.stage? id = some .released) :
    ∃ time forced, .ended id time forced ∈ changes g g' b ++ log := by
  rcases ha.before hreleased with hactive | hbefore
  · have hover : g'.shared.stage? id ≠ some .active := by
      rw [hreleased]
      simp
    exact ⟨_, b, List.mem_append_left _ (ended_mem hactive hover)⟩
  · obtain ⟨time, forced, he⟩ := h.gone id hbefore
    exact ⟨time, forced, List.mem_append_right _ he⟩

theorem Timed.asked_changes (h : Timed g log) {b : Bool} {place : Surrender.Place} {time : Instant}
    {request : Request} (ha : .asked (.expiring id place) time request ∈ changes g g' b ++ log) :
    ∃ time', .ended id time' true ∈ changes g g' b ++ log := by
  obtain ⟨time', he⟩ := h.asked id place time request
    ((List.mem_append.1 ha).resolve_left not_asked_changes)
  exact ⟨time', List.mem_append_right _ he⟩

end

/-! ## What starts -/

section

variable {g g' : Gateway} {log : List Entry} {id : LeaseId} {d : Option LeaseOp} {forced : Bool}

theorem Quit.starts (h : Quit g id) (hlate : Late g.shared id)
    (hs : g.Starts g.tasks.length d g') : Quit g' id := by
  intro i a place hi
  rw [hs.leaseOps] at hi
  by_cases hlast : i = g.tasks.length
  · subst hlast
    rw [Function.update_self] at hi
    subst hi
    rintro rfl
    rcases (acquires_begins hs.begins).1 with hidle | hnone
    · exact hlate.ne_idle hidle
    · exact hlate.ne_none hnone
  · rw [Function.update_of_ne hlast] at hi
    exact h i a place hi

/-- What starts does to timers: nothing, a lease is made whose timer is not started, or the timer of
a lease runs just when it is due, and the lease is released. -/
inductive Retimes (s s' : Shared) (forced : Bool) (id : LeaseId) : Prop where
  | same (timer : s'.timer? id = s.timer? id)
  | made (absent : s.stage? id = none) (timer : s'.timer? id = some .unset)
  | fired (force : forced = true) (due : s.timer? id = some (.armed s.now))
      (timer : s'.timer? id = some .fired) (stage : s'.stage? id = some .released)

/-- Whatever starts, and no timer is started by it. What a timer does begins when the timer is
due. -/
structure Opens (g g' : Gateway) (forced : Bool) (d : Option LeaseOp) : Prop where
  starts : g.Starts g.tasks.length d g'
  now : g'.shared.now = g.shared.now
  timers : g'.shared.timers = g.shared.timers
  retimes : ∀ id, Retimes g.shared g'.shared forced id
  ends : ∀ id, g.shared.stage? id = some .active → g'.shared.stage? id ≠ some .active →
    forced = true → g.shared.timer? id = some (.armed g.shared.now)
  task : g'.tasks = g.tasks ∨ ∃ t, g'.tasks = g.tasks ++ [t] ∧
    ((∃ d, t.lone? = some d) ∨ ∃ result, t = .finished result) ∧
    ∀ id place, t = .expiring id place → forced = true ∧ g.shared.stage? id = some .active ∧
      g'.shared.stage? id ≠ some .active

namespace Opens

/-- The tasks after something has started. -/
theorem task_cases (ho : Opens g g' forced d) {i : TaskId} {t : Task}
    (ht : g'.task? i = some t) : g.task? i = some t ∨
      i = g.tasks.length ∧ ((∃ d, t.lone? = some d) ∨ ∃ result, t = .finished result) ∧
      ∀ id place, t = .expiring id place → forced = true ∧ g.shared.stage? id = some .active ∧
        g'.shared.stage? id ≠ some .active := by
  rcases ho.task with hsame | ⟨t', hadded, ht'⟩
  · rw [Gateway.task?, hsame] at ht
    exact Or.inl ht
  · rw [Gateway.task?_concat hadded] at ht
    by_cases hi : i = g.tasks.length
    · subst hi
      rw [Function.update_self] at ht
      cases ht
      exact Or.inr ⟨rfl, ht'⟩
    · rw [Function.update_of_ne hi] at ht
      exact Or.inl ht

/-- No lease is acquired by what starts. -/
theorem granted_of_mem (ho : Opens g g' forced d) {time : Instant} {expiry : Duration}
    (hg : .granted id time expiry ∈ changes g g' forced ++ log) :
    .granted id time expiry ∈ log := by
  refine (List.mem_append.1 hg).resolve_left fun hg => ?_
  obtain ⟨i, a, place, ht, ht', -⟩ := granted_of_changes hg
  rcases ho.task_cases ht' with hold | ⟨rfl, -⟩
  · rw [ht] at hold
    cases hold
  · rw [g.task?_length] at ht
    cases ht

theorem unset (ho : Opens g g' forced d) (h : Timed g log)
    (hidle : g'.shared.stage? id = some .idle) : g'.shared.timer? id = some .unset := by
  cases ho.retimes id with
  | same timer =>
    rw [timer]
    rcases idle_begins ho.starts.begins hidle with hidle | hnone
    · exact h.unset id hidle
    · rw [timer?_eq_none.2 hnone, timer?_eq_none, hidle] at timer
      cases timer
  | made absent timer => exact timer
  | fired force due timer stage =>
    rw [hidle] at stage
    cases stage

/-- Whoever comes to acquire a lease finds it idle, or has just made it. -/
theorem unset_new (ho : Opens g g' forced d) (h : Timed g log) {a : Acquire}
    {place : Acquire.Place} (hd : d = some (.acquire a place)) :
    g'.shared.timer? a.lease = some .unset := by
  subst hd
  obtain ⟨hbefore, hafter⟩ := acquires_begins ho.starts.begins
  cases ho.retimes a.lease with
  | same timer =>
    rw [timer]
    rcases hbefore with hidle | hnone
    · exact h.unset _ hidle
    · rw [timer?_eq_none.2 hnone, timer?_eq_none] at timer
      exact absurd timer hafter
  | made absent timer => exact timer
  | fired force due timer stage =>
    obtain ⟨-, -, hlate⟩ := h.armed _ _ due
    rcases hbefore with hidle | hnone
    · exact absurd hidle hlate.ne_idle
    · exact absurd hnone hlate.ne_none

theorem starting (ho : Opens g g' forced d) (h : Timed g log) {i : TaskId} {a : Acquire}
    {place : Acquire.Place} (hi : g'.leaseOps i = some (.acquire a place)) :
    g'.shared.timer? a.lease = some .unset ∨
      g'.shared.timer? a.lease = some .cancelled ∧ g'.shared.stage? a.lease = some .released := by
  rw [ho.starts.leaseOps] at hi
  by_cases hlast : i = g.tasks.length
  · subst hlast
    rw [Function.update_self] at hi
    exact Or.inl (ho.unset_new h hi)
  · rw [Function.update_of_ne hlast] at hi
    cases ho.retimes a.lease with
    | same timer =>
      rw [timer]
      exact (h.starting i a place hi).imp_right fun hc =>
        ⟨hc.1, (ages_begins ho.starts.begins a.lease).released hc.2⟩
    | made absent timer => exact Or.inl timer
    | fired force due timer stage => exact absurd rfl (h.quit due i a place hi)

theorem armed (ho : Opens g g' forced d) (h : Timed g log) {deadline : Instant}
    (harmed : g'.shared.timer? id = some (.armed deadline)) :
    id ∈ g'.shared.timers ∧ g'.shared.now ≤ deadline ∧ Late g'.shared id := by
  cases ho.retimes id with
  | same timer =>
    rw [timer] at harmed
    obtain ⟨hnoted, hearly, hlate⟩ := h.armed id deadline harmed
    rw [ho.timers, ho.now]
    exact ⟨hnoted, hearly, (ages_begins ho.starts.begins id).late hlate⟩
  | made absent timer =>
    rw [timer] at harmed
    cases harmed
  | fired force due timer stage =>
    rw [timer] at harmed
    cases harmed

theorem granted (ho : Opens g g' forced d) (h : Timed g log) {time : Instant} {expiry : Duration}
    (hg : .granted id time expiry ∈ log) : Quit g' id ∧
      (g'.shared.timer? id = some (.armed (time + expiry.nanos)) ∧ Late g'.shared id ∨
        g'.shared.stage? id = some .released ∧
          ∀ deadline, g'.shared.timer? id ≠ some (.armed deadline)) := by
  obtain ⟨hq, htimer⟩ := h.granted id time expiry hg
  refine ⟨hq.starts (h.late hg) ho.starts, ?_⟩
  have hages := ages_begins ho.starts.begins id
  cases ho.retimes id with
  | same timer =>
    rw [timer]
    exact htimer.imp (fun ha => ⟨ha.1, hages.late ha.2⟩) fun hr => ⟨hages.released hr.1, hr.2⟩
  | made absent timer => exact absurd absent (h.late hg).ne_none
  | fired force due timer stage =>
    refine Or.inr ⟨stage, fun deadline harmed => ?_⟩
    rw [timer] at harmed
    cases harmed

/-- A lease that its timer ends was acquired for as long as it has lasted. -/
theorem ended_new (ho : Opens g g' forced d) (h : Timed g log)
    (hactive : g.shared.stage? id = some .active) (hover : g'.shared.stage? id ≠ some .active)
    (hforced : forced = true) : Quit g' id ∧ ∀ start expiry, .granted id start expiry ∈ log →
      g'.shared.now = start + expiry.nanos := by
  have hdue := ho.ends id hactive hover hforced
  refine ⟨(h.quit hdue).starts (Or.inl hactive) ho.starts, fun start expiry hg => ?_⟩
  rcases (h.granted id start expiry hg).2 with ⟨harmed, -⟩ | ⟨hreleased, -⟩
  · rw [hdue] at harmed
    rw [ho.now]
    simpa using harmed
  · rw [hactive] at hreleased
    cases hreleased

theorem ended (ho : Opens g g' forced d) (h : Timed g log) {time : Instant} {forced' : Bool}
    (he : .ended id time forced' ∈ changes g g' forced ++ log) :
    g'.shared.stage? id = some .released ∧ (forced' = true → Quit g' id ∧
      ∀ start expiry, .granted id start expiry ∈ changes g g' forced ++ log →
        time = start + expiry.nanos) := by
  have hages := ages_begins ho.starts.begins id
  rcases List.mem_append.1 he with he | he
  · obtain ⟨hactive, hover, rfl, rfl⟩ := ended_of_changes he
    refine ⟨hages.ends hactive hover, fun hforced => ?_⟩
    obtain ⟨hquit, hexact⟩ := ho.ended_new h hactive hover hforced
    exact ⟨hquit, fun start expiry hg => hexact start expiry (ho.granted_of_mem hg)⟩
  · obtain ⟨hreleased, hforced⟩ := h.ended id time forced' he
    refine ⟨hages.released hreleased, fun hf => ?_⟩
    exact ⟨(hforced hf).1.starts (Or.inr hreleased) ho.starts,
      fun start expiry hg => (hforced hf).2 start expiry (ho.granted_of_mem hg)⟩

end Opens

theorem Timed.opens (h : Timed g log) (ho : Opens g g' forced d) :
    Timed g' (changes g g' forced ++ log) := by
  constructor
  · rw [ho.starts.leaseOps]
    exact h.orderly.begins ho.starts.idle ho.starts.begins
  · intro i t ht
    rcases ho.task_cases ht with ht | ⟨-, hlone, -⟩
    · exact h.lone i t ht
    · exact hlone
  · exact fun id => ho.unset h
  · exact fun i a place => ho.starting h
  · exact fun id deadline => ho.armed h
  · exact fun id time expiry hg => ho.granted h (ho.granted_of_mem hg)
  · exact fun id time forced' => ho.ended h
  · exact fun id time time' f f' => h.once_changes
  · exact fun id => h.gone_changes (ages_begins ho.starts.begins id) forced
  · intro i id place ht
    rcases ho.task_cases ht with ht | ⟨-, -, hexpiry⟩
    · obtain ⟨time, he⟩ := h.expiring i id place ht
      exact ⟨time, List.mem_append_right _ he⟩
    · obtain ⟨rfl, hactive, hover⟩ := hexpiry id place rfl
      exact ⟨_, List.mem_append_left _ (ended_mem hactive hover)⟩
  · exact fun id place time request => h.asked_changes

end

/-! ## Calls and timers -/

section

variable {g : Gateway} {log : List Entry}

theorem timer?_modifyLease_same {s : Shared} {id : LeaseId} {f : Lease → Lease}
    (h : ∀ l, (f l).timer = l.timer) (n : LeaseId) :
    (s.modifyLease id f).timer? n = s.timer? n := by
  rw [timer?_modifyLease (fun timer => timer) h, Option.map_id', ite_self]

/-- A task that somebody waits for is no matter of timers. -/
theorem lone_ofStep {π ρ : Type} {place : π → Task} {result : ρ → TaskResult}
    (h : ∀ p, (∃ d, (place p).lone? = some d) ∧ (place p).isExpiry = false) (step : Step π ρ) :
    ((∃ d, (Task.ofStep place result step).lone? = some d) ∨
      ∃ r, Task.ofStep place result step = .finished r) ∧
    (Task.ofStep place result step).isExpiry = false := by
  cases step with
  | paused p => exact ⟨Or.inl (h p).1, (h p).2⟩
  | done r => exact ⟨Or.inr ⟨_, rfl⟩, rfl⟩

theorem timer_fresh {target : Path} {l : Lease} (h : Lease.fresh target = .ok l) :
    l.timer = .unset := by
  unfold Lease.fresh at h
  split at h
  · cases h
    rfl
  · cases h

theorem opens_addLease (g : Gateway) (target : Path) :
    Opens g (g.call (.addLease target)) false none := by
  have hshared : g.call (.addLease target) = g ∨ ∃ lease : Lease, lease.timer = .unset ∧
      g.call (.addLease target) = { g with shared := (g.shared.addLease lease).2 } := by
    cases hf : Lease.fresh target with
    | error e =>
      simp only [Gateway.call, Gateway.addLease, hf, Except.map]
      exact Or.inl trivial
    | ok lease =>
      simp only [Gateway.call, Gateway.addLease, hf, Except.map]
      exact Or.inr ⟨lease, timer_fresh hf, rfl⟩
  refine ⟨g.starts_addLease target, ?_, ?_, ?_, ?_, Or.inl (g.tasks_addLease target)⟩
  · rcases hshared with hsame | ⟨lease, -, hmade⟩
    · rw [hsame]
    · rw [hmade]
      rfl
  · rcases hshared with hsame | ⟨lease, -, hmade⟩
    · rw [hsame]
    · rw [hmade]
      rfl
  · intro id
    rcases hshared with hsame | ⟨lease, hunset, hmade⟩
    · rw [hsame]
      exact .same rfl
    · rw [hmade]
      have hlease : (g.shared.addLease lease).2.lease? id = (g.shared.leases ++ [lease])[id]? := rfl
      rcases Nat.lt_trichotomy id g.shared.leases.length with hid | hid | hid
      · refine .same ?_
        rw [Shared.timer?, hlease, List.getElem?_append_left hid]
        rfl
      · subst hid
        refine .made ?_ ?_
        · simp [Shared.stage?, Shared.lease?]
        · rw [Shared.timer?, hlease, List.getElem?_concat_length, Option.map_some, hunset]
      · refine .same ?_
        rw [Shared.timer?, hlease, List.getElem?_eq_none (by simp; omega), Shared.timer?,
          Shared.lease?, List.getElem?_eq_none (Nat.le_of_lt hid)]
  · intro id _ _ hforced
    cases hforced

/-- A call leaves all timers alone. -/
theorem opens_add {t : Task} {s : Shared} {d : Option LeaseOp}
    (hs : g.Starts g.tasks.length d (g.add t s).2)
    (hsame : s.now = g.shared.now ∧ s.timers = g.shared.timers ∧
      ∀ id, s.timer? id = g.shared.timer? id)
    (ht : ((∃ d, t.lone? = some d) ∨ ∃ result, t = .finished result) ∧ t.isExpiry = false) :
    Opens g (g.add t s).2 false d := by
  refine ⟨hs, hsame.1, hsame.2.1, fun id => .same (hsame.2.2 id), ?_, ?_⟩
  · intro id _ _ hforced
    cases hforced
  · refine Or.inr ⟨t, rfl, ht.1, ?_⟩
    rintro id place rfl
    cases ht.2

theorem opens_acquire (g : Gateway) (lease : LeaseId) (backend : Backend) (options : Options)
    (expiry : Duration) :
    ∃ d, Opens g (g.call (.acquire lease backend options expiry)) false d := by
  obtain ⟨d, hs⟩ := g.starts_acquire lease backend options expiry
  have hstart : ∀ a : Acquire, (a.start g.shared).2.now = g.shared.now ∧
      (a.start g.shared).2.timers = g.shared.timers ∧
      ∀ id, (a.start g.shared).2.timer? id = g.shared.timer? id := by
    intro a
    unfold Acquire.start
    split
    · exact ⟨rfl, rfl, fun _ => rfl⟩
    · split
      · exact ⟨rfl, rfl, timer?_modifyLease_same fun _ => rfl⟩
      · exact ⟨rfl, rfl, fun _ => rfl⟩
  exact ⟨d, opens_add hs (hstart _) (lone_ofStep (fun _ => ⟨⟨_, rfl⟩, rfl⟩) _)⟩

theorem opens_release (g : Gateway) (lease : LeaseId) (strict : Bool) :
    ∃ d, Opens g (g.call (.release lease strict)) false d := by
  obtain ⟨d, hs⟩ := g.starts_release lease strict
  have hstart : (Release.start lease g.shared).2.now = g.shared.now ∧
      (Release.start lease g.shared).2.timers = g.shared.timers ∧
      ∀ id, (Release.start lease g.shared).2.timer? id = g.shared.timer? id := by
    unfold Release.start
    split
    · exact ⟨rfl, rfl, fun _ => rfl⟩
    · split
      · exact ⟨rfl, rfl, timer?_modifyLease_same fun _ => rfl⟩
      · exact ⟨rfl, rfl, fun _ => rfl⟩
  exact ⟨d, opens_add hs hstart (lone_ofStep (fun _ => ⟨⟨_, rfl⟩, rfl⟩) _)⟩

theorem fire_active {id : LeaseId} {l : Lease} (hl : g.shared.lease? id = some l)
    (hdue : Expiry.isDue l g.shared.now = true) (hactive : l.state = .active) :
    g.fire id = ⟨g.shared.modifyLease id fun l => { l with state := .released, timer := .fired },
      g.tasks ++ [.expiring id .taking]⟩ := by
  simp only [Gateway.fire, Expiry.start, hl, hdue, hactive, if_true]
  rfl

theorem fire_inactive {id : LeaseId} {l : Lease} (hl : g.shared.lease? id = some l)
    (hdue : Expiry.isDue l g.shared.now = true) (hactive : l.state ≠ .active) :
    g.fire id =
      { g with shared := g.shared.modifyLease id fun l => { l with timer := .fired } } := by
  simp only [Gateway.fire, Expiry.start, hl, hdue, hactive, if_true, if_false]

/-- A timer that is due is due just now, or it would have run before. -/
theorem Timed.due (h : Timed g log) {id : LeaseId} {l : Lease} (hl : g.shared.lease? id = some l)
    (hdue : Expiry.isDue l g.shared.now = true) :
    g.shared.timer? id = some (.armed g.shared.now) ∧ Late g.shared id := by
  have htimer : g.shared.timer? id = some l.timer := by rw [Shared.timer?, hl, Option.map_some]
  unfold Expiry.isDue at hdue
  split at hdue
  · next deadline harmed =>
    rw [harmed] at htimer
    obtain ⟨-, hearly, hlate⟩ := h.armed id deadline htimer
    have hnow : deadline = g.shared.now := Nat.le_antisymm (of_decide_eq_true hdue) hearly
    rw [hnow] at htimer
    exact ⟨htimer, hlate⟩
  · cases hdue

/-- A timer that is due runs, and its lease is released by then. -/
theorem retimes_fired {s : Shared} {id : LeaseId} {f : Lease → Lease}
    (hdue : s.timer? id = some (.armed s.now)) (hf : ∀ l, (f l).timer = .fired)
    (hreleased : (s.modifyLease id f).stage? id = some .released) (n : LeaseId) :
    Retimes s (s.modifyLease id f) true n := by
  have hn : (s.modifyLease id f).timer? n =
      if id = n then (s.timer? n).map fun _ => .fired else s.timer? n :=
    timer?_modifyLease (fun _ => .fired) hf
  by_cases hid : id = n
  · subst hid
    rw [if_pos rfl, hdue] at hn
    exact .fired rfl hdue hn hreleased
  · rw [if_neg hid] at hn
    exact .same hn

/-- The timer of a lease runs when it is due, and only then. -/
theorem Timed.fire_cases (h : Timed g log) (id : LeaseId) :
    g.fire id = g ∨ ∃ d, Opens g (g.fire id) true d := by
  obtain ⟨d, hs⟩ := g.starts_fire id
  cases hl : g.shared.lease? id with
  | none =>
    left
    simp only [Gateway.fire, hl]
  | some l =>
    by_cases hdue : Expiry.isDue l g.shared.now = true
    · right
      obtain ⟨harmed, hlate⟩ := h.due hl hdue
      have hstage : g.shared.stage? id = some l.state := by rw [Shared.stage?, hl, Option.map_some]
      by_cases hactive : l.state = .active
      · rw [fire_active hl hdue hactive] at hs ⊢
        have hafter := fun n => Shared.stage?_modifyLease (n := n)
          (f := fun l => { l with state := .released, timer := .fired }) hl
        have hreleased := (hafter id).trans (if_pos rfl)
        refine ⟨d, hs, rfl, rfl, retimes_fired harmed (fun _ => rfl) hreleased, ?_, ?_⟩
        · intro n hn hover _
          -- no other lease ceases to be active
          have hid : id = n := by
            by_contra hid
            exact hover ((hafter n).trans ((if_neg hid).trans hn))
          exact hid ▸ harmed
        · refine Or.inr ⟨_, rfl, Or.inl ⟨_, rfl⟩, fun n place heq => ?_⟩
          cases heq
          refine ⟨rfl, hstage.trans (congrArg some hactive), fun hn => ?_⟩
          rw [hreleased] at hn
          cases hn
      · rw [fire_inactive hl hdue hactive] at hs ⊢
        have hafter := fun n => Shared.stage?_modifyLease (n := n)
          (f := fun l => { l with timer := .fired }) hl
        -- the lease was given up before, and stays so
        have hgone : l.state = .released := by
          unfold Late at hlate
          rw [hstage] at hlate
          exact Option.some.inj (hlate.resolve_left fun hn => hactive (Option.some.inj hn))
        have hreleased := (hafter id).trans ((if_pos rfl).trans (congrArg some hgone))
        refine ⟨d, hs, rfl, rfl, retimes_fired harmed (fun _ => rfl) hreleased, ?_, Or.inl rfl⟩
        intro n hn hover _
        have hid : id = n := by
          by_contra hid
          exact hover ((hafter n).trans ((if_neg hid).trans hn))
        exact hid ▸ harmed
    · left
      simp only [Gateway.fire, hl, if_neg hdue]

end

/-! ## Answers -/

section

variable {g g' : Gateway} {log : List Entry} {id : LeaseId} {i : TaskId} {t t' : Task} {d : LeaseOp}
  {reply : Reply} {step : Step LeaseOp LeaseOp.Ending}

/-- What a task does next about its lease is what its lease operation comes to. -/
theorem follows_leaseOp (h : t.Follows step t') : t'.leaseOp? = step.place? := by
  cases h <;> rfl

theorem follows_lone (h : t.Follows step t') :
    (∃ d, t'.lone? = some d) ∨ ∃ result, t' = .finished result := by
  cases h with
  | acquired a place result => exact Or.inr ⟨_, rfl⟩
  | released lease marker strict place result => exact Or.inr ⟨_, rfl⟩
  | expired lease place result => exact Or.inr ⟨_, rfl⟩
  | _ => exact Or.inl ⟨_, rfl⟩

/-- What a timer does goes on with its own lease. -/
theorem follows_expiring {place : Surrender.Place} (h : t.Follows step (.expiring id place)) :
    ∃ place', t = .expiring id place' := by
  cases h with
  | expiring lease place' => exact ⟨place', rfl⟩

/-- Whoever is told that a lease is acquired has started its timer. -/
theorem follows_granted {a : Acquire} {place : Acquire.Place}
    (h : Task.Follows (.acquiring a place) step (.finished (.acquired (.ok true)))) :
    step = .done (.acquired (.ok true)) := by
  cases h
  rfl

/-- A task goes on with the answer that it waits for. -/
structure Goes (g g' : Gateway) (i : TaskId) (t t' : Task) (d : LeaseOp) (reply : Reply)
    (step : Step LeaseOp LeaseOp.Ending) : Prop where
  task : g.task? i = some t
  lone : t.lone? = some d
  moves : d.Moves g.shared.writer g.shared reply step g'.shared
  follows : t.Follows step t'
  tasks : g'.tasks = g.tasks.set i t'

/-- What an answer does to timers: nothing, the timer of a lease is started, or it is cancelled
since its lease was given up. -/
inductive Winds (s s' : Shared) (d : LeaseOp) (step : Step LeaseOp LeaseOp.Ending) (id : LeaseId) :
    Prop where
  | same (timer : s'.timer? id = s.timer? id)
  | started (a : Acquire) (leaseOp : d = .acquire a .arming) (lease : a.lease = id)
      (done : step.place? = none) (timer : s'.timer? id = some (.armed (s.now + a.expiry.nanos)))
      (late : Late s id) (noted : id ∈ s'.timers)
  | cancelled (timer : s'.timer? id = some .cancelled) (released : s.stage? id = some .released)

namespace Goes

theorem leaseOp (hg : Goes g g' i t t' d reply step) : g.leaseOps i = some d :=
  Gateway.leaseOps_of_lone hg.task hg.lone

theorem task? (hg : Goes g g' i t t' d reply step) :
    g'.task? = Function.update g.task? i (some t') := by
  rw [← Gateway.task?_set hg.task t' g'.shared, ← hg.tasks]

theorem leaseOps (hg : Goes g g' i t t' d reply step) :
    g'.leaseOps = Function.update g.leaseOps i step.place? := by
  rw [← follows_leaseOp hg.follows, ← Gateway.leaseOps_set hg.task t' g'.shared, ← hg.tasks]

theorem ages (hg : Goes g g' i t t' d reply step) (h : Timed g log) (id : LeaseId) :
    Ages g.shared g'.shared id := by
  obtain ⟨l, hl, hfits⟩ := h.orderly.fits i d hg.leaseOp
  exact ages_moves (hg.moves.stage hl hfits id)

/-- A lease that an answer concerns is where its lease operation has it. -/
theorem fits (hg : Goes g g' i t t' d reply step) (h : Timed g log) :
    ∃ l, g.shared.stage? d.lease = some l.state ∧ d.Fits l := by
  obtain ⟨l, hl, hfits⟩ := h.orderly.fits i d hg.leaseOp
  exact ⟨l, by rw [Shared.stage?, hl, Option.map_some], hfits⟩

/-- An answer lets nobody begin to acquire a lease. -/
theorem acquirer (hg : Goes g g' i t t' d reply step) {j : TaskId} {a : Acquire}
    {place : Acquire.Place} (hj : g'.leaseOps j = some (.acquire a place)) :
    ∃ b place', g.leaseOps j = some (.acquire b place') ∧ b.lease = a.lease := by
  rw [hg.leaseOps] at hj
  by_cases hji : j = i
  · subst hji
    rw [Function.update_self] at hj
    cases step with
    | done result => cases hj
    | paused e =>
      cases hj
      obtain ⟨hlease, hkind⟩ := hg.moves.lease
      have hd := hg.leaseOp
      cases d with
      | acquire b place' => exact ⟨b, place', hd, hlease.symm⟩
      | surrender r place' => cases hkind
  · rw [Function.update_of_ne hji] at hj
    exact ⟨a, place, hj, rfl⟩

theorem quit (hg : Goes g g' i t t' d reply step) (h : Quit g id) : Quit g' id := by
  rintro j a place hj rfl
  obtain ⟨b, place', hb, hlease⟩ := hg.acquirer hj
  exact h j b place' hb hlease

/-- Whoever acquires a lease starts its timer, unless the lease was given up meanwhile: then its
timer is cancelled, and never started. -/
theorem arming {a : Acquire} (hg : Goes g g' i t t' (.acquire a .arming) reply step)
    (h : Timed g log) : step.place? = none ∧ a.lease ∈ g'.shared.timers ∧
      (g'.shared.timer? a.lease = some (.armed (g.shared.now + a.expiry.nanos)) ∨
        g.shared.timer? a.lease = some .cancelled ∧ g'.shared.timer? a.lease = some .cancelled ∧
          g.shared.stage? a.lease = some .released) := by
  have htimer := (timer?_moves hg.moves a.lease).trans (if_pos rfl)
  obtain ⟨-, ⟨b, hb, hstep, htimers⟩ | ⟨-, -, hother⟩⟩ := timers_moves hg.moves
  · cases hb
    refine ⟨by rw [hstep]; rfl, ?_, ?_⟩
    · rw [htimers]
      exact List.mem_append_right _ (List.mem_singleton_self _)
    · rcases h.starting i a .arming hg.leaseOp with hunset | ⟨hcancelled, hreleased⟩
      · rw [hunset] at htimer
        exact Or.inl htimer
      · rw [hcancelled] at htimer
        exact Or.inr ⟨hcancelled, htimer, hreleased⟩
  · exact absurd rfl (hother a)

theorem winds_arming {a : Acquire} (hg : Goes g g' i t t' (.acquire a .arming) reply step)
    (h : Timed g log) : Winds g.shared g'.shared (.acquire a .arming) step a.lease := by
  obtain ⟨l, hstage, hfits⟩ := hg.fits h
  have hlate : Late g.shared a.lease :=
    hfits.imp (fun hl => hstage.trans (congrArg some hl)) fun hl => hstage.trans (congrArg some hl)
  obtain ⟨hdone, hnoted, htimer | ⟨hbefore, hafter, -⟩⟩ := hg.arming h
  · exact .started a rfl rfl hdone htimer hlate hnoted
  · exact .same (hafter.trans hbefore.symm)

theorem winds_cancelling {r : Surrender} {held : Held}
    (hg : Goes g g' i t t' (.surrender r (.cancelling held)) reply step) (h : Timed g log) :
    Winds g.shared g'.shared (.surrender r (.cancelling held)) step r.lease := by
  obtain ⟨l, hl, hfits⟩ := h.orderly.fits i _ hg.leaseOp
  have hbefore : g.shared.timer? r.lease = some l.timer := congrArg (Option.map Lease.timer) hl
  have htimer := (timer?_moves hg.moves r.lease).trans (if_pos rfl)
  rw [hbefore] at htimer
  refine .cancelled htimer ?_
  rw [← hfits.1]
  exact congrArg (Option.map Lease.state) hl

theorem winds (hg : Goes g g' i t t' d reply step) (h : Timed g log) (id : LeaseId) :
    Winds g.shared g'.shared d step id := by
  have htimer := timer?_moves hg.moves id
  by_cases hid : d.lease = id
  · subst hid
    rw [if_pos rfl] at htimer
    cases d with
    | acquire a place =>
      cases place with
      | arming => exact hg.winds_arming h
      | _ => exact .same (htimer.trans Option.map_id')
    | surrender r place =>
      cases place with
      | cancelling held => exact hg.winds_cancelling h
      | _ => exact .same (htimer.trans Option.map_id')
  · rw [if_neg hid] at htimer
    exact .same htimer

/-- What was acquired has its timer started, unless it was given up meanwhile. -/
theorem granted_new (hg : Goes g g' i t t' d reply step) {time : Instant}
    {expiry : Duration} {forced : Bool} (hn : .granted id time expiry ∈ changes g g' forced) :
    ∃ a, d = .acquire a .arming ∧ a.lease = id ∧ g.shared.now = time ∧ a.expiry = expiry := by
  obtain ⟨j, a, place, ht, ht', hlease, htime, hexpiry⟩ := granted_of_changes hn
  have hji : j = i := by
    by_contra hji
    rw [hg.task?, Function.update_of_ne hji, ht] at ht'
    cases ht'
  subst hji
  rw [hg.task?, Function.update_self] at ht'
  have htask := hg.task
  rw [ht] at htask
  cases htask
  cases ht'
  have hdone := follows_granted hg.follows
  obtain ⟨hnow, ⟨b, hb, -, -⟩ | ⟨-, hother, -⟩⟩ := timers_moves hg.moves
  · have hd := hg.lone
    rw [hb] at hd
    cases hd
    exact ⟨a, hb, hlease, hnow.symm.trans htime, hexpiry⟩
  · exact absurd hdone hother

/-- No lease is given up by an answer. -/
theorem ended_of_mem (hg : Goes g g' i t t' d reply step) (h : Timed g log) {time : Instant}
    {forced forced' : Bool} (he : .ended id time forced' ∈ changes g g' forced ++ log) :
    .ended id time forced' ∈ log := by
  refine (List.mem_append.1 he).resolve_left fun he => ?_
  obtain ⟨hactive, hover, -⟩ := ended_of_changes he
  obtain ⟨l, hl, hfits⟩ := h.orderly.fits i d hg.leaseOp
  exact hover (((hg.moves.stage hl hfits id).late (Or.inl hactive)).trans hactive)

theorem now (hg : Goes g g' i t t' d reply step) : g'.shared.now = g.shared.now :=
  (timers_moves hg.moves).1

theorem noted (hg : Goes g g' i t t' d reply step) (hn : id ∈ g.shared.timers) :
    id ∈ g'.shared.timers := by
  obtain ⟨-, ⟨a, -, -, htimers⟩ | ⟨htimers, -, -⟩⟩ := timers_moves hg.moves
  · rw [htimers]
    exact List.mem_append_left _ hn
  · rwa [htimers]

theorem unset (hg : Goes g g' i t t' d reply step) (h : Timed g log)
    (hidle : g'.shared.stage? id = some .idle) : g'.shared.timer? id = some .unset := by
  have hages := hg.ages h id
  -- before, the lease was idle, or somebody was about to acquire it and has failed
  have hbefore : g.shared.timer? id = some .unset := by
    obtain ⟨l, hl, hfits⟩ := h.orderly.fits i d hg.leaseOp
    have hstage := hg.moves.stage hl hfits id
    rw [hidle] at hstage
    generalize hs : g.shared.stage? id = before at hstage
    cases hstage with
    | same => exact h.unset id hs
    | failed hlease =>
      subst hlease
      have hacquiring : l.state = .acquiring := by
        rw [Shared.stage?, hl] at hs
        exact Option.some.inj hs
      cases d with
      | acquire a place =>
        refine (h.starting i a place hg.leaseOp).resolve_right fun hreleased => ?_
        rw [show g.shared.stage? a.lease = _ from hs] at hreleased
        cases hreleased.2
      | surrender r place =>
        have hreleased := hfits.released
        rw [hacquiring] at hreleased
        cases hreleased
  cases hg.winds h id with
  | same timer => exact timer.trans hbefore
  | started a leaseOp lease done timer late noted => exact absurd hidle (hages.late late).ne_idle
  | cancelled timer released =>
    rw [hages.released released] at hidle
    cases hidle

/-- Nobody else acquires a lease that was just acquired. -/
theorem quit_new {a : Acquire} (hg : Goes g g' i t t' (.acquire a .arming) reply step)
    (h : Timed g log) (hdone : step.place? = none) : Quit g' a.lease := by
  intro j b place hj hlease
  obtain ⟨c, place', hc, hsame⟩ := hg.acquirer hj
  have hji : j = i := h.orderly.single j i _ _ hc hg.leaseOp (hsame.trans hlease) rfl
  subst hji
  rw [hg.leaseOps, Function.update_self, hdone] at hj
  cases hj

theorem starting (hg : Goes g g' i t t' d reply step) (h : Timed g log) {j : TaskId} {a : Acquire}
    {place : Acquire.Place} (hj : g'.leaseOps j = some (.acquire a place)) :
    g'.shared.timer? a.lease = some .unset ∨
      g'.shared.timer? a.lease = some .cancelled ∧ g'.shared.stage? a.lease = some .released := by
  have hages := hg.ages h a.lease
  cases hg.winds h a.lease with
  | same timer =>
    obtain ⟨b, place', hb, hlease⟩ := hg.acquirer hj
    rw [timer, ← hlease]
    rw [← hlease] at hages
    exact (h.starting j b place' hb).imp_right fun hc => ⟨hc.1, hages.released hc.2⟩
  | started b leaseOp lease done timer late noted =>
    subst leaseOp
    exact absurd lease.symm (hg.quit_new h done j a place hj)
  | cancelled timer released => exact Or.inr ⟨timer, hages.released released⟩

theorem armed (hg : Goes g g' i t t' d reply step) (h : Timed g log) {deadline : Instant}
    (harmed : g'.shared.timer? id = some (.armed deadline)) :
    id ∈ g'.shared.timers ∧ g'.shared.now ≤ deadline ∧ Late g'.shared id := by
  have hages := hg.ages h id
  rw [hg.now]
  cases hg.winds h id with
  | same timer =>
    rw [timer] at harmed
    obtain ⟨hnoted, hearly, hlate⟩ := h.armed id deadline harmed
    exact ⟨hg.noted hnoted, hearly, hages.late hlate⟩
  | started a leaseOp lease done timer late noted =>
    rw [timer] at harmed
    cases harmed
    exact ⟨noted, Nat.le_add_right _ _, hages.late late⟩
  | cancelled timer released =>
    rw [timer] at harmed
    cases harmed

theorem granted_old (hg : Goes g g' i t t' d reply step) (h : Timed g log) {time : Instant}
    {expiry : Duration} (ho : .granted id time expiry ∈ log) : Quit g' id ∧
      (g'.shared.timer? id = some (.armed (time + expiry.nanos)) ∧ Late g'.shared id ∨
        g'.shared.stage? id = some .released ∧
          ∀ deadline, g'.shared.timer? id ≠ some (.armed deadline)) := by
  obtain ⟨hquit, htimer⟩ := h.granted id time expiry ho
  have hages := hg.ages h id
  refine ⟨hg.quit hquit, ?_⟩
  cases hg.winds h id with
  | same timer =>
    rw [timer]
    exact htimer.imp (fun ha => ⟨ha.1, hages.late ha.2⟩) fun hr => ⟨hages.released hr.1, hr.2⟩
  | started a leaseOp lease done timer late noted =>
    subst leaseOp
    exact absurd lease (hquit i a .arming hg.leaseOp)
  | cancelled timer released =>
    refine Or.inr ⟨hages.released released, fun deadline harmed => ?_⟩
    rw [timer] at harmed
    cases harmed

theorem granted (hg : Goes g g' i t t' d reply step) (h : Timed g log) {time : Instant}
    {expiry : Duration} {forced : Bool}
    (hn : .granted id time expiry ∈ changes g g' forced ++ log) : Quit g' id ∧
      (g'.shared.timer? id = some (.armed (time + expiry.nanos)) ∧ Late g'.shared id ∨
        g'.shared.stage? id = some .released ∧
          ∀ deadline, g'.shared.timer? id ≠ some (.armed deadline)) := by
  rcases List.mem_append.1 hn with hn | ho
  · obtain ⟨a, rfl, rfl, rfl, rfl⟩ := hg.granted_new hn
    obtain ⟨hdone, -, htimer | ⟨-, hcancelled, hreleased⟩⟩ := hg.arming h
    · obtain ⟨-, -, hlate⟩ := hg.armed h htimer
      exact ⟨hg.quit_new h hdone, Or.inl ⟨htimer, hlate⟩⟩
    · refine ⟨hg.quit_new h hdone, Or.inr ⟨(hg.ages h a.lease).released hreleased, ?_⟩⟩
      intro deadline harmed
      rw [hcancelled] at harmed
      cases harmed
  · exact hg.granted_old h ho

theorem ended (hg : Goes g g' i t t' d reply step) (h : Timed g log) {time : Instant}
    {forced forced' : Bool} (he : .ended id time forced' ∈ changes g g' forced ++ log) :
    g'.shared.stage? id = some .released ∧ (forced' = true → Quit g' id ∧
      ∀ start expiry, .granted id start expiry ∈ changes g g' forced ++ log →
        time = start + expiry.nanos) := by
  obtain ⟨hreleased, hforced⟩ := h.ended id time forced' (hg.ended_of_mem h he)
  refine ⟨(hg.ages h id).released hreleased, fun hf => ?_⟩
  obtain ⟨hquit, hexact⟩ := hforced hf
  refine ⟨hg.quit hquit, fun start expiry hn => ?_⟩
  rcases List.mem_append.1 hn with hn | ho
  · -- whoever is told just now that it has the lease still had it to acquire
    obtain ⟨a, rfl, hlease, -⟩ := hg.granted_new hn
    exact absurd hlease (hquit i a .arming hg.leaseOp)
  · exact hexact start expiry ho

theorem task_cases (hg : Goes g g' i t t' d reply step) {j : TaskId} {u : Task}
    (hu : g'.task? j = some u) : g.task? j = some u ∨ j = i ∧ u = t' := by
  rw [hg.task?] at hu
  by_cases hji : j = i
  · subst hji
    rw [Function.update_self] at hu
    exact Or.inr ⟨rfl, (Option.some.inj hu).symm⟩
  · rw [Function.update_of_ne hji] at hu
    exact Or.inl hu

end Goes

theorem Timed.goes (h : Timed g log) (hg : Goes g g' i t t' d reply step) (forced : Bool) :
    Timed g' (changes g g' forced ++ log) := by
  constructor
  · rw [hg.leaseOps]
    exact h.orderly.moves hg.leaseOp hg.moves (.refl _)
  · intro j u hu
    rcases hg.task_cases hu with hu | ⟨-, rfl⟩
    · exact h.lone j u hu
    · exact follows_lone hg.follows
  · exact fun id => hg.unset h
  · exact fun j a place => hg.starting h
  · exact fun id deadline => hg.armed h
  · exact fun id time expiry => hg.granted h
  · exact fun id time forced' => hg.ended h
  · exact fun id time time' f f' => h.once_changes
  · exact fun id => h.gone_changes (hg.ages h id) forced
  · intro j id place hu
    obtain ⟨time, he⟩ : ∃ time, .ended id time true ∈ log := by
      rcases hg.task_cases hu with hu | ⟨rfl, rfl⟩
      · exact h.expiring j id place hu
      · obtain ⟨place', rfl⟩ := follows_expiring hg.follows
        exact h.expiring j id place' hg.task
    exact ⟨time, List.mem_append_right _ he⟩
  · exact fun id place time request => h.asked_changes

/-- A task that is answered goes on with its lease. -/
theorem Timed.resume (h : Timed g log) {q : Pending (Shared → Task × Shared)}
    (ht : g.task? i = some t) (hq : t.next? g.shared = some q) (answer : q.request.Answer)
    (forced : Bool) :
    Timed ⟨(q.resume answer g.shared).2, g.tasks.set i (q.resume answer g.shared).1⟩
      (changes g ⟨(q.resume answer g.shared).2, g.tasks.set i (q.resume answer g.shared).1⟩
        forced ++ log) := by
  rcases h.lone i t ht with ⟨d, hd⟩ | ⟨result, rfl⟩
  · obtain ⟨step, hm, hf⟩ := Task.follows_next? hd hq answer
    exact h.goes ⟨ht, hd, hm, hf, rfl⟩ forced
  · cases hq

end

/-! ## Every run in time -/

section

variable {g : Gateway} {log : List Entry}

/-- What is asked for changes nothing else. -/
theorem Timed.asks (h : Timed g log) {asked : List Entry}
    (ha : ∀ entry ∈ asked, ∃ i t time request, entry = .asked t time request ∧
      g.task? i = some t) : Timed g (asked ++ log) := by
  have hgranted : ∀ {id time expiry}, .granted id time expiry ∈ asked ++ log →
      .granted id time expiry ∈ log := by
    intro id time expiry hm
    refine (List.mem_append.1 hm).resolve_left fun hm => ?_
    obtain ⟨i, t, time, request, heq, -⟩ := ha _ hm
    cases heq
  have hended : ∀ {id time forced}, .ended id time forced ∈ asked ++ log →
      .ended id time forced ∈ log := by
    intro id time forced hm
    refine (List.mem_append.1 hm).resolve_left fun hm => ?_
    obtain ⟨i, t, time, request, heq, -⟩ := ha _ hm
    cases heq
  refine { h with granted := ?_, ended := ?_, once := ?_, gone := ?_, expiring := ?_, asked := ?_ }
  · exact fun id time expiry hm => h.granted id time expiry (hgranted hm)
  · intro id time forced hm
    obtain ⟨hreleased, hforced⟩ := h.ended id time forced (hended hm)
    refine ⟨hreleased, fun hf => ⟨(hforced hf).1, fun start expiry hs => ?_⟩⟩
    exact (hforced hf).2 start expiry (hgranted hs)
  · exact fun id time time' f f' hm hm' => h.once id time time' f f' (hended hm) (hended hm')
  · intro id hreleased
    obtain ⟨time, forced, he⟩ := h.gone id hreleased
    exact ⟨time, forced, List.mem_append_right _ he⟩
  · intro i id place ht
    obtain ⟨time, he⟩ := h.expiring i id place ht
    exact ⟨time, List.mem_append_right _ he⟩
  · intro id place time request hm
    obtain ⟨time', he⟩ : ∃ time', .ended id time' true ∈ log := by
      rcases List.mem_append.1 hm with hm | hm
      · obtain ⟨i, t, time, request, heq, ht⟩ := ha _ hm
        cases heq
        exact h.expiring i id place ht
      · exact h.asked id place time request hm
    exact ⟨time', List.mem_append_right _ he⟩

/-- The clock does not advance past a moment at which a timer is due. -/
theorem Timed.advance (h : Timed g log) {now : Instant}
    (hearly : ∀ id deadline, g.shared.timer? id = some (.armed deadline) → now ≤ deadline) :
    Timed (g.advanceTo now) log where
  orderly := h.orderly.of_leases rfl
  lone := h.lone
  unset := h.unset
  starting := h.starting
  armed := by
    intro id deadline harmed
    obtain ⟨hnoted, hbefore, hlate⟩ := h.armed id deadline harmed
    exact ⟨hnoted, Nat.max_le.2 ⟨hbefore, hearly id deadline harmed⟩, hlate⟩
  granted := h.granted
  ended := h.ended
  once := h.once
  gone := h.gone
  expiring := h.expiring
  asked := h.asked

theorem Timed.acts (h : Timed g log) {g' : Gateway} {forced : Bool} (ha : Acts g forced g') :
    Timed g' (changes g g' forced ++ log) := by
  cases ha with
  | nothing =>
    rw [changes_same g g rfl rfl]
    exact h
  | addLease target => exact h.opens (opens_addLease g target)
  | acquire lease backend options expiry =>
    obtain ⟨d, ho⟩ := opens_acquire g lease backend options expiry
    exact h.opens ho
  | release lease strict =>
    obtain ⟨d, ho⟩ := opens_release g lease strict
    exact h.opens ho
  | fire lease =>
    rcases h.fire_cases lease with hsame | ⟨d, ho⟩
    · rw [hsame, changes_same g g rfl rfl]
      exact h
    · exact h.opens ho
  | resume i t q task next answer => exact h.resume task next answer _
  | advance now early =>
    rw [changes_same g (g.advanceTo now) rfl rfl]
    exact h.advance early

theorem timed_start (writer : Diagnostics) : Timed (.start writer) [] where
  orderly := .start writer
  lone := fun i t ht => by cases ht
  unset := fun id hs => by cases hs
  starting := fun i a place hi => by cases hi
  armed := fun id deadline ha => by cases ha
  granted := fun id time expiry hm => by cases hm
  ended := fun id time forced hm => by cases hm
  once := fun id time time' f f' hm => by cases hm
  gone := fun id hs => by cases hs
  expiring := fun i id place ht => by cases ht
  asked := fun id place time request hm => by cases hm

theorem mem_asks {run : Run ε} {e : Event} {entry : Entry} (h : entry ∈ asks run e) :
    ∃ i t time request, entry = .asked t time request ∧ run.gateway.task? i = some t := by
  cases e with
  | begin id =>
    simp only [asks] at h
    split at h
    · next t p hdue ht hp =>
      exact ⟨id, t, _, _, List.mem_singleton.1 h, ht⟩
    · cases h
  | _ => cases h

theorem Timed.step {c : TimedRun ε} (h : Timed c.run.gateway c.log) (w : World ε) (e : Event) :
    Timed (c.step w e).run.gateway (c.step w e).log :=
  (h.asks fun _ => mem_asks).acts (acts_act w c.run e)

/-- However a run goes on, leases and timers go together with what has happened. -/
theorem timed_follow (w : World ε) (writer : Diagnostics) (world : ε) (events : List Event) :
    Timed ((start writer world).follow w events).run.gateway
      ((start writer world).follow w events).log := by
  have hall : ∀ c : TimedRun ε, Timed c.run.gateway c.log →
      Timed (c.follow w events).run.gateway (c.follow w events).log := by
    induction events with
    | nil => exact fun c h => h
    | cons e events ih => exact fun c h => ih (c.step w e) (h.step w e)
  exact hall _ (timed_start writer)

/-- When nothing can go on, no timer is due. -/
theorem Timed.quiet {run : Run ε} (h : Timed run.gateway log) (hquiet : run.isBusy = false)
    {id : LeaseId} {deadline : Instant}
    (harmed : run.gateway.shared.timer? id = some (.armed deadline)) : run.now < deadline := by
  obtain ⟨hnoted, -, -⟩ := h.armed id deadline harmed
  obtain ⟨l, hl, htimer⟩ := Option.map_eq_some_iff.1 harmed
  have hnone : run.gateway.dueTimers = [] := by
    unfold Run.isBusy at hquiet
    simpa using (Bool.or_eq_false_iff.1 hquiet).1
  have hdue := List.filter_eq_nil_iff.1 hnone id hnoted
  simp only [hl, Expiry.isDue, htimer, decide_eq_true_eq] at hdue
  exact Nat.not_le.1 hdue

/-- Leases expire on time, in every world and however a run goes on. -/
theorem punctual_follow (w : World ε) (writer : Diagnostics) (world : ε) (events : List Event) :
    Punctual ((start writer world).follow w events) := by
  have h := timed_follow w writer world events
  generalize (start writer world).follow w events = c at h ⊢
  constructor
  · intro id start expiry time hstart hend
    exact ((h.ended id time true hend).2 rfl).2 start expiry hstart
  · intro id start expiry hstart hquiet hpast
    rcases (h.granted id start expiry hstart).2 with ⟨harmed, -⟩ | ⟨hreleased, -⟩
    · exact absurd hpast (Nat.not_le.2 (h.quiet hquiet harmed))
    · exact hreleased
  · intro id start expiry hstart hnone
    refine (h.late hstart).resolve_right fun hreleased => ?_
    obtain ⟨time, forced, hend⟩ := h.gone id hreleased
    exact hnone time forced hend
  · exact h.once
  · intro id time hend place time' request hasked
    obtain ⟨time'', hforced⟩ := h.asked id place time' request hasked
    cases (h.once id time time'' false true hend hforced).2

end

/-- Files in memory, with a store that takes a millisecond for each call. -/
def slowMemory : World Memory :=
  { Memory.realm.toWorld with
    begin := fun _ request m =>
      match request with
      | .store _ _ => (nanosPerMilli, m)
      | _ => (0, m) }

/-- A lease is acquired within five milliseconds, to last for 20 more. When they have passed, its
timer gives it up and asks for its marker to be deleted. -/
def lapse : List Event :=
  let slowly (moment : Nat) : List Event :=
    [.begin 0, .advance (moment * nanosPerMilli), .answer 0]
  [.addLease ⟨"/out"⟩, .acquire 0 ⟨0, "file://", true⟩ .empty (.ofMillis 20)] ++ slowly 1 ++
    [.begin 0] ++ slowly 2 ++ slowly 3 ++ slowly 4 ++ slowly 5 ++ List.replicate 3 (.begin 0) ++
    [.advance (25 * nanosPerMilli), .fire 0, .begin 1, .begin 1]

/-- What an entry tells of a lease: that it was acquired, and for how long, or that it ended, and
whether it was its timer that made it so. -/
def Entry.told? : Entry → Option (LeaseId × Instant × (Duration ⊕ Bool))
  | .granted lease time expiry => some (lease, time, .inl expiry)
  | .ended lease time forced => some (lease, time, .inr forced)
  | .asked _ _ _ => none

theorem granted_of_told {log : List Entry} {id : LeaseId} {time : Instant} {expiry : Duration}
    (h : (id, time, .inl expiry) ∈ log.filterMap Entry.told?) : .granted id time expiry ∈ log := by
  obtain ⟨entry, hentry, htold⟩ := List.mem_filterMap.1 h
  cases entry with
  | granted lease time expiry =>
    cases htold
    exact hentry
  | _ => cases htold

theorem ended_of_told {log : List Entry} {id : LeaseId} {time : Instant} {forced : Bool}
    (h : (id, time, .inr forced) ∈ log.filterMap Entry.told?) : .ended id time forced ∈ log := by
  obtain ⟨entry, hentry, htold⟩ := List.mem_filterMap.1 h
  cases entry with
  | ended lease time forced =>
    cases htold
    exact hentry
  | _ => cases htold

/-- At that moment nothing can go on any more, while the store still takes its time: the lease is
released. -/
theorem punctual_follow_lapse :
    let c := (start ⟨"host", "10.0.0.1", 7⟩ (Memory.empty fun _ => [])).follow slowMemory lapse
    .granted 0 (5 * nanosPerMilli) (.ofMillis 20) ∈ c.log ∧
      .ended 0 (25 * nanosPerMilli) true ∈ c.log ∧ c.run.now = 25 * nanosPerMilli ∧
      c.run.isBusy = false ∧ c.run.due ≠ [] ∧
      c.run.gateway.shared.stage? 0 = some .released := by
  intro c
  have htold : c.log.filterMap Entry.told? =
      [(0, 25 * nanosPerMilli, .inr true), (0, 5 * nanosPerMilli, .inl (.ofMillis 20))] := by
    decide +kernel
  have hgranted : .granted 0 (5 * nanosPerMilli) (.ofMillis 20) ∈ c.log := by
    apply granted_of_told
    rw [htold]
    exact List.mem_cons_of_mem _ List.mem_cons_self
  have hended : .ended 0 (25 * nanosPerMilli) true ∈ c.log := by
    apply ended_of_told
    rw [htold]
    exact List.mem_cons_self
  have hnow : c.run.now = 25 * nanosPerMilli := by decide +kernel
  have hpast : 5 * nanosPerMilli + (Duration.ofMillis 20).nanos ≤ c.run.now := by
    rw [hnow]
    decide
  have hquiet : c.run.isBusy = false := by decide +kernel
  have hpunctual : Punctual c := punctual_follow slowMemory _ _ lapse
  have hreleased : c.run.gateway.shared.stage? 0 = some .released :=
    hpunctual.released 0 _ _ hgranted hquiet hpast
  have hdue : c.run.due ≠ [] := by decide +kernel
  exact ⟨hgranted, hended, hnow, hquiet, hdue, hreleased⟩

end TimedRun

end FileGateway

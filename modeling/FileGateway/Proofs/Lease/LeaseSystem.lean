import FileGateway.Proofs.Gateway.Calls
import FileGateway.Proofs.Lease.Removal

/-!
# Leases and those who use them

Any number of callers acquire and release leases, strictly or not, and the timers of the leases run
in between. Each of them is a party, and a lease system is a gateway with its parties. The stores
answer whatever they like, and the parties go on in any order.

`LeaseSystem.Sound` is the invariant. It is preserved when somebody comes
(`LeaseSystem.Sound.joins`) and when somebody hears an answer (`LeaseSystem.Sound.hears`), and so it
holds of every lease system that comes about (`LeaseSystem.sound_run`).
-/

namespace FileGateway

/-! ## Parties -/

/-- What a party does about its lease. It may also be the timer of the lease, which has run. -/
inductive Role where
  | acquirer (lease : LeaseId)
  | releaser (lease : LeaseId) (strict : Bool)
  | timer (lease : LeaseId)

/-- The lease that a party is about. -/
def Role.lease : Role → LeaseId
  | acquirer lease => lease
  | releaser lease _ => lease
  | timer lease => lease

/-- Whether a party acquires its lease. -/
def Role.isAcquirer : Role → Bool
  | acquirer _ => true
  | releaser _ _ => false
  | timer _ => false

/-- A caller or a timer, with the lease as it has found it when it came, and the answers it was
given, the latest first. -/
structure Party where
  role : Role
  found : Option Lease
  heard : List Reply

/-- A gateway whose tasks are parties: each party has the number of its task. -/
structure LeaseSystem where
  gateway : Gateway
  parties : List Party

namespace LeaseSystem

/-- What can happen in a lease system. The request of a task is answered, whatever the answer is. -/
inductive Event where
  | addLease (target : Path)
  | acquire (lease : LeaseId) (backend : Backend) (options : Options) (expiry : Duration)
  | release (lease : LeaseId) (strict : Bool)
  | fire (lease : LeaseId)
  | advance (now : Instant)
  | answer (id : TaskId) (answers : (request : Request) → request.Answer)

/-- A lease system without parties. -/
def start (writer : Diagnostics) : LeaseSystem :=
  ⟨.start writer, []⟩

/-- A party comes, if the gateway has got a task for it. -/
def join (c : LeaseSystem) (role : Role) (g : Gateway) : LeaseSystem where
  gateway := g
  parties := c.parties ++ List.replicate (g.tasks.length - c.gateway.tasks.length)
    ⟨role, c.gateway.shared.lease? role.lease, []⟩

/-- What an event makes of a lease system. An event that cannot happen changes nothing. -/
def step (c : LeaseSystem) : Event → LeaseSystem
  | .addLease target => { c with gateway := c.gateway.call (.addLease target) }
  | .acquire lease backend options expiry =>
    c.join (.acquirer lease) (c.gateway.call (.acquire lease backend options expiry))
  | .release lease strict =>
    c.join (.releaser lease strict) (c.gateway.call (.release lease strict))
  | .fire lease => c.join (.timer lease) (c.gateway.fire lease)
  | .advance now => { c with gateway := c.gateway.advanceTo now }
  | .answer id answers =>
    match c.gateway.pending? id with
    | none => c
    | some p =>
      let reply : Reply := ⟨p.request, answers p.request⟩
      { gateway := p.resume (answers p.request)
        parties := c.parties.modify id fun party => { party with heard := reply :: party.heard } }

/-- What a sequence of events makes of a lease system. -/
def run (c : LeaseSystem) (events : List Event) : LeaseSystem :=
  events.foldl step c

end LeaseSystem

/-! ## What a party has to tell -/

/-- How the task of a party stands to what the party has found and heard. -/
inductive Party.Tells : Party → Task → Prop where
  | acquiring (a : Acquire) (place : Acquire.Place) (l : Lease) (heard : List Reply)
      (idle : l.state = .idle) : Tells ⟨.acquirer a.lease, some l, heard⟩ (.acquiring a place)
  | acquired (lease : LeaseId) (l : Lease) (heard : List Reply) (result : Except Error Bool)
      (idle : l.state = .idle) :
    Tells ⟨.acquirer lease, some l, heard⟩ (.finished (.acquired result))
  | refused (lease : LeaseId) (l : Lease) (busy : l.state ≠ .idle) :
    Tells ⟨.acquirer lease, some l, []⟩ (.finished (.acquired (.error l.notIdle)))
  | releasing (lease : LeaseId) (strict : Bool) (l : Lease) (place : Surrender.Place)
      (heard : List Reply) (active : l.state = .active) (tried : place.Tried (deletions heard)) :
    Tells ⟨.releaser lease strict, some l, heard⟩ (.releasing lease l.marker strict place)
  | released (lease : LeaseId) (strict : Bool) (l : Lease) (heard : List Reply)
      (result : Result Bool) (active : l.state = .active)
      (concluded : Concluded result (deletions heard)) :
    Tells ⟨.releaser lease strict, some l, heard⟩
      (.finished (Task.releaseResult l.marker strict (Release.result l.marker result)))
  | spared (lease : LeaseId) (strict : Bool) (l : Lease) (inactive : l.state ≠ .active) :
    Tells ⟨.releaser lease strict, some l, []⟩
      (.finished (Task.releaseResult l.marker strict (.ok false)))
  | expiring (lease : LeaseId) (l : Lease) (place : Surrender.Place) (heard : List Reply)
      (active : l.state = .active) (tried : place.Tried (deletions heard)) :
    Tells ⟨.timer lease, some l, heard⟩ (.expiring lease place)
  | expired (lease : LeaseId) (l : Lease) (heard : List Reply) (result : Result Bool)
      (active : l.state = .active) (concluded : Concluded result (deletions heard)) :
    Tells ⟨.timer lease, some l, heard⟩ (.finished (.expired result))
  | stranger (role : Role) (result : TaskResult)
      (alien : ∀ r, result = .acquired r → r = .ok false) :
    Tells ⟨role, none, []⟩ (.finished result)

/-- Whether a task has acquired its lease. -/
def Task.hasLease : Task → Bool
  | acquiring _ .arming => true
  | finished (.acquired (.ok true)) => true
  | _ => false

/-- Whoever still has something to do about its lease has a lease operation. -/
theorem Party.Tells.lone {party : Party} {t : Task} {s : Shared}
    {p : Pending (Shared → Task × Shared)} (h : party.Tells t) (hp : t.next? s = some p) :
    ∃ d, t.lone? = some d := by
  cases h with
  | acquiring a place l heard idle => exact ⟨_, rfl⟩
  | releasing lease strict l place heard active tried => exact ⟨_, rfl⟩
  | expiring lease l place heard active tried => exact ⟨_, rfl⟩
  | _ => cases hp

theorem Party.Tells.lease_of_lone {party : Party} {t : Task} {d : LeaseOp} (h : party.Tells t)
    (hd : t.lone? = some d) : d.lease = party.role.lease := by
  cases h with
  | acquiring a place l heard idle =>
    cases hd
    rfl
  | releasing lease strict l place heard active tried =>
    cases hd
    rfl
  | expiring lease l place heard active tried =>
    cases hd
    rfl
  | _ => cases hd

/-- Acquirers acquire their leases, and nobody else does. -/
theorem Party.Tells.isAcquire_of_lone {party : Party} {t : Task} {d : LeaseOp} (h : party.Tells t)
    (hd : t.lone? = some d) : party.role.isAcquirer = d.isAcquire := by
  cases h with
  | acquiring a place l heard idle =>
    cases hd
    rfl
  | releasing lease strict l place heard active tried =>
    cases hd
    rfl
  | expiring lease l place heard active tried =>
    cases hd
    rfl
  | _ => cases hd

/-- A party that hears an answer has the right thing to tell afterwards. -/
theorem Party.Tells.hears {party : Party} {t t' : Task} {d : LeaseOp} {writer : Diagnostics}
    {s s' : Shared} {reply : Reply} {step : Step LeaseOp LeaseOp.Ending} (h : party.Tells t)
    (hd : t.lone? = some d) (hm : d.Moves writer s reply step s') (hf : t.Follows step t')
    (hheld : ∀ r, d = .surrender r .taking → (s.lease? r.lease).bind Lease.held ≠ none) :
    Party.Tells { party with heard := reply :: party.heard } t' := by
  cases h with
  -- an acquisition does not count what it hears
  | acquiring a place l heard idle =>
    cases hf with
    | acquiring a place place' => exact .acquiring a place' l _ idle
    | acquired a place result => exact .acquired a.lease l _ result idle
  | releasing lease strict l place heard active tried =>
    cases hd
    have hgoes := tried.moves hm fun hplace => hheld ⟨lease, false⟩ (by rw [hplace])
    rcases hgoes with ⟨place', rfl, htried⟩ | ⟨result, rfl, hconcluded⟩
    · cases hf
      exact .releasing lease strict l place' _ active htried
    · cases hf
      exact .released lease strict l _ result active hconcluded
  | expiring lease l place heard active tried =>
    cases hd
    have hgoes := tried.moves hm fun hplace => hheld ⟨lease, true⟩ (by rw [hplace])
    rcases hgoes with ⟨place', rfl, htried⟩ | ⟨result, rfl, hconcluded⟩
    · cases hf
      exact .expiring lease l place' _ active htried
    · cases hf
      exact .expired lease l _ result active hconcluded
  | _ => cases hd

/-- Whoever comes begins to give a lease up just if it finds the lease active. -/
theorem Party.Tells.gives_up {role : Role} {found : Option Lease} {t : Task} {id : LeaseId}
    (h : Party.Tells ⟨role, found, []⟩ t) :
    GivesUp t.leaseOp? id ↔
      role.lease = id ∧ role.isAcquirer = false ∧ ∃ l, found = some l ∧ l.state = .active := by
  constructor
  · rintro ⟨r, place, hd, rfl⟩
    cases h with
    | releasing lease strict l place heard active tried =>
      cases hd
      exact ⟨rfl, rfl, l, rfl, active⟩
    | expiring lease l place heard active tried =>
      cases hd
      exact ⟨rfl, rfl, l, rfl, active⟩
    | _ => cases hd
  · rintro ⟨rfl, hrole, l, hfound, hactive⟩
    cases h with
    | acquiring => cases hrole
    | acquired => cases hrole
    | refused => cases hrole
    | releasing lease strict l place heard active tried => exact ⟨_, _, rfl, rfl⟩
    | expiring lease l place heard active tried => exact ⟨_, _, rfl, rfl⟩
    -- nobody has concluded without having heard anything
    | released lease strict l heard result active concluded => cases concluded.last
    | expired lease l heard result active concluded => cases concluded.last
    | spared lease strict l' inactive =>
      cases hfound
      exact absurd hactive inactive
    | stranger role result alien => cases hfound

/-! ## Coming -/

namespace LeaseSystem

/-- A party comes with a task, or there is no task and nobody comes. -/
structure Joins (c : LeaseSystem) (role : Role) (g : Gateway) : Prop where
  starts : ∃ d, c.gateway.Starts c.gateway.tasks.length d g
  comes : g.tasks = c.gateway.tasks ∧ g.leaseOps c.gateway.tasks.length = none ∨
    ∃ t, g.tasks = c.gateway.tasks ++ [t] ∧ t.hasLease = false ∧
      Party.Tells ⟨role, c.gateway.shared.lease? role.lease, []⟩ t

theorem joins_acquire (c : LeaseSystem) (lease : LeaseId) (backend : Backend) (options : Options)
    (expiry : Duration) :
    c.Joins (.acquirer lease) (c.gateway.call (.acquire lease backend options expiry)) := by
  refine ⟨c.gateway.starts_call _, Or.inr ?_⟩
  simp only [Gateway.call, Gateway.acquire, Gateway.add, Acquire.start, Role.lease]
  cases hl : c.gateway.shared.lease? lease with
  | none => exact ⟨_, rfl, rfl, .stranger _ _ fun r hr => by cases hr; rfl⟩
  | some l =>
    -- what the party finds decides whether it acquires the lease or is refused
    simp only
    by_cases hidle : l.state = .idle
    · rw [if_pos hidle]
      exact ⟨_, rfl, rfl,
        .acquiring ⟨lease, l.marker, backend, options, expiry⟩ .resolving l [] hidle⟩
    · rw [if_neg hidle]
      exact ⟨_, rfl, rfl, .refused lease l hidle⟩

theorem joins_release (c : LeaseSystem) (lease : LeaseId) (strict : Bool) :
    c.Joins (.releaser lease strict) (c.gateway.call (.release lease strict)) := by
  refine ⟨c.gateway.starts_call _, Or.inr ?_⟩
  have hlone : ∀ marker result, (Task.finished (Task.releaseResult marker strict result)).hasLease =
      false := by
    intro marker result
    cases strict <;> rfl
  simp only [Gateway.call, Gateway.release, Gateway.add, Release.start, Role.lease]
  cases hl : c.gateway.shared.lease? lease with
  | none =>
    refine ⟨_, rfl, hlone _ _, .stranger _ _ fun r hr => ?_⟩
    cases strict <;> cases hr
  | some l =>
    simp only
    by_cases hactive : l.state = .active
    · rw [if_pos hactive]
      exact ⟨_, rfl, rfl, .releasing lease strict l .taking [] hactive rfl⟩
    · rw [if_neg hactive]
      exact ⟨_, rfl, hlone _ _, .spared lease strict l hactive⟩

theorem joins_fire (c : LeaseSystem) (lease : LeaseId) :
    c.Joins (.timer lease) (c.gateway.fire lease) := by
  refine ⟨c.gateway.starts_fire lease, ?_⟩
  simp only [Gateway.fire, Role.lease]
  cases hl : c.gateway.shared.lease? lease with
  | none => exact Or.inl ⟨rfl, c.gateway.leaseOps_length⟩
  | some l =>
    simp only [Expiry.start, hl]
    split
    · by_cases hactive : l.state = .active
      · rw [if_pos hactive]
        exact Or.inr ⟨_, rfl, rfl, .expiring lease l .taking [] hactive rfl⟩
      · rw [if_neg hactive]
        exact Or.inl ⟨rfl, c.gateway.leaseOps_length⟩
    · exact Or.inl ⟨rfl, c.gateway.leaseOps_length⟩

/-! ## The invariant -/

/-- A party has acquired its lease. -/
def Has (c : LeaseSystem) (i : TaskId) (id : LeaseId) : Prop :=
  ∃ party t, c.parties[i]? = some party ∧ c.gateway.task? i = some t ∧ party.role = .acquirer id ∧
    t.hasLease = true

/-- A party that came to give its lease up has found it active. -/
def Removes (c : LeaseSystem) (i : TaskId) (id : LeaseId) : Prop :=
  ∃ party l, c.parties[i]? = some party ∧ party.role.lease = id ∧ party.role.isAcquirer = false ∧
    party.found = some l ∧ l.state = .active

/-- The invariant of lease systems: every party can tell its story, a lease is acquired by one party
at most, which is before it is active, and it is given up by one party at most, from which moment on
it is released. -/
structure Sound (c : LeaseSystem) : Prop where
  orderly : Orderly c.gateway.shared c.gateway.leaseOps
  length : c.parties.length = c.gateway.tasks.length
  tells : ∀ i party t, c.parties[i]? = some party → c.gateway.task? i = some t → party.Tells t
  has : ∀ i id, c.Has i id → c.gateway.shared.stage? id = some .active ∨
    c.gateway.shared.stage? id = some .released
  hasOnce : ∀ i j id, c.Has i id → c.Has j id → i = j
  released : ∀ id, c.gateway.shared.stage? id = some .released ↔ ∃ i, c.Removes i id
  removesOnce : ∀ i j id, c.Removes i id → c.Removes j id → i = j

theorem sound_start (writer : Diagnostics) : (start writer).Sound := by
  have hleaseOps : (start writer).gateway.leaseOps = fun _ => none := rfl
  have hparty : ∀ (i : TaskId) party, (start writer).parties[i]? ≠ some party := by
    intro i party h
    simp [start] at h
  constructor
  · rw [hleaseOps]
    exact .start writer
  · rfl
  · intro i party t h
    exact absurd h (hparty i party)
  · rintro i id ⟨party, t, h, -⟩
    exact absurd h (hparty i party)
  · rintro i j id ⟨party, t, h, -⟩
    exact absurd h (hparty i party)
  · intro id
    constructor
    · intro h
      cases h
    · rintro ⟨i, party, l, h, -⟩
      exact absurd h (hparty i party)
  · rintro i j id ⟨party, l, h, -⟩
    exact absurd h (hparty i party)

variable {c c' : LeaseSystem} {g : Gateway}

/-! ## Coming to a sound lease system -/

theorem Sound.starts_nobody (h : c.Sound) {d : Option LeaseOp}
    (hs : c.gateway.Starts c.gateway.tasks.length d g) (ht : g.tasks = c.gateway.tasks)
    (hd : d = none) : Sound { c with gateway := g } := by
  subst hd
  have hnobody : ∀ id, ¬ GivesUp none id := by
    rintro id ⟨r, place, hr, -⟩
    cases hr
  have htask : ∀ i, g.task? i = c.gateway.task? i := by
    intro i
    rw [Gateway.task?, Gateway.task?, ht]
  have hhas : ∀ i id, Has { c with gateway := g } i id ↔ c.Has i id := by
    intro i id
    simp only [Has, htask]
  constructor
  · rw [hs.leaseOps]
    exact h.orderly.begins hs.idle hs.begins
  · rw [ht]
    exact h.length
  · intro i party t hp hi
    exact h.tells i party t hp (htask i ▸ hi)
  · intro i id hi
    rw [hs.begins.late_stage (hnobody id) (Or.inl rfl),
      hs.begins.late_stage (hnobody id) (Or.inr rfl)]
    exact h.has i id ((hhas i id).1 hi)
  · intro i j id hi hj
    exact h.hasOnce i j id ((hhas i id).1 hi) ((hhas j id).1 hj)
  · intro id
    rw [hs.begins.late_stage (hnobody id) (Or.inr rfl)]
    exact h.released id
  · exact h.removesOnce

theorem getElem?_concat {α : Type} {xs : List α} {x y : α} {i : Nat} :
    (xs ++ [x])[i]? = some y ↔ xs[i]? = some y ∨ i = xs.length ∧ y = x := by
  rw [List.getElem?_append]
  split
  · next hi =>
    have hne : i ≠ xs.length := Nat.ne_of_lt hi
    simp [hne]
  · next hi =>
    have hnone : xs[i]? = none := List.getElem?_eq_none (Nat.le_of_not_lt hi)
    rw [List.getElem?_singleton, hnone]
    constructor
    · intro h
      split at h
      · next hzero =>
        cases h
        exact Or.inr ⟨by omega, rfl⟩
      · cases h
    · rintro (h | ⟨rfl, rfl⟩)
      · cases h
      · simp

section Comes

variable {role : Role} {found : Option Lease} {t : Task} {i : TaskId} {id : LeaseId}

/-- Whoever was there before has not come last. -/
theorem Sound.ne_last (h : c.Sound) {party : Party} (hp : c.parties[i]? = some party) :
    i ≠ c.gateway.tasks.length := by
  rw [← h.length]
  exact Nat.ne_of_lt (List.getElem?_eq_some_iff.1 hp).1

/-- The parties and their tasks after somebody has come. -/
theorem Sound.comes (h : c.Sound) (ht : g.tasks = c.gateway.tasks ++ [t]) {q party : Party}
    {u : Task} (hq : (c.parties ++ [party])[i]? = some q) (hu : g.task? i = some u) :
    c.parties[i]? = some q ∧ c.gateway.task? i = some u ∨
      i = c.gateway.tasks.length ∧ q = party ∧ u = t := by
  rw [Gateway.task?, ht] at hu
  rcases getElem?_concat.1 hq with hq | ⟨hi, rfl⟩
  · rcases getElem?_concat.1 hu with hu | ⟨hi, -⟩
    · exact Or.inl ⟨hq, hu⟩
    · exact absurd hi (h.ne_last hq)
  · rw [h.length] at hi
    rcases getElem?_concat.1 hu with hu | ⟨-, rfl⟩
    · exact absurd hi (Nat.ne_of_lt (List.getElem?_eq_some_iff.1 hu).1)
    · exact Or.inr ⟨hi, rfl, rfl⟩

/-- Whoever comes has not acquired its lease yet. -/
theorem Sound.has_of_comes (h : c.Sound) {party : Party} (ht : g.tasks = c.gateway.tasks ++ [t])
    (hlease : t.hasLease = false) (hi : Has ⟨g, c.parties ++ [party]⟩ i id) : c.Has i id := by
  obtain ⟨q, u, hq, hu, hrole, hu'⟩ := hi
  rcases h.comes ht hq hu with ⟨hq, hu⟩ | ⟨-, -, rfl⟩
  · exact ⟨q, u, hq, hu, hrole, hu'⟩
  · rw [hlease] at hu'
    cases hu'

/-- Whoever comes removes a marker if it begins to give the lease up. -/
theorem Sound.removes_of_comes (h : c.Sound) (htells : Party.Tells ⟨role, found, []⟩ t) :
    Removes ⟨g, c.parties ++ [⟨role, found, []⟩]⟩ i id ↔
      c.Removes i id ∨ i = c.gateway.tasks.length ∧ GivesUp t.leaseOp? id := by
  rw [htells.gives_up, ← h.length]
  simp only [Removes, getElem?_concat]
  constructor
  · rintro ⟨q, l, hq | ⟨hi, rfl⟩, hid, hrole, hfound, hactive⟩
    · exact Or.inl ⟨q, l, hq, hid, hrole, hfound, hactive⟩
    · exact Or.inr ⟨hi, hid, hrole, l, hfound, hactive⟩
  · rintro (⟨q, l, hq, hid, hrole, hfound, hactive⟩ | ⟨hi, hid, hrole, l, hfound, hactive⟩)
    · exact ⟨q, l, Or.inl hq, hid, hrole, hfound, hactive⟩
    · exact ⟨⟨role, found, []⟩, l, Or.inr ⟨hi, rfl⟩, hid, hrole, hfound, hactive⟩

/-- Whoever begins to give a lease up finds it active, so nobody has given it up before. -/
theorem Sound.first (h : c.Sound) {d : Option LeaseOp} (hb : Begins c.gateway.shared d g.shared)
    (hd : GivesUp d id) : ¬ c.Removes i id := by
  intro hi
  have hreleased := (h.released id).2 ⟨i, hi⟩
  rw [(hb.gives_up hd).1] at hreleased
  cases hreleased

theorem Sound.starts_party (h : c.Sound) {d : Option LeaseOp}
    (hs : c.gateway.Starts c.gateway.tasks.length d g) (ht : g.tasks = c.gateway.tasks ++ [t])
    (hlease : t.hasLease = false) (htells : Party.Tells ⟨role, found, []⟩ t) :
    Sound ⟨g, c.parties ++ [⟨role, found, []⟩]⟩ := by
  have hleaseOp : t.leaseOp? = d := by
    have hlast := congrFun hs.leaseOps c.gateway.tasks.length
    rw [Function.update_self, Gateway.leaseOps, Gateway.task?_concat ht,
      Function.update_self] at hlast
    exact hlast
  subst hleaseOp
  constructor
  · rw [hs.leaseOps]
    exact h.orderly.begins hs.idle hs.begins
  · simp [ht, h.length]
  · intro i q u hq hu
    rcases h.comes ht hq hu with ⟨hq, hu⟩ | ⟨-, rfl, rfl⟩
    · exact h.tells i q u hq hu
    · exact htells
  · intro i id hi
    have hbefore := h.has i id (h.has_of_comes ht hlease hi)
    by_cases hd : GivesUp t.leaseOp? id
    · exact Or.inr (hs.begins.gives_up hd).2
    · rwa [hs.begins.late_stage hd (Or.inl rfl), hs.begins.late_stage hd (Or.inr rfl)]
  · intro i j id hi hj
    exact h.hasOnce i j id (h.has_of_comes ht hlease hi) (h.has_of_comes ht hlease hj)
  · intro id
    by_cases hd : GivesUp t.leaseOp? id
    · constructor
      · exact fun _ => ⟨_, (h.removes_of_comes htells).2 (Or.inr ⟨rfl, hd⟩)⟩
      · exact fun _ => (hs.begins.gives_up hd).2
    · rw [hs.begins.late_stage hd (Or.inr rfl), h.released id]
      refine exists_congr fun i => ?_
      rw [h.removes_of_comes htells]
      constructor
      · exact Or.inl
      · rintro (hi | ⟨-, hgives⟩)
        · exact hi
        · exact absurd hgives hd
  · intro i j id hi hj
    rcases (h.removes_of_comes htells).1 hi with hi | ⟨hi, hd⟩
    · rcases (h.removes_of_comes htells).1 hj with hj | ⟨-, hd⟩
      · exact h.removesOnce i j id hi hj
      · exact absurd hi (h.first hs.begins hd)
    · rcases (h.removes_of_comes htells).1 hj with hj | ⟨hj, -⟩
      · exact absurd hj (h.first hs.begins hd)
      · rw [hi, hj]

end Comes

/-! ## Hearing in a sound lease system -/

/-- A party has its lease after a move if it had it before, or if the move made the lease active. -/
theorem hasLease_of_follows {t t' : Task} {d : LeaseOp} {writer : Diagnostics} {s s' : Shared}
    {reply : Reply} {step : Step LeaseOp LeaseOp.Ending} (hd : t.lone? = some d)
    (hm : d.Moves writer s reply step s') (hf : t.Follows step t') (ht' : t'.hasLease = true) :
    t.hasLease = true ∨ ∃ a bid, d = .acquire a (.activating bid) := by
  cases hf with
  | acquiring a place place' =>
    cases hd
    cases hm with
    | activated a bid => exact Or.inr ⟨a, bid, rfl⟩
    | granted a bid =>
      split at ht' <;> cases ht'
    | _ => cases ht'
  | acquired a place result =>
    cases hd
    cases hm with
    | armed a => exact Or.inl rfl
    | retreated a error => cases error <;> cases ht'
  | releasing lease marker strict place place' => cases ht'
  | released lease marker strict place result => cases strict <;> cases ht'
  | expiring lease place place' => cases ht'
  | expired lease place result => cases ht'

section Hears

variable {i j : TaskId} {t t' : Task} {d : LeaseOp} {id : LeaseId} {reply : Reply} {s : Shared}

/-- A party is itself after an answer, which one party has heard. -/
theorem hears_iff {q : Party} :
    (c.parties.modify i fun party => { party with heard := reply :: party.heard })[j]? = some q ↔
      ∃ q', c.parties[j]? = some q' ∧
        q = if i = j then { q' with heard := reply :: q'.heard } else q' := by
  rw [List.getElem?_modify]
  constructor
  · intro hq
    obtain ⟨q', hq', rfl⟩ := Option.map_eq_some_iff.1 hq
    exact ⟨q', hq', rfl⟩
  · rintro ⟨q', hq', rfl⟩
    rw [hq']
    rfl

/-- What a party has found, and why it came, stays so. -/
theorem hears_same (i j : TaskId) (reply : Reply) (q : Party) :
    ((if i = j then { q with heard := reply :: q.heard } else q : Party).role = q.role) ∧
      (if i = j then { q with heard := reply :: q.heard } else q : Party).found = q.found := by
  split <;> exact ⟨rfl, rfl⟩

theorem removes_of_hears (i : TaskId) (reply : Reply) :
    Removes ⟨g, c.parties.modify i fun party => { party with heard := reply :: party.heard }⟩ j id ↔
      c.Removes j id := by
  constructor
  · rintro ⟨q, l, hq, hid, hrole, hfound, hactive⟩
    obtain ⟨q', hq', rfl⟩ := hears_iff.1 hq
    obtain ⟨hsame, hsame'⟩ := hears_same i j reply q'
    rw [hsame] at hid hrole
    rw [hsame'] at hfound
    exact ⟨q', l, hq', hid, hrole, hfound, hactive⟩
  · rintro ⟨q, l, hq, hid, hrole, hfound, hactive⟩
    obtain ⟨hsame, hsame'⟩ := hears_same i j reply q
    rw [← hsame] at hid hrole
    rw [← hsame'] at hfound
    exact ⟨_, l, hears_iff.2 ⟨q, hq, rfl⟩, hid, hrole, hfound, hactive⟩

/-- The task of whoever has heard the answer, and those of all others. -/
theorem task_of_hears (ht : c.gateway.task? i = some t) {u : Task}
    (hu : Gateway.task? ⟨s, c.gateway.tasks.set i t'⟩ j = some u) :
    j = i ∧ u = t' ∨ j ≠ i ∧ c.gateway.task? j = some u := by
  rw [Gateway.task?_set ht] at hu
  by_cases hj : j = i
  · rw [hj, Function.update_self] at hu
    exact Or.inl ⟨hj, (Option.some.inj hu).symm⟩
  · rw [Function.update_of_ne hj] at hu
    exact Or.inr ⟨hj, hu⟩

/-- Whoever has its lease now had it before, or has just made it active. -/
theorem Sound.has_of_hears (h : c.Sound) {step : Step LeaseOp LeaseOp.Ending}
    (ht : c.gateway.task? i = some t) (hd : t.lone? = some d)
    (hm : d.Moves c.gateway.shared.writer c.gateway.shared reply step s) (hf : t.Follows step t')
    (hj : Has ⟨⟨s, c.gateway.tasks.set i t'⟩,
      c.parties.modify i fun party => { party with heard := reply :: party.heard }⟩ j id) :
    c.Has j id ∨
      j = i ∧ c.gateway.shared.stage? id = some .acquiring ∧ s.stage? id = some .active := by
  obtain ⟨q, u, hq, hu, hrole, hu'⟩ := hj
  obtain ⟨q', hq', rfl⟩ := hears_iff.1 hq
  rw [(hears_same i j reply q').1] at hrole
  rcases task_of_hears ht hu with ⟨rfl, rfl⟩ | ⟨-, hu⟩
  · rcases hasLease_of_follows hd hm hf hu' with ht' | ⟨a, bid, rfl⟩
    · exact Or.inl ⟨q', t, hq', ht, hrole, ht'⟩
    · -- the lease that the lease operation is about is the one that the party came for
      have hid : a.lease = id := by
        have hlease := (h.tells j q' t hq' ht).lease_of_lone hd
        rw [hrole] at hlease
        exact hlease
      subst hid
      obtain ⟨l, hl, hfits⟩ := h.orderly.fits j _ (Gateway.leaseOps_of_lone ht hd)
      have hfound : c.gateway.shared.lease? a.lease = some l := hl
      refine Or.inr ⟨rfl, ?_, ?_⟩
      · rw [Shared.stage?, hfound, ← hfits.1]
        rfl
      · cases hm
        rw [Shared.stage?_modifyLease hfound, if_pos rfl]
  · exact Or.inl ⟨q', u, hq', hu, hrole, hu'⟩

/-- One party hears an answer and goes on. -/
theorem Sound.hears (h : c.Sound) {step : Step LeaseOp LeaseOp.Ending}
    (ht : c.gateway.task? i = some t) (hd : t.lone? = some d)
    (hm : d.Moves c.gateway.shared.writer c.gateway.shared reply step s) (hf : t.Follows step t')
    (horderly : Orderly s (Gateway.leaseOps ⟨s, c.gateway.tasks.set i t'⟩)) :
    Sound ⟨⟨s, c.gateway.tasks.set i t'⟩,
      c.parties.modify i fun party => { party with heard := reply :: party.heard }⟩ := by
  obtain ⟨l, hl, hfits⟩ := h.orderly.fits i d (Gateway.leaseOps_of_lone ht hd)
  have hstage := hm.stage hl hfits
  constructor
  · exact horderly
  · simp [h.length]
  · intro j q u hq hu
    obtain ⟨q', hq', rfl⟩ := hears_iff.1 hq
    rcases task_of_hears ht hu with ⟨rfl, rfl⟩ | ⟨hj, hu⟩
    · rw [if_pos rfl]
      refine (h.tells j q' t hq' ht).hears hd hm hf fun r hr => ?_
      subst hr
      rw [show c.gateway.shared.lease? r.lease = some l from hl]
      exact hfits.2
    · rw [if_neg fun hij => hj hij.symm]
      exact h.tells j q' u hq' hu
  · intro j id hj
    rcases h.has_of_hears ht hd hm hf hj with hj | ⟨-, -, hactive⟩
    · have hbefore := h.has j id hj
      rw [← (hstage id).late hbefore] at hbefore
      exact hbefore
    · exact Or.inl hactive
  · intro j k id hj hk
    -- a lease that somebody has is not being acquired
    have hnot : ∀ {n}, c.Has n id → c.gateway.shared.stage? id ≠ some .acquiring := by
      intro n hn hacquiring
      have hbefore := h.has n id hn
      simp [hacquiring] at hbefore
    rcases h.has_of_hears ht hd hm hf hj with hj | ⟨hj, hacquiring, -⟩
    · rcases h.has_of_hears ht hd hm hf hk with hk | ⟨-, hacquiring, -⟩
      · exact h.hasOnce j k id hj hk
      · exact absurd hacquiring (hnot hj)
    · rcases h.has_of_hears ht hd hm hf hk with hk | ⟨hk, -, -⟩
      · exact absurd hacquiring (hnot hk)
      · rw [hj, hk]
  · intro id
    have hremoves : (∃ j, c.Removes j id) ↔ ∃ j, Removes ⟨⟨s, c.gateway.tasks.set i t'⟩, _⟩ j id :=
      exists_congr fun j => (removes_of_hears i reply).symm
    exact (hstage id).released.trans ((h.released id).trans hremoves)
  · intro j k id hj hk
    exact h.removesOnce j k id ((removes_of_hears i reply).1 hj) ((removes_of_hears i reply).1 hk)

end Hears

/-! ## Every lease system is sound -/

theorem Sound.joins (h : c.Sound) {role : Role} {g : Gateway} (hj : c.Joins role g) :
    (c.join role g).Sound := by
  obtain ⟨d, hs⟩ := hj.starts
  rcases hj.comes with ⟨ht, hd⟩ | ⟨t, ht, hlease, htells⟩
  · have hnone : d = none := by
      have hlast := congrFun hs.leaseOps c.gateway.tasks.length
      rw [Function.update_self, hd] at hlast
      exact hlast.symm
    have hjoin : c.join role g = { c with gateway := g } := by simp [join, ht]
    rw [hjoin]
    exact h.starts_nobody hs ht hnone
  · have hjoin : c.join role g =
        ⟨g, c.parties ++ [⟨role, c.gateway.shared.lease? role.lease, []⟩]⟩ := by simp [join, ht]
    rw [hjoin]
    exact h.starts_party hs ht hlease htells

/-- Whoever waits for an answer has a lease operation, and nothing else to do. -/
theorem Sound.lone_of_pending (h : c.Sound) {i : TaskId} {t : Task}
    {q : Pending (Shared → Task × Shared)} (ht : c.gateway.task? i = some t)
    (hq : t.next? c.gateway.shared = some q) :
    ∃ d, t.lone? = some d ∧ c.gateway.leaseOps i = some d := by
  have hi : i < c.parties.length := by
    rw [h.length]
    exact (List.getElem?_eq_some_iff.1 ht).1
  obtain ⟨d, hd⟩ := (h.tells i _ t (List.getElem?_eq_getElem hi) ht).lone hq
  exact ⟨d, hd, Gateway.leaseOps_of_lone ht hd⟩

theorem Sound.answers (h : c.Sound) (i : TaskId) (answers : (request : Request) → request.Answer) :
    (c.step (.answer i answers)).Sound := by
  simp only [LeaseSystem.step]
  cases hp : c.gateway.pending? i with
  | none => exact h
  | some p =>
    -- the lease operation of the party makes a move, which keeps the leases in order
    obtain ⟨t, q, ht, hq, -, rfl⟩ := Gateway.pending?_eq hp
    obtain ⟨d, hd, hleaseOp⟩ := h.lone_of_pending ht hq
    have hgoes := Gateway.goes_resume hleaseOp hp (answers q.request)
    obtain ⟨step, s, hm, ha, hleaseOps⟩ := hgoes.moves
    have horderly := h.orderly.moves hleaseOp hm ha
    rw [← hleaseOps] at horderly
    obtain ⟨step', hm', hf⟩ := Task.follows_next? hd hq (answers q.request)
    exact h.hears ht hd hm' hf horderly

/-- Every event keeps the lease system sound. -/
theorem Sound.step (h : c.Sound) (e : Event) : (c.step e).Sound := by
  cases e with
  | addLease target =>
    have hs := c.gateway.starts_addLease target
    exact h.starts_nobody hs (c.gateway.tasks_addLease target) rfl
  | acquire lease backend options expiry =>
    exact h.joins (c.joins_acquire lease backend options expiry)
  | release lease strict => exact h.joins (c.joins_release lease strict)
  | fire lease => exact h.joins (c.joins_fire lease)
  | advance now =>
    exact h.starts_nobody (Gateway.starts_shared (.nothing ⟨rfl, rfl⟩)) rfl rfl
  | answer id answers => exact h.answers id answers

theorem sound_run (writer : Diagnostics) (events : List Event) :
    ((start writer).run events).Sound := by
  -- on the events to come, from any lease system that is sound
  have hrun : ∀ (events : List Event) (c : LeaseSystem), c.Sound → (c.run events).Sound := by
    intro events
    induction events with
    | nil => exact fun c h => h
    | cons e events ih => exact fun c h => ih (c.step e) (h.step e)
  exact hrun events _ (sound_start writer)

end LeaseSystem

end FileGateway

import FileGateway.Proofs.Gateway.Realm
import FileGateway.Proofs.Lease.Guards

/-!
# Whoever holds a path guard or waits for one

The table of the path guards keeps none of them alive: it forgets a guard that nobody holds or waits
for, and makes a new one when the key is looked up again. What is relied on all the same is that
there are never two guards of one key in use, and that the table does not grow with the keys that
were ever locked.

Both follow from one invariant, `Visited`. It ties the guards to the visits that are going on:

* different keys lead to different guards;
* each visit waits in the queue that its key leads to, or holds that guard, with a ticket of its
  own;
* there is nobody else in the queues.

Arriving, being admitted and leaving preserve it, as they preserve `Guards.Hosts`. `PathLocks` is
the system of all calls that lock a site, and `PathLocks.table_run` says what holds after every
sequence of its events.
-/

namespace FileGateway

/-! ## The table -/

namespace Guards

/-- The keys in the table. -/
def keys (g : Guards) : List String :=
  g.table.map Prod.fst

/-- The table has one entry for each key, and different keys lead to different guards. -/
structure Indexed (g : Guards) : Prop where
  keys : g.keys.Nodup
  guards : (g.table.map Prod.snd).Nodup
  made : ∀ n ∈ g.table.map Prod.snd, n < g.queues.length

theorem mem_keys {g : Guards} {key : String} : key ∈ g.keys ↔ ∃ n, (key, n) ∈ g.table := by
  simp [keys]

theorem Indexed.empty : Guards.empty.Indexed :=
  ⟨List.nodup_nil, List.nodup_nil, fun _ h => by cases h⟩

theorem Indexed.prune {g : Guards} (h : g.Indexed) : g.prune.Indexed := by
  have hkept : g.prune.table.Sublist g.table := List.filter_sublist
  constructor
  · exact h.keys.sublist (hkept.map Prod.fst)
  · exact h.guards.sublist (hkept.map Prod.snd)
  · intro n hn
    exact h.made n ((hkept.map Prod.snd).subset hn)

theorem Indexed.lookup {g : Guards} (h : g.Indexed) (key : String) :
    (g.lookup key).2.Indexed := by
  have hpruned := h.prune
  cases hl : g.prune.table.lookup key with
  | some guard =>
    have hlookup : g.lookup key = (guard, g.prune) := by simp only [Guards.lookup, hl]
    rw [hlookup]
    exact hpruned
  | none =>
    have hlookup : g.lookup key = (g.queues.length,
        ⟨g.queues ++ [[]], g.prune.table ++ [(key, g.queues.length)], g.issued⟩) := by
      simp only [Guards.lookup, hl]
      rfl
    rw [hlookup]
    constructor
    · -- the key was not found, so it had no entry
      simp only [Guards.keys, List.map_append, List.map_cons, List.map_nil]
      refine List.Nodup.append hpruned.keys (List.nodup_singleton _) fun k hk hnew => ?_
      rw [List.mem_singleton.1 hnew] at hk
      obtain ⟨n, hn⟩ := mem_keys.1 hk
      have hne := List.lookup_eq_none_iff.1 hl (key, n) hn
      simp at hne
    · -- the guard is a new one
      simp only [List.map_append, List.map_cons, List.map_nil]
      refine List.Nodup.append hpruned.guards (List.nodup_singleton _) fun n hn hnew => ?_
      rw [List.mem_singleton.1 hnew] at hn
      exact Nat.lt_irrefl _ (hpruned.made _ hn)
    · intro n hn
      simp only [List.map_append, List.map_cons, List.map_nil, List.mem_append,
        List.mem_singleton] at hn
      simp only [List.length_append, List.length_singleton]
      rcases hn with hn | rfl
      · exact Nat.lt_succ_of_lt (hpruned.made n hn)
      · exact Nat.lt_succ_self _

theorem Indexed.arrive {g : Guards} (h : g.Indexed) (key : String) : (g.arrive key).2.Indexed := by
  have hl := h.lookup key
  refine ⟨hl.keys, hl.guards, fun n hn => ?_⟩
  have hlength : (g.arrive key).2.queues.length = (g.lookup key).2.queues.length :=
    List.length_modify ..
  rw [hlength]
  exact hl.made n hn

theorem Indexed.leave {g : Guards} (h : g.Indexed) (t : Ticket) : (g.leave t).Indexed := by
  refine ⟨h.keys, h.guards, fun n hn => ?_⟩
  have hlength : (g.leave t).queues.length = g.queues.length := List.length_modify ..
  rw [hlength]
  exact h.made n hn

/-- No two keys lead to one guard. -/
theorem Indexed.key_unique {g : Guards} (h : g.Indexed) {k k' : String} {n : Nat}
    (hk : (k, n) ∈ g.table) (hk' : (k', n) ∈ g.table) : k = k' :=
  congrArg Prod.fst (List.inj_on_of_nodup_map h.guards hk hk' rfl)

/-- After a lookup the table has the key that was looked up and those whose guard is in use. -/
theorem mem_keys_lookup {g : Guards} {key k : String} :
    k ∈ (g.lookup key).2.keys ↔ k = key ∨ ∃ n, (k, n) ∈ g.table ∧ g.inUse n = true := by
  have hpruned : k ∈ g.prune.keys ↔ ∃ n, (k, n) ∈ g.table ∧ g.inUse n = true := by
    simp [mem_keys, prune]
  rw [← hpruned]
  cases hl : g.prune.table.lookup key with
  | some guard =>
    have hlookup : (g.lookup key).2 = g.prune := by simp only [lookup, hl]
    rw [hlookup]
    refine ⟨Or.inr, fun h => h.elim (fun heq => ?_) id⟩
    rw [heq]
    exact mem_keys.2 ⟨guard, mem_of_lookup hl⟩
  | none =>
    have hlookup : (g.lookup key).2.keys = g.prune.keys ++ [key] := by
      simp only [lookup, hl, keys, List.map_append, List.map_cons, List.map_nil]
    rw [hlookup, List.mem_append, List.mem_singleton]
    exact Or.comm

/-- Whoever waits at a guard finds it when it looks its key up again. -/
theorem Serves.lookup {g : Guards} {t : Ticket} {key : String} (h : g.Serves t key) :
    (g.lookup key).1 = t.guard := by
  have hl := g.looksUp key
  have hkept := hl.kept key t.guard h.found (inUse_of_mem h.queued)
  exact Option.some.inj (hl.found.symm.trans hkept)

/-- Two tickets are for one guard if and only if they are for one key. -/
theorem Serves.guard_eq_iff {g : Guards} (hg : g.Indexed) {t u : Ticket} {k k' : String}
    (ht : g.Serves t k) (hu : g.Serves u k') : t.guard = u.guard ↔ k = k' := by
  constructor
  · intro h
    have hu' := mem_of_lookup hu.found
    rw [← h] at hu'
    exact hg.key_unique (mem_of_lookup ht.found) hu'
  · intro h
    subst h
    exact Option.some.inj (ht.found.symm.trans hu.found)

end Guards

/-! ## Visits -/

/-- The guards and the visits that are going on fit together. Nobody is in a queue whose visit is
over. -/
structure Visited (g : Guards) (visits : Nat → Option Visit) : Prop where
  wellFormed : g.WellFormed
  indexed : g.Indexed
  serves : ∀ i v, visits i = some v → g.Serves v.ticket v.key
  holds : ∀ i v, visits i = some v → v.admitted = true → g.holds v.ticket = true
  distinct : ∀ i j v w, visits i = some v → visits j = some w → v.ticket = w.ticket → i = j
  manned : ∀ n t, t ∈ g.queue n → ∃ i v, visits i = some v ∧ v.ticket = t

namespace Visited

variable {g : Guards} {visits : Nat → Option Visit} {i j : Nat} {v w : Visit}

theorem hosts (h : Visited g visits) : g.Hosts visits :=
  ⟨h.wellFormed, h.serves, h.holds, h.distinct⟩

theorem of_hosts (h : g.Hosts visits) (hindexed : g.Indexed)
    (hmanned : ∀ n t, t ∈ g.queue n → ∃ i v, visits i = some v ∧ v.ticket = t) :
    Visited g visits :=
  ⟨h.wellFormed, hindexed, h.serves, h.holds, h.distinct, hmanned⟩

theorem start : Visited .empty fun _ => none :=
  of_hosts .start .empty fun n t h => by simp [Guards.empty, Guards.queue] at h

/-! ### What visitors do -/

/-- Somebody comes, and gets a ticket that nobody has. -/
theorem arrive (h : Visited g visits) (hi : visits i = none) (key : String) :
    Visited (g.arrive key).2
      (Function.update visits i (some ⟨key, (g.arrive key).1, false⟩)) := by
  refine of_hosts (h.hosts.arrive key) (h.indexed.arrive key) fun n t ht => ?_
  rw [Guards.queue_arrive] at ht
  -- in a queue are those of before, and the one that has just come
  have hcases : t ∈ g.queue n ∨ t = (g.arrive key).1 := by
    split at ht
    · rcases List.mem_append.1 ht with ht | ht
      · exact .inl ht
      · exact .inr (List.mem_singleton.1 ht)
    · exact .inl ht
  rcases hcases with ht | rfl
  · obtain ⟨j, v, hv, hvt⟩ := h.manned n t ht
    have hj : j ≠ i := by
      intro hj
      rw [hj, hi] at hv
      cases hv
    exact ⟨j, v, (Function.update_of_ne hj _ _).trans hv, hvt⟩
  · exact ⟨i, _, Function.update_self .., rfl⟩

/-- Whoever holds a guard is let in. -/
theorem enter (h : Visited g visits) (hi : visits i = some v) (hv : g.holds v.ticket = true) :
    Visited g (Function.update visits i (some { v with admitted := true })) := by
  refine of_hosts (h.hosts.goOn fun w hw => ?_) h.indexed fun n t ht => ?_
  · cases hw
    exact ⟨v, hi, rfl, rfl, fun _ => hv⟩
  · obtain ⟨j, w, hw, hwt⟩ := h.manned n t ht
    by_cases hj : j = i
    · subst hj
      rw [hi] at hw
      cases hw
      exact ⟨j, _, Function.update_self .., hwt⟩
    · exact ⟨j, w, (Function.update_of_ne hj _ _).trans hw, hwt⟩

/-- Somebody goes, whether it was let in or not. All others keep their places. -/
theorem leave (h : Visited g visits) (hi : visits i = some v) :
    Visited (g.leave v.ticket) (Function.update visits i none) := by
  refine of_hosts (h.hosts.leave hi) (h.indexed.leave v.ticket) fun n t ht => ?_
  -- the ticket of the visit that is over was in one queue, once
  have hstays : t ∈ g.queue n ∧ t ≠ v.ticket := by
    rw [Guards.queue_leave] at ht
    split at ht
    · next hn => exact ⟨List.mem_of_mem_erase ht, ((h.wellFormed.nodup n).mem_erase_iff.1 ht).1⟩
    · next hn =>
      refine ⟨ht, fun heq => hn ?_⟩
      rw [← h.wellFormed.own n t ht, heq]
  obtain ⟨j, w, hw, hwt⟩ := h.manned n t hstays.1
  have hj : j ≠ i := by
    intro hj
    rw [hj, hi] at hw
    cases hw
    exact hstays.2 hwt.symm
  exact ⟨j, w, (Function.update_of_ne hj _ _).trans hw, hwt⟩

/-! ### What visitors can rely on -/

/-- The guard of a key is in use if and only if somebody visits it. -/
theorem inUse_iff (h : Visited g visits) {key : String} :
    (∃ n, (key, n) ∈ g.table ∧ g.inUse n = true) ↔ ∃ i v, visits i = some v ∧ v.key = key := by
  constructor
  · rintro ⟨n, hn, huse⟩
    cases hq : g.queue n with
    | nil => simp [Guards.inUse, hq] at huse
    | cons t rest =>
      have ht : t ∈ g.queue n := by simp [hq]
      obtain ⟨i, v, hv, rfl⟩ := h.manned n t ht
      refine ⟨i, v, hv, ?_⟩
      -- its own key leads to this guard too
      have hfound := Guards.mem_of_lookup (h.serves i v hv).found
      rw [h.wellFormed.own n _ ht] at hfound
      exact h.indexed.key_unique hfound hn
  · rintro ⟨i, v, hv, rfl⟩
    have hserves := h.serves i v hv
    exact ⟨v.ticket.guard, Guards.mem_of_lookup hserves.found,
      Guards.inUse_of_mem hserves.queued⟩

/-- Whoever does not hold the guard of its key waits for another visitor that does. -/
theorem waits_iff (h : Visited g visits) (hv : visits i = some v) :
    g.holds v.ticket = false ↔
      ∃ j w, j ≠ i ∧ visits j = some w ∧ g.holds w.ticket = true ∧ w.key = v.key := by
  have hserves := h.serves i v hv
  constructor
  · intro hwaits
    cases hq : g.queue v.ticket.guard with
    | nil =>
      have hqueued := hserves.queued
      simp [hq] at hqueued
    | cons t rest =>
      -- the head of the queue is another ticket, and its visitor is there
      have ht : t ∈ g.queue v.ticket.guard := by simp [hq]
      obtain ⟨j, w, hw, rfl⟩ := h.manned _ t ht
      have hguard : w.ticket.guard = v.ticket.guard := h.wellFormed.own _ _ ht
      have hholds : g.holds w.ticket = true := by
        rw [Guards.holds_iff, hguard, hq]
        rfl
      refine ⟨j, w, fun hj => ?_, hw, hholds,
        (Guards.Serves.guard_eq_iff h.indexed (h.serves j w hw) hserves).1 hguard⟩
      rw [hj, hv] at hw
      cases hw
      rw [hholds] at hwaits
      cases hwaits
  · rintro ⟨j, w, hj, hw, hholds, hkey⟩
    by_contra hwaits
    simp only [Bool.not_eq_false] at hwaits
    have hw' : g.Serves w.ticket v.key := hkey ▸ h.serves j w hw
    exact hj (h.distinct j i w v hw hv (Guards.holds_unique hw' hserves hholds hwaits))

end Visited

/-! ## Locking -/

/-- The key of the guard of a site. -/
def Site.key (σ : Site) : String := σ.identity ++ σ.file.path.text

/-- A call that locks a site, from the lookup until the guard is dropped or the call is given up,
and whether the guard was granted to it. -/
structure LockCall where
  site : Site
  ticket : Ticket
  granted : Bool
deriving DecidableEq

/-- The visit that a call is. -/
def LockCall.visit (x : LockCall) : Visit := ⟨x.site.key, x.ticket, x.granted⟩

/-- The path guards, and the calls that hold them or wait for them. -/
structure PathLocks where
  guards : Guards
  calls : Nat → Option LockCall

namespace PathLocks

/-- What can happen at the path guards: a call asks for the guard of a site, a call that waits is
given its guard, and a call drops its guard or is given up while it waits. -/
inductive Event where
  | lock (id : Nat) (site : Site)
  | grant (id : Nat)
  | drop (id : Nat)

/-- No guards and no calls. -/
def empty : PathLocks := ⟨.empty, fun _ => none⟩

/-- What an event makes of the path locks. An event that cannot happen changes nothing. -/
def step (l : PathLocks) : Event → PathLocks
  | .lock id site =>
    match l.calls id with
    | some _ => l
    | none =>
      let (ticket, guards) := l.guards.arrive site.key
      ⟨guards, Function.update l.calls id (some ⟨site, ticket, false⟩)⟩
  | .grant id =>
    match l.calls id with
    | some x =>
      if l.guards.holds x.ticket then
        { l with calls := Function.update l.calls id (some { x with granted := true }) }
      else l
    | none => l
  | .drop id =>
    match l.calls id with
    | some x => ⟨l.guards.leave x.ticket, Function.update l.calls id none⟩
    | none => l

/-- What a sequence of events makes of the path locks. -/
def run (l : PathLocks) (events : List Event) : PathLocks :=
  events.foldl step l

/-- The visits that the calls are. -/
def visits (l : PathLocks) (id : Nat) : Option Visit :=
  (l.calls id).map LockCall.visit

variable {l : PathLocks}

theorem visits_update (l : PathLocks) (guards : Guards) (id : Nat) (x : Option LockCall) :
    visits ⟨guards, Function.update l.calls id x⟩ =
      Function.update l.visits id (x.map LockCall.visit) :=
  Function.comp_update (Option.map LockCall.visit) l.calls id x

theorem visits_eq {id : Nat} {x : LockCall} (h : l.calls id = some x) :
    l.visits id = some x.visit :=
  congrArg (Option.map LockCall.visit) h

/-- Every event keeps the guards and the calls together. -/
theorem visited_step (h : Visited l.guards l.visits) (e : Event) :
    Visited (l.step e).guards (l.step e).visits := by
  cases e with
  | lock id site =>
    simp only [step]
    split
    · exact h
    · next hid =>
      rw [visits_update]
      exact h.arrive (congrArg (Option.map LockCall.visit) hid) site.key
  | grant id =>
    simp only [step]
    split
    · next x hx =>
      split
      · next hholds =>
        rw [visits_update]
        exact h.enter (visits_eq hx) hholds
      · exact h
    · exact h
  | drop id =>
    simp only [step]
    split
    · next x hx =>
      rw [visits_update]
      exact h.leave (visits_eq hx)
    · exact h

theorem visited_run (events : List Event) :
    Visited (empty.run events).guards (empty.run events).visits := by
  suffices h : ∀ l : PathLocks, Visited l.guards l.visits →
      Visited (l.run events).guards (l.run events).visits from h empty .start
  induction events with
  | nil => exact fun l h => h
  | cons e events ih => exact fun l h => ih (l.step e) (visited_step h e)

/-- The table of the guards does its work: it excludes, and it does not grow.

* `exclusive`: of all calls that lock one site, only one has the guard, and the same holds for two
  sites that one key stands for;
* `found`: as long as a call holds a guard or waits for it, every lookup leads to that guard;
* `swept`, `single`: after a lookup the table has the key that was looked up, the keys of the calls
  that hold a guard or wait for one, and no others, each of them once. -/
structure Sound (l : PathLocks) : Prop where
  exclusive : ∀ i j x y, l.calls i = some x → l.calls j = some y → x.granted = true →
    y.granted = true → x.site.key = y.site.key → i = j
  found : ∀ i x, l.calls i = some x → (l.guards.lookup x.site.key).1 = x.ticket.guard
  swept : ∀ key k, k ∈ (l.guards.lookup key).2.keys ↔
    k = key ∨ ∃ i x, l.calls i = some x ∧ x.site.key = k
  single : ∀ key, (l.guards.lookup key).2.keys.Nodup

/-- The table does its work, whatever is locked, granted and dropped in whatever order. -/
theorem table_run (events : List Event) : (empty.run events).Sound := by
  have h := visited_run events
  generalize empty.run events = l at h
  constructor
  · intro i j x y hx hy hxg hyg hkey
    exact h.hosts.exclusive (visits_eq hx) (visits_eq hy) hxg hyg hkey
  · intro i x hx
    exact (h.serves i x.visit (visits_eq hx)).lookup
  · intro key k
    rw [Guards.mem_keys_lookup, h.inUse_iff]
    refine or_congr_right ⟨?_, ?_⟩
    · rintro ⟨i, v, hv, rfl⟩
      obtain ⟨x, hx, rfl⟩ := Option.map_eq_some_iff.1 hv
      exact ⟨i, x, hx, rfl⟩
    · rintro ⟨i, x, hx, rfl⟩
      exact ⟨i, x.visit, visits_eq hx, rfl⟩
  · intro key
    exact (h.indexed.lookup key).keys

-- the key of a call that is over is dropped by the next lookup
example : (empty.run [.lock 0 ⟨"file://", ⟨⟨"/a.lock"⟩⟩⟩, .grant 0, .drop 0,
    .lock 1 ⟨"file://", ⟨⟨"/b.lock"⟩⟩⟩]).guards.keys = ["file:///b.lock"] := by
  decide +kernel

end PathLocks

end FileGateway

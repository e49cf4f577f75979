import Mathlib.Data.List.Nodup
import FileGateway.Lease.Guards

/-!
# What path guards guarantee

A ticket that was given out for a key stays in the queue of one guard until it leaves, and the table
leads from the key to that guard all the time. So all tickets for one key wait in one queue, and at
most one of them holds the guard.

* `Guards.WellFormed` is the invariant of the queues, and `Guards.Serves` ties a ticket to its key;
* `arrive` and `leave` preserve both, and leave the holder of a guard alone;
* `Guards.holds_unique`: of the tickets for one key at most one holds the guard.

Whoever has a ticket and has not left yet is on a visit. `Guards.Hosts` is the invariant that ties a
set of visits to the guards; it is preserved when somebody comes, is let in, or goes.
-/

namespace FileGateway.Guards

/-- The invariant of the queues: a ticket waits in the queue of its own guard, once, and the numbers
of all tickets were given out. -/
structure WellFormed (g : Guards) : Prop where
  own : ∀ n t, t ∈ g.queue n → t.guard = n
  issued : ∀ n t, t ∈ g.queue n → t.number < g.issued
  nodup : ∀ n, (g.queue n).Nodup

/-- The ticket is in the queue of its guard, and this is the guard of the key. -/
structure Serves (g : Guards) (t : Ticket) (key : String) : Prop where
  queued : t ∈ g.queue t.guard
  found : g.table.lookup key = some t.guard

/-! ## Queues -/

theorem queue_length_le {g : Guards} {n : Nat} {t : Ticket} (h : t ∈ g.queue n) :
    n < g.queues.length := by
  by_contra hn
  rw [queue, List.getElem?_eq_none (Nat.le_of_not_lt hn)] at h
  simp at h

theorem queue_modify {qs : List (List Ticket)} {table : List (String × Nat)} {k n : Nat}
    (guard : Nat) (change : List Ticket → List Ticket) (hg : guard < qs.length) :
    queue ⟨qs.modify guard change, table, k⟩ n =
      if n = guard then change (queue ⟨qs, table, k⟩ n) else queue ⟨qs, table, k⟩ n := by
  simp only [queue, List.getElem?_modify]
  by_cases hn : n = guard
  · subst hn
    simp [hg]
  · have hn' : guard ≠ n := fun h => hn h.symm
    simp [hn, hn']

theorem holds_iff {g : Guards} {t : Ticket} :
    g.holds t = true ↔ (g.queue t.guard).head? = some t := by
  simp [holds]

theorem inUse_of_mem {g : Guards} {n : Nat} {t : Ticket} (h : t ∈ g.queue n) :
    g.inUse n = true := by
  cases hq : g.queue n with
  | nil => simp [hq] at h
  | cons head rest => simp [inUse, hq]

/-! ## The table -/

theorem lookup_filter {key : String} {guard : Nat} {p : Nat → Bool} {table : List (String × Nat)}
    (h : table.lookup key = some guard) (hp : p guard = true) :
    (table.filter fun entry => p entry.2).lookup key = some guard := by
  -- on the table, as the lookup goes through it: a dropped entry never hides a later one
  induction table with
  | nil => simp at h
  | cons entry rest ih =>
    obtain ⟨k, n⟩ := entry
    rw [List.lookup_cons] at h
    by_cases hk : (key == k) = true
    · rw [hk] at h
      have hn : n = guard := by simpa using h
      subst hn
      simp [hp, List.lookup_cons, hk]
    · simp only [Bool.not_eq_true] at hk
      rw [hk] at h
      have hrest := ih h
      by_cases hn : p n = true
      · simp [hn, List.lookup_cons, hk, hrest]
      · simp [hn, hrest]

theorem mem_of_lookup {key : String} {guard : Nat} {table : List (String × Nat)}
    (h : table.lookup key = some guard) : (key, guard) ∈ table := by
  obtain ⟨before, after, rfl, -⟩ := List.lookup_eq_some_iff.1 h
  simp

/-- What a lookup does: the guard it finds is there, entries of guards in use stay, and every queue
keeps its tickets. -/
structure LooksUp (g : Guards) (key : String) (guard : Nat) (g' : Guards) : Prop where
  queue : ∀ n, g'.queue n = g.queue n
  length : guard < g'.queues.length
  issued : g'.issued = g.issued
  found : g'.table.lookup key = some guard
  kept : ∀ k n, g.table.lookup k = some n → g.inUse n = true → g'.table.lookup k = some n

theorem looksUp (g : Guards) (key : String) : g.LooksUp key (g.lookup key).1 (g.lookup key).2 := by
  have hkept : ∀ k n, g.table.lookup k = some n → g.inUse n = true →
      g.prune.table.lookup k = some n := fun k n hk hn => lookup_filter hk hn
  cases hl : g.prune.table.lookup key with
  | some guard =>
    have hlookup : g.lookup key = (guard, g.prune) := by simp only [lookup, hl]
    rw [hlookup]
    -- the entry was not pruned, so its guard is in use and has a queue
    have hmem : (key, guard) ∈ g.prune.table := mem_of_lookup hl
    have huse : g.inUse guard = true := (List.mem_filter.1 hmem).2
    have hlength : guard < g.queues.length := by
      cases hq : g.queue guard with
      | nil => simp [inUse, hq] at huse
      | cons t rest => exact queue_length_le (t := t) (by simp [hq])
    constructor
    · intro n
      rfl
    · exact hlength
    · rfl
    · exact hl
    · exact hkept
  | none =>
    -- a guard is made, past all that there are
    have hlookup : g.lookup key = (g.queues.length,
        ⟨g.queues ++ [[]], g.prune.table ++ [(key, g.queues.length)], g.issued⟩) := by
      simp only [lookup, hl]
      rfl
    rw [hlookup]
    constructor
    · intro n
      rcases Nat.lt_trichotomy n g.queues.length with hn | hn | hn
      · simp [queue, List.getElem?_append_left hn]
      · simp [queue, hn]
      · have hnew : (g.queues ++ [[]])[n]? = none := List.getElem?_eq_none <| by
          rw [List.length_append]
          exact hn
        simp only [queue, hnew, List.getElem?_eq_none (Nat.le_of_lt hn)]
    · simp
    · rfl
    · simp [List.lookup_append, hl]
    · intro k n hk hn
      have hk' := hkept k n hk hn
      simp [List.lookup_append, hk']

/-! ## Arriving and leaving -/

theorem queue_arrive (g : Guards) (key : String) (n : Nat) :
    (g.arrive key).2.queue n =
      if n = (g.arrive key).1.guard then g.queue n ++ [(g.arrive key).1] else g.queue n := by
  have hl := g.looksUp key
  rw [← hl.queue n]
  exact queue_modify _ _ hl.length

theorem arrive_number (g : Guards) (key : String) : (g.arrive key).1.number = g.issued :=
  (g.looksUp key).issued

theorem arrive_issued (g : Guards) (key : String) : (g.arrive key).2.issued = g.issued + 1 :=
  congrArg (· + 1) (g.looksUp key).issued

/-- The ticket that is given out waits in the queue that the key leads to. -/
theorem arrive_serves (g : Guards) (key : String) :
    (g.arrive key).2.Serves (g.arrive key).1 key := by
  constructor
  · rw [queue_arrive]
    simp
  · exact (g.looksUp key).found

theorem WellFormed.arrive {g : Guards} (h : g.WellFormed) (key : String) :
    (g.arrive key).2.WellFormed := by
  -- whoever is in a queue now was there before, or has just come
  have hold : ∀ n t, t ∈ (g.arrive key).2.queue n →
      t ∈ g.queue n ∨ (t = (g.arrive key).1 ∧ n = (g.arrive key).1.guard) := by
    intro n t ht
    rw [queue_arrive] at ht
    split at ht
    · next hn =>
      rcases List.mem_append.1 ht with ht | ht
      · exact Or.inl ht
      · exact Or.inr ⟨by simpa using ht, hn⟩
    · exact Or.inl ht
  constructor
  · intro n t ht
    rcases hold n t ht with ht | ⟨rfl, rfl⟩
    · exact h.own n t ht
    · rfl
  · intro n t ht
    rw [arrive_issued]
    rcases hold n t ht with ht | ⟨rfl, -⟩
    · exact Nat.lt_succ_of_lt (h.issued n t ht)
    · rw [arrive_number]
      exact Nat.lt_succ_self _
  · intro n
    rw [queue_arrive]
    split
    · -- the new ticket has a number of its own
      refine List.Nodup.append (h.nodup n) (List.nodup_singleton _) ?_
      intro t ht hnew
      have hlt := h.issued n t ht
      rw [List.mem_singleton.1 hnew, arrive_number] at hlt
      exact Nat.lt_irrefl _ hlt
    · exact h.nodup n

/-- A ticket stays in its queue when another one arrives. -/
theorem Serves.arrive {g : Guards} {t : Ticket} {k : String} (h : g.Serves t k) (key : String) :
    (g.arrive key).2.Serves t k := by
  constructor
  · rw [queue_arrive]
    split
    · exact List.mem_append_left _ h.queued
    · exact h.queued
  · -- the ticket itself keeps its guard in use, so the entry is not pruned
    exact (g.looksUp key).kept k t.guard h.found (inUse_of_mem h.queued)

/-- Whoever holds a guard goes on holding it when another one arrives. -/
theorem holds_arrive {g : Guards} {t : Ticket} (h : g.holds t = true) (key : String) :
    (g.arrive key).2.holds t = true := by
  rw [holds_iff] at h ⊢
  rw [queue_arrive]
  split
  · rw [List.head?_append, h]
    rfl
  · exact h

theorem queue_leave (g : Guards) (t : Ticket) (n : Nat) :
    (g.leave t).queue n = if n = t.guard then (g.queue n).erase t else g.queue n := by
  by_cases ht : t.guard < g.queues.length
  · exact queue_modify _ _ ht
  · -- a ticket without a guard changes nothing
    have hq : g.queues[t.guard]? = none := List.getElem?_eq_none (Nat.le_of_not_lt ht)
    simp only [leave, queue, List.getElem?_modify]
    split
    · next hn =>
      subst hn
      simp [hq]
    · next hn =>
      have hn' : n ≠ t.guard := by
        intro h
        exact hn h.symm
      simp [hn']

theorem WellFormed.leave {g : Guards} (h : g.WellFormed) (t : Ticket) :
    (g.leave t).WellFormed := by
  have hold : ∀ n u, u ∈ (g.leave t).queue n → u ∈ g.queue n := by
    intro n u hu
    rw [queue_leave] at hu
    split at hu
    · exact List.mem_of_mem_erase hu
    · exact hu
  constructor
  · intro n u hu
    exact h.own n u (hold n u hu)
  · intro n u hu
    exact h.issued n u (hold n u hu)
  · intro n
    rw [queue_leave]
    split
    · exact (h.nodup n).erase t
    · exact h.nodup n

/-- A ticket stays in its queue when another one leaves. -/
theorem Serves.leave {g : Guards} {t u : Ticket} {k : String} (h : g.Serves u k) (hne : u ≠ t) :
    (g.leave t).Serves u k := by
  constructor
  · rw [queue_leave]
    split
    · exact (List.mem_erase_of_ne hne).2 h.queued
    · exact h.queued
  · exact h.found

/-- Whoever holds a guard goes on holding it when another one leaves. -/
theorem holds_leave {g : Guards} {t u : Ticket} (h : g.holds u = true) (hne : u ≠ t) :
    (g.leave t).holds u = true := by
  rw [holds_iff] at h ⊢
  rw [queue_leave]
  split
  · cases hq : g.queue u.guard with
    | nil => simp [hq] at h
    | cons head rest =>
      -- the one that leaves is not the head, so it is erased from the rest
      rw [hq] at h
      have hhead : head = u := by simpa using h
      subst hhead
      have hbeq : (head == t) = false := beq_eq_false_iff_ne.2 hne
      simp [hbeq]
  · exact h

/-! ## Exclusion -/

/-- Of the tickets for one key at most one holds the guard. -/
theorem holds_unique {g : Guards} {t u : Ticket} {key : String} (ht : g.Serves t key)
    (hu : g.Serves u key) (hht : g.holds t = true) (hhu : g.holds u = true) : t = u := by
  have hguard : t.guard = u.guard := Option.some.inj (ht.found.symm.trans hu.found)
  rw [holds_iff] at hht hhu
  rw [hguard, hhu] at hht
  exact (Option.some.inj hht).symm

end FileGateway.Guards

namespace FileGateway

/-! ## Visits -/

/-- A visit at the guard of a key. A visitor that is `admitted` was let in: it has been told that
it holds the guard. -/
structure Visit where
  key : String
  ticket : Ticket
  admitted : Bool
deriving DecidableEq

/-- Every visit waits in the queue that its key leads to, with a ticket of its own, and whoever was
let in holds the guard. -/
structure Guards.Hosts (g : Guards) (visits : Nat → Option Visit) : Prop where
  wellFormed : g.WellFormed
  serves : ∀ i v, visits i = some v → g.Serves v.ticket v.key
  holds : ∀ i v, visits i = some v → v.admitted = true → g.holds v.ticket = true
  distinct : ∀ i j v w, visits i = some v → visits j = some w → v.ticket = w.ticket → i = j

namespace Guards.Hosts

variable {g : Guards} {visits : Nat → Option Visit} {i j : Nat} {v w : Visit}

theorem start : Guards.empty.Hosts fun _ => none := by
  have hqueue : ∀ n, Guards.empty.queue n = [] := fun n => rfl
  constructor
  · exact ⟨fun n t h => by simp [hqueue] at h, fun n t h => by simp [hqueue] at h,
      fun n => by simp [hqueue]⟩
  · intro i v h
    cases h
  · intro i v h
    cases h
  · intro i j v w h
    cases h

/-- A visit goes on with the same ticket, or is over without anybody in a queue. -/
theorem goOn (h : g.Hosts visits) {new : Option Visit}
    (hnew : ∀ w, new = some w → ∃ v, visits i = some v ∧ w.key = v.key ∧ w.ticket = v.ticket ∧
      (w.admitted = true → g.holds w.ticket = true)) :
    g.Hosts (Function.update visits i new) := by
  -- whoever visits now has visited before, with the same ticket
  have hold : ∀ {j w}, Function.update visits i new j = some w →
      ∃ v, visits j = some v ∧ w.key = v.key ∧ w.ticket = v.ticket ∧
        (w.admitted = true → g.holds w.ticket = true) := by
    intro j w hw
    by_cases hj : j = i
    · subst hj
      rw [Function.update_self] at hw
      exact hnew w hw
    · rw [Function.update_of_ne hj] at hw
      exact ⟨w, hw, rfl, rfl, h.holds j w hw⟩
  constructor
  · exact h.wellFormed
  · intro j w hw
    obtain ⟨v, hv, hkey, hticket, -⟩ := hold hw
    rw [hkey, hticket]
    exact h.serves j v hv
  · intro j w hw ha
    obtain ⟨-, -, -, -, hholds⟩ := hold hw
    exact hholds ha
  · intro j k w x hw hx ht
    obtain ⟨v, hv, -, hvt, -⟩ := hold hw
    obtain ⟨y, hy, -, hyt, -⟩ := hold hx
    exact h.distinct j k v y hv hy (hvt.symm.trans (ht.trans hyt))

/-- Somebody comes, and gets a ticket that nobody has. -/
theorem arrive (h : g.Hosts visits) (key : String) :
    (g.arrive key).2.Hosts (Function.update visits i (some ⟨key, (g.arrive key).1, false⟩)) := by
  have hold : ∀ {j v}, Function.update visits i (some ⟨key, (g.arrive key).1, false⟩) j = some v →
      (j = i ∧ v = ⟨key, (g.arrive key).1, false⟩) ∨ (j ≠ i ∧ visits j = some v) := by
    intro j v hv
    by_cases hj : j = i
    · subst hj
      rw [Function.update_self] at hv
      exact .inl ⟨rfl, (Option.some.inj hv).symm⟩
    · rw [Function.update_of_ne hj] at hv
      exact .inr ⟨hj, hv⟩
  -- the number of the new ticket was not given out before
  have hfresh : ∀ j v, visits j = some v → v.ticket ≠ (g.arrive key).1 := by
    intro j v hv ht
    have hlt := h.wellFormed.issued _ _ (h.serves j v hv).queued
    rw [ht, arrive_number] at hlt
    exact Nat.lt_irrefl _ hlt
  constructor
  · exact h.wellFormed.arrive key
  · intro j v hv
    rcases hold hv with ⟨rfl, rfl⟩ | ⟨-, hv⟩
    · exact g.arrive_serves key
    · exact (h.serves j v hv).arrive key
  · intro j v hv ha
    rcases hold hv with ⟨rfl, rfl⟩ | ⟨-, hv⟩
    · cases ha
    · exact holds_arrive (h.holds j v hv ha) key
  · intro j k v w hv hw ht
    rcases hold hv with ⟨hj, rfl⟩ | ⟨-, hv'⟩ <;> rcases hold hw with ⟨hk, rfl⟩ | ⟨-, hw'⟩
    · exact hj.trans hk.symm
    · exact absurd ht.symm (hfresh k w hw')
    · exact absurd ht (hfresh j v hv')
    · exact h.distinct j k v w hv' hw' ht

/-- Somebody goes, whether it was let in or not. All others keep their places. -/
theorem leave (h : g.Hosts visits) (hi : visits i = some v) :
    (g.leave v.ticket).Hosts (Function.update visits i none) := by
  -- all tickets that are left are those of others, since no two visits have the same one
  have hold : ∀ {j w}, Function.update visits i none j = some w →
      visits j = some w ∧ w.ticket ≠ v.ticket := by
    intro j w hw
    by_cases hj : j = i
    · subst hj
      rw [Function.update_self] at hw
      cases hw
    · rw [Function.update_of_ne hj] at hw
      exact ⟨hw, fun ht => hj (h.distinct j i w v hw hi ht)⟩
  constructor
  · exact h.wellFormed.leave v.ticket
  · intro j w hw
    obtain ⟨hw, hne⟩ := hold hw
    exact (h.serves j w hw).leave hne
  · intro j w hw ha
    obtain ⟨hw, hne⟩ := hold hw
    exact holds_leave (h.holds j w hw ha) hne
  · intro j k w x hw hx ht
    exact h.distinct j k w x (hold hw).1 (hold hx).1 ht

/-- Of those who visit the guard of one key only one was let in: another one would have to leave the
guard first. -/
theorem exclusive (h : g.Hosts visits) (hv : visits i = some v) (hw : visits j = some w)
    (hva : v.admitted = true) (hwa : w.admitted = true) (hkey : v.key = w.key) : i = j := by
  have hw' : g.Serves w.ticket v.key := hkey ▸ h.serves j w hw
  exact h.distinct i j v w hv hw
    (holds_unique (h.serves i v hv) hw' (h.holds i v hv hva) (h.holds j w hw hwa))

end Guards.Hosts

end FileGateway

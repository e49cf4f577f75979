import FileGateway.Proofs.Lease.Guards
import FileGateway.Proofs.Lease.Lifecycle

/-!
# Turns at a marker

An acquisition joins the queue of its marker's guard as soon as the marker's path is resolved, and
from its turn to its end it holds the guard. So of all acquisitions that have come past the queue at
most one is about the same marker.

`Guarded` is the invariant that ties the tickets of the lease operations to the guards: the lease
operations with a ticket are visits that the guards host (`Guarded.iff_hosts`). `Guarded.exclusive`
is what follows from it.
-/

namespace FileGateway

/-- The bid of an acquisition that has joined the queue of its guard and has not left it. -/
def Acquire.Place.bid? : Acquire.Place → Option Acquire.Bid
  | queued bid | creating bid | probing bid | filling bid => some bid
  | opening bid | writing bid _ | finishing bid _ | cleaning bid _ => some bid
  | resolving | holding _ | activating _ | arming | retreating _ => none

/-- Whether an acquisition waits for its turn. -/
def Acquire.Place.isQueued : Acquire.Place → Bool
  | queued _ => true
  | _ => false

namespace LeaseOp

/-- The ticket of a lease operation, with the key of the guard that it is for. -/
def ticket? : LeaseOp → Option (Ticket × String)
  | acquire a place => place.bid?.map fun bid => (bid.ticket, a.guardKey bid.marker)
  | surrender _ _ => none

/-- Whether a lease operation waits for its turn. -/
def isQueued : LeaseOp → Bool
  | acquire _ place => place.isQueued
  | surrender _ _ => false

/-- What a move does at the guards: it goes on with the ticket that the lease operation has, past
the queue; it joins a queue; or it leaves its guard. -/
inductive Turns (s s' : Shared) (d : LeaseOp) (reply : Reply) : Option LeaseOp → Prop where
  | keeps (new : Option LeaseOp) (guards : s'.guards = s.guards)
      (ticket : ∀ e, new = some e → e.ticket? = d.ticket? ∧ e.isQueued = false)
      (turn : d.isQueued = true → ∃ t key, d.ticket? = some (t, key) ∧ reply.1 = .guard t) :
      Turns s s' d reply new
  | joins (e : LeaseOp) (key : String) (before : d.ticket? = none)
      (ticket : e.ticket? = some ((s.guards.arrive key).1, key)) (queued : e.isQueued = true)
      (guards : s'.guards = (s.guards.arrive key).2) : Turns s s' d reply (some e)
  | leaves (new : Option LeaseOp) (t : Ticket) (key : String) (before : d.ticket? = some (t, key))
      (after : ∀ e, new = some e → e.ticket? = none) (guards : s'.guards = s.guards.leave t) :
      Turns s s' d reply new

theorem Moves.turns {writer : Diagnostics} {s s' : Shared} {d : LeaseOp} {reply : Reply}
    {step : Step LeaseOp Ending} (h : d.Moves writer s reply step s') :
    Turns s s' d reply step.place? := by
  cases h with
  -- the ticket is given out, and is the answer of the guard
  | resolved a marker => exact .joins _ _ rfl rfl rfl rfl
  | granted a bid =>
    refine .keeps _ rfl (fun e he => ?_) fun _ => ⟨bid.ticket, _, rfl, rfl⟩
    cases he
    split <;> exact ⟨rfl, rfl⟩
  -- every way out of the creation of a marker leaves the guard
  | beaten a bid => exact .leaves _ _ _ rfl (fun e he => by cases he; rfl) rfl
  | uncreated a bid f => exact .leaves _ _ _ rfl (fun e he => by cases he; rfl) rfl
  | found a bid => exact .leaves _ _ _ rfl (fun e he => by cases he; rfl) rfl
  | unprobed a bid f => exact .leaves _ _ _ rfl (fun e he => by cases he; rfl) rfl
  | unfilled a bid f => exact .leaves _ _ _ rfl (fun e he => by cases he; rfl) rfl
  | finished a bid stream => exact .leaves _ _ _ rfl (fun e he => by cases he; rfl) rfl
  | cleaned a bid f answer => exact .leaves _ _ _ rfl (fun e he => by cases he; rfl) rfl
  -- whoever gives a lease up never had a ticket
  | taken r held h =>
    refine .keeps _ rfl (fun e he => ?_) fun hq => by cases hq
    cases he
    exact ⟨rfl, rfl⟩
  | armed | retreated | empty | removed | abandoned =>
    exact .keeps _ rfl (fun e he => by cases he) fun hq => by cases hq
  | _ => exact .keeps _ rfl (fun e he => by cases he; exact ⟨rfl, rfl⟩) fun hq => by cases hq

end LeaseOp

theorem Begins.guards {s s' : Shared} {d : Option LeaseOp} (h : Begins s d s') :
    s'.guards = s.guards := by
  cases h with
  | nothing agrees => exact agrees.guards
  | lease target lease fresh agrees => exact agrees.guards
  | attempt a l found idle marker agrees => exact agrees.guards
  | acquisition target lease a fresh id marker agrees => exact agrees.guards
  | surrender r l timer found active agrees => exact agrees.guards
  | late id l found inactive agrees => exact agrees.guards

theorem Begins.ticket {s s' : Shared} {d : LeaseOp} (h : Begins s (some d) s') :
    d.ticket? = none := by
  cases h <;> rfl

/-- The tickets of the lease operations are in the queues that their keys lead to, no two lease
operations have the same ticket, and whoever does not wait for a turn holds the guard. -/
structure Guarded (g : Guards) (leaseOps : TaskId → Option LeaseOp) : Prop where
  wellFormed : g.WellFormed
  serves : ∀ i d t key, leaseOps i = some d → d.ticket? = some (t, key) → g.Serves t key
  holds : ∀ i d t key, leaseOps i = some d → d.ticket? = some (t, key) → d.isQueued = false →
    g.holds t = true
  distinct : ∀ i j d e t key key', leaseOps i = some d → leaseOps j = some e →
    d.ticket? = some (t, key) → e.ticket? = some (t, key') → i = j

/-- The visit that a lease operation with a ticket is. -/
def LeaseOp.visit? (d : LeaseOp) : Option Visit :=
  d.ticket?.map fun ticket => ⟨ticket.2, ticket.1, !d.isQueued⟩

theorem LeaseOp.visit?_eq_some_iff {d : LeaseOp} {v : Visit} :
    d.visit? = some v ↔ d.ticket? = some (v.ticket, v.key) ∧ v.admitted = !d.isQueued := by
  unfold LeaseOp.visit?
  constructor
  · intro h
    obtain ⟨ticket, hticket, rfl⟩ := Option.map_eq_some_iff.1 h
    exact ⟨hticket, rfl⟩
  · rintro ⟨hticket, hadmitted⟩
    rw [hticket, ← hadmitted]
    rfl

namespace Guarded

variable {g : Guards} {leaseOps : TaskId → Option LeaseOp} {i j : TaskId} {d e : LeaseOp}

/-- The lease operations with a ticket are the visits that are going on. -/
theorem iff_hosts : Guarded g leaseOps ↔ g.Hosts fun i => (leaseOps i).bind LeaseOp.visit? := by
  have hvisits : ∀ {i v}, (leaseOps i).bind LeaseOp.visit? = some v ↔ ∃ d, leaseOps i = some d ∧
      d.ticket? = some (v.ticket, v.key) ∧ v.admitted = !d.isQueued := by
    intro i v
    simp only [Option.bind_eq_some_iff, LeaseOp.visit?_eq_some_iff]
  constructor
  · intro h
    constructor
    · exact h.wellFormed
    · intro i v hv
      obtain ⟨d, hd, hticket, -⟩ := hvisits.1 hv
      exact h.serves i d v.ticket v.key hd hticket
    · intro i v hv ha
      obtain ⟨d, hd, hticket, hadmitted⟩ := hvisits.1 hv
      rw [hadmitted, Bool.not_eq_true'] at ha
      exact h.holds i d v.ticket v.key hd hticket ha
    · intro i j v w hv hw ht
      obtain ⟨d, hd, hdt, -⟩ := hvisits.1 hv
      obtain ⟨e, he, het, -⟩ := hvisits.1 hw
      exact h.distinct i j d e v.ticket v.key w.key hd he hdt (ht ▸ het)
  · intro h
    constructor
    · exact h.wellFormed
    · intro i d t key hd hticket
      exact h.serves i ⟨key, t, _⟩ (hvisits.2 ⟨d, hd, hticket, rfl⟩)
    · intro i d t key hd hticket hq
      exact h.holds i ⟨key, t, _⟩ (hvisits.2 ⟨d, hd, hticket, rfl⟩) (by rw [hq])
    · intro i j d e t key key' hd he hdt het
      exact h.distinct i j ⟨key, t, _⟩ ⟨key', t, _⟩ (hvisits.2 ⟨d, hd, hdt, rfl⟩)
        (hvisits.2 ⟨e, he, het, rfl⟩) rfl

/-- A lease operation is replaced, and with it the visit that it was. -/
theorem of_hosts {new : Option LeaseOp}
    (h : g.Hosts (Function.update (fun i => (leaseOps i).bind LeaseOp.visit?) i
      (new.bind LeaseOp.visit?))) :
    Guarded g (Function.update leaseOps i new) := by
  refine iff_hosts.2 ?_
  have hupdate :=
    Function.comp_update (fun d : Option LeaseOp => d.bind LeaseOp.visit?) leaseOps i new
  exact (congrArg g.Hosts hupdate).mpr h

theorem start : Guarded .empty fun _ => none :=
  iff_hosts.2 .start

/-- Of two acquisitions that are about one marker and past the queue, one would have to leave the
guard before the other one has its turn. -/
theorem exclusive (h : Guarded g leaseOps) {t u : Ticket} {key : String} (hi : leaseOps i = some d)
    (hj : leaseOps j = some e) (hd : d.ticket? = some (t, key)) (he : e.ticket? = some (u, key))
    (hdq : d.isQueued = false) (heq : e.isQueued = false) : i = j := by
  have hvisit : ∀ {i d t}, leaseOps i = some d → d.ticket? = some (t, key) → d.isQueued = false →
      (leaseOps i).bind LeaseOp.visit? = some ⟨key, t, true⟩ := by
    intro i d t hi hd hq
    rw [hi, Option.bind_some, LeaseOp.visit?_eq_some_iff]
    exact ⟨hd, by rw [hq]; rfl⟩
  exact (iff_hosts.1 h).exclusive (hvisit hi hd hdq) (hvisit hj he heq) rfl rfl rfl

/-- A task whose lease operation has no ticket gets another lease operation without one, or none. -/
theorem ticketless (h : Guarded g leaseOps) {new : Option LeaseOp}
    (hnew : ∀ e, new = some e → e.ticket? = none) : Guarded g (Function.update leaseOps i new) := by
  refine of_hosts ((iff_hosts.1 h).goOn fun w hw => ?_)
  obtain ⟨e, he, hvisit⟩ := Option.bind_eq_some_iff.1 hw
  obtain ⟨hticket, -⟩ := LeaseOp.visit?_eq_some_iff.1 hvisit
  rw [hnew e he] at hticket
  cases hticket

/-- What begins is never in a queue yet. -/
theorem begins {s s' : Shared} (h : Guarded s.guards leaseOps) {new : Option LeaseOp}
    (hb : Begins s new s') : Guarded s'.guards (Function.update leaseOps i new) := by
  rw [hb.guards]
  refine h.ticketless fun e he => ?_
  subst he
  exact hb.ticket

/-- A task goes on past the queue, with the ticket that it has. -/
theorem keeps (h : Guarded g leaseOps) (hi : leaseOps i = some d) {new : Option LeaseOp}
    (hnew : ∀ e, new = some e → e.ticket? = d.ticket? ∧ e.isQueued = false)
    (hturn : ∀ t key, d.ticket? = some (t, key) → g.holds t = true) :
    Guarded g (Function.update leaseOps i new) := by
  refine of_hosts ((iff_hosts.1 h).goOn fun w hw => ?_)
  obtain ⟨e, he, hvisit⟩ := Option.bind_eq_some_iff.1 hw
  obtain ⟨hticket, -⟩ := LeaseOp.visit?_eq_some_iff.1 hvisit
  rw [(hnew e he).1] at hticket
  refine ⟨⟨w.key, w.ticket, !d.isQueued⟩, ?_, rfl, rfl, fun _ => hturn _ _ hticket⟩
  rw [hi, Option.bind_some, LeaseOp.visit?_eq_some_iff]
  exact ⟨hticket, rfl⟩

/-- A task joins a queue, with a ticket that nobody has. -/
theorem joins (h : Guarded g leaseOps) {key : String}
    (he : e.ticket? = some ((g.arrive key).1, key)) (heq : e.isQueued = true) :
    Guarded (g.arrive key).2 (Function.update leaseOps i (some e)) := by
  have hvisit : (some e).bind LeaseOp.visit? = some ⟨key, (g.arrive key).1, false⟩ := by
    rw [Option.bind_some, LeaseOp.visit?_eq_some_iff]
    exact ⟨he, by rw [heq]; rfl⟩
  refine of_hosts ?_
  rw [hvisit]
  exact (iff_hosts.1 h).arrive key

/-- A task leaves its guard, and all others keep their places. -/
theorem leaves (h : Guarded g leaseOps) (hi : leaseOps i = some d) {t : Ticket} {key : String}
    (hd : d.ticket? = some (t, key)) {new : Option LeaseOp}
    (hnew : ∀ e, new = some e → e.ticket? = none) :
    Guarded (g.leave t) (Function.update leaseOps i new) := by
  have hgone : new.bind LeaseOp.visit? = none := by
    cases new with
    | none => rfl
    | some e => rw [Option.bind_some, LeaseOp.visit?, hnew e rfl, Option.map_none]
  have hvisit : (leaseOps i).bind LeaseOp.visit? = some ⟨key, t, !d.isQueued⟩ := by
    rw [hi, Option.bind_some, LeaseOp.visit?_eq_some_iff]
    exact ⟨hd, rfl⟩
  refine of_hosts ?_
  rw [hgone]
  exact (iff_hosts.1 h).leave hvisit

/-- Every move of a lease operation keeps the turns, if a guard lets only those in that hold it. -/
theorem moves {writer : Diagnostics} {s s' : Shared} (h : Guarded s.guards leaseOps)
    (hi : leaseOps i = some d) {reply : Reply} {step : Step LeaseOp LeaseOp.Ending}
    (hm : d.Moves writer s reply step s')
    (hopen : ∀ t, reply.1 = .guard t → s.guards.holds t = true) :
    Guarded s'.guards (Function.update leaseOps i step.place?) := by
  have hturns := hm.turns
  generalize step.place? = new at hturns ⊢
  cases hturns with
  | keeps _ guards ticket turn =>
    rw [guards]
    refine h.keeps hi ticket fun t key ht => ?_
    by_cases hq : d.isQueued = true
    · -- it was let in just now
      obtain ⟨u, k, hu, hreply⟩ := turn hq
      rw [hu] at ht
      cases ht
      exact hopen t hreply
    · simp only [Bool.not_eq_true] at hq
      exact h.holds i d t key hi ht hq
  | joins e key before ticket queued guards =>
    rw [guards]
    exact h.joins ticket queued
  | leaves _ t key before after guards =>
    rw [guards]
    exact h.leaves hi before after

end Guarded

end FileGateway

import Mathlib.Data.List.Basic
import FileGateway.Gateway.Basic

/-!
# Lease operations

What a task does about a lease is a lease operation: it acquires the lease, or it gives the lease
up. A write of a locked file has a lease operation while it takes its lease and while it gives it
up, and none in between.

* `Task.leaseOp?` is the lease operation of a task, and `Task.next?_of_leaseOp` says that the task
  goes on as its lease operation does;
* `LeaseOp.Moves` lists what a lease operation can do when it is answered, and `LeaseOp.moves_next`
  says that the list is complete. The invariants of leases are proved from the list alone.
-/

namespace FileGateway

/-- The place where an activity has paused. -/
def Step.place? {π ρ : Type} : Step π ρ → Option π
  | paused place => some place
  | done _ => none

theorem Step.place?_map {π ρ π' ρ' : Type} (place : π → π') (result : ρ → ρ') (step : Step π ρ) :
    (step.map place result).place? = step.place?.map place := by
  cases step <;> rfl

/-- An answer, with the request that it answers. -/
abbrev Reply : Type := (request : Request) × request.Answer

/-- What a task does about a lease, and where it waits. -/
inductive LeaseOp where
  | acquire (acquire : Acquire) (place : Acquire.Place)
  | surrender (surrender : Surrender) (place : Surrender.Place)
deriving DecidableEq

namespace LeaseOp

/-- What a lease operation ends with. -/
inductive Ending where
  | acquired (result : Except Error Bool)
  | surrendered (result : Result Bool)

/-- The lease that a lease operation is about. -/
def lease : LeaseOp → LeaseId
  | acquire a _ => a.lease
  | surrender r _ => r.lease

/-- Whether a lease operation acquires its lease. -/
def isAcquire : LeaseOp → Bool
  | acquire _ _ => true
  | surrender _ _ => false

@[simp] theorem isAcquire_acquire (a : Acquire) (place : Acquire.Place) :
    (acquire a place).isAcquire = true := rfl

@[simp] theorem isAcquire_surrender (r : Surrender) (place : Surrender.Place) :
    (surrender r place).isAcquire = false := rfl

/-- What a lease operation waits for, and how it goes on. -/
def next (writer : Diagnostics) : LeaseOp → Pending (Move LeaseOp Ending)
  | acquire a place =>
    (a.next writer place).map fun move s => ((move s).1.map (acquire a) .acquired, (move s).2)
  | surrender r place =>
    (r.next place).map fun move s => ((move s).1.map (surrender r) .surrendered, (move s).2)

/-! ## What a lease operation can do -/

/-- The state in which a ticket has left its guard. -/
abbrev leaving (s : Shared) (bid : Acquire.Bid) : Shared :=
  { s with guards := s.guards.leave bid.ticket }

open Acquire.Place Surrender.Place in
/-- The moves of a lease operation: where it stands, what it is answered, where it comes to, and
what becomes of the shared state. -/
inductive Moves (writer : Diagnostics) (s : Shared) :
    LeaseOp → Reply → Step LeaseOp Ending → Shared → Prop where
  -- the path of the marker, and the turn at its guard
  | resolved (a : Acquire) (marker : FileRef) :
    Moves writer s (acquire a resolving)
      ⟨.store a.backend (.resolve a.marker a.options), .ok marker⟩
      (.paused (acquire a (queued ⟨marker, (s.guards.arrive (a.guardKey marker)).1⟩)))
      { s with guards := (s.guards.arrive (a.guardKey marker)).2 }
  | unresolved (a : Acquire) (f : Failure) :
    Moves writer s (acquire a resolving) ⟨.store a.backend (.resolve a.marker a.options), .error f⟩
      (.paused (acquire a (retreating (some (.filesystem a.marker f))))) s
  | granted (a : Acquire) (bid : Acquire.Bid) :
    Moves writer s (acquire a (queued bid)) ⟨.guard bid.ticket, ()⟩
      (.paused (acquire a (if a.backend.exclusiveCreate then creating bid else probing bid))) s
  -- the marker is created exclusively
  | created (a : Acquire) (bid : Acquire.Bid) :
    Moves writer s (acquire a (creating bid))
      ⟨.store a.backend (.createExclusive bid.marker), .ok true⟩
      (.paused (acquire a (opening bid))) s
  | beaten (a : Acquire) (bid : Acquire.Bid) :
    Moves writer s (acquire a (creating bid))
      ⟨.store a.backend (.createExclusive bid.marker), .ok false⟩
      (.paused (acquire a (retreating none))) (leaving s bid)
  | uncreated (a : Acquire) (bid : Acquire.Bid) (f : Failure) :
    Moves writer s (acquire a (creating bid))
      ⟨.store a.backend (.createExclusive bid.marker), .error f⟩
      (.paused (acquire a (retreating (some (.filesystem a.marker f))))) (leaving s bid)
  -- the marker is looked for first, and created if there is none
  | found (a : Acquire) (bid : Acquire.Bid) :
    Moves writer s (acquire a (probing bid)) ⟨.store a.backend (.probe bid.marker), .ok true⟩
      (.paused (acquire a (retreating none))) (leaving s bid)
  | missed (a : Acquire) (bid : Acquire.Bid) :
    Moves writer s (acquire a (probing bid)) ⟨.store a.backend (.probe bid.marker), .ok false⟩
      (.paused (acquire a (filling bid))) s
  | unprobed (a : Acquire) (bid : Acquire.Bid) (f : Failure) :
    Moves writer s (acquire a (probing bid)) ⟨.store a.backend (.probe bid.marker), .error f⟩
      (.paused (acquire a (retreating (some (.filesystem a.marker f))))) (leaving s bid)
  | filled (a : Acquire) (bid : Acquire.Bid) :
    Moves writer s (acquire a (filling bid)) ⟨.store a.backend (.createFile bid.marker), .ok ()⟩
      (.paused (acquire a (opening bid))) s
  | unfilled (a : Acquire) (bid : Acquire.Bid) (f : Failure) :
    Moves writer s (acquire a (filling bid)) ⟨.store a.backend (.createFile bid.marker), .error f⟩
      (.paused (acquire a (retreating (some (.filesystem a.marker f))))) (leaving s bid)
  -- what is written into the marker, and the clean-up if that fails
  | opened (a : Acquire) (bid : Acquire.Bid) (stream : StreamId) :
    Moves writer s (acquire a (opening bid))
      ⟨.store a.backend (.openWrite bid.marker false), .ok stream⟩
      (.paused (acquire a (writing bid stream))) s
  | unopened (a : Acquire) (bid : Acquire.Bid) (f : Failure) :
    Moves writer s (acquire a (opening bid))
      ⟨.store a.backend (.openWrite bid.marker false), .error f⟩
      (.paused (acquire a (cleaning bid f))) s
  | written (a : Acquire) (bid : Acquire.Bid) (stream : StreamId) :
    Moves writer s (acquire a (writing bid stream))
      ⟨.store a.backend (.write stream writer.text.toUTF8.toList), .ok ()⟩
      (.paused (acquire a (finishing bid stream))) s
  | unwritten (a : Acquire) (bid : Acquire.Bid) (stream : StreamId) (f : Failure) :
    Moves writer s (acquire a (writing bid stream))
      ⟨.store a.backend (.write stream writer.text.toUTF8.toList), .error f⟩
      (.paused (acquire a (cleaning bid f))) s
  | finished (a : Acquire) (bid : Acquire.Bid) (stream : StreamId) :
    Moves writer s (acquire a (finishing bid stream)) ⟨.store a.backend (.finish stream), .ok ()⟩
      (.paused (acquire a (holding bid))) (leaving s bid)
  | unfinished (a : Acquire) (bid : Acquire.Bid) (stream : StreamId) (f : Failure) :
    Moves writer s (acquire a (finishing bid stream)) ⟨.store a.backend (.finish stream), .error f⟩
      (.paused (acquire a (cleaning bid f))) s
  | cleaned (a : Acquire) (bid : Acquire.Bid) (f : Failure) (answer : Result Bool) :
    Moves writer s (acquire a (cleaning bid f)) ⟨.store a.backend (.delete bid.marker), answer⟩
      (.paused (acquire a (retreating (some (.filesystem a.marker f))))) (leaving s bid)
  -- the lease is changed, one field after the other
  | held (a : Acquire) (bid : Acquire.Bid) :
    Moves writer s (acquire a (holding bid)) ⟨.slot, ()⟩ (.paused (acquire a (activating bid)))
      (s.modifyLease a.lease fun l => { l with held := some ⟨a.backend, bid.marker⟩ })
  | activated (a : Acquire) (bid : Acquire.Bid) :
    Moves writer s (acquire a (activating bid)) ⟨.slot, ()⟩ (.paused (acquire a arming))
      (s.modifyLease a.lease fun l => { l with state := .active })
  | armed (a : Acquire) :
    Moves writer s (acquire a arming) ⟨.slot, ()⟩ (.done (.acquired (.ok true)))
      ((s.modifyLease a.lease fun l =>
        { l with timer := l.timer.arm (s.now + a.expiry.nanos) }).noteTimer a.lease)
  | retreated (a : Acquire) (error : Option Error) :
    Moves writer s (acquire a (retreating error)) ⟨.slot, ()⟩
      (.done (.acquired (error.elim (.ok false) .error)))
      (s.modifyLease a.lease fun l => { l with state := .idle })
  -- the lease is given up, and its marker removed
  | empty (r : Surrender) (h : (s.lease? r.lease).bind Lease.held = none) :
    Moves writer s (surrender r taking) ⟨.slot, ()⟩ (.done (.surrendered (.ok true))) s
  | taken (r : Surrender) (held : Held) (h : (s.lease? r.lease).bind Lease.held = some held) :
    Moves writer s (surrender r taking) ⟨.slot, ()⟩
      (.paused (surrender r (if r.forced then removing (.ofHeld held) else cancelling held)))
      (s.modifyLease r.lease fun l => { l with held := none })
  | cancelled (r : Surrender) (held : Held) :
    Moves writer s (surrender r (cancelling held)) ⟨.slot, ()⟩
      (.paused (surrender r (removing (.ofHeld held))))
      (s.modifyLease r.lease fun l => { l with timer := .cancelled })
  | removed (r : Surrender) (removal : Removal) (deleted : Bool) :
    Moves writer s (surrender r (removing removal))
      ⟨.store removal.backend (.delete removal.marker), .ok deleted⟩
      (.done (.surrendered (.ok deleted))) s
  | retried (r : Surrender) (removal : Removal) (f : Failure) (h : removal.attempt < removalLimit) :
    Moves writer s (surrender r (removing removal))
      ⟨.store removal.backend (.delete removal.marker), .error f⟩
      (.paused (surrender r (removing { removal with attempt := removal.attempt + 1 }))) s
  | abandoned (r : Surrender) (removal : Removal) (f : Failure)
      (h : ¬ removal.attempt < removalLimit) :
    Moves writer s (surrender r (removing removal))
      ⟨.store removal.backend (.delete removal.marker), .error f⟩
      (.done (.surrendered (.error f))) s

/-- Whatever a lease operation is answered, it makes one of its moves. -/
theorem moves_next (writer : Diagnostics) (s : Shared) (d : LeaseOp)
    (answer : (d.next writer).request.Answer) :
    Moves writer s d ⟨(d.next writer).request, answer⟩ ((d.next writer).resume answer s).1
      ((d.next writer).resume answer s).2 := by
  cases d with
  | acquire a place =>
    cases place with
    | resolving =>
      rcases answer with f | marker
      · exact .unresolved a f
      · exact .resolved a marker
    | queued bid => exact .granted a bid
    | creating bid =>
      rcases answer with f | (_ | _)
      · exact .uncreated a bid f
      · exact .beaten a bid
      · exact .created a bid
    | probing bid =>
      rcases answer with f | (_ | _)
      · exact .unprobed a bid f
      · exact .missed a bid
      · exact .found a bid
    | filling bid =>
      rcases answer with f | _
      · exact .unfilled a bid f
      · exact .filled a bid
    | opening bid =>
      rcases answer with f | stream
      · exact .unopened a bid f
      · exact .opened a bid stream
    | writing bid stream =>
      rcases answer with f | _
      · exact .unwritten a bid stream f
      · exact .written a bid stream
    | finishing bid stream =>
      rcases answer with f | _
      · exact .unfinished a bid stream f
      · exact .finished a bid stream
    | cleaning bid failure => exact .cleaned a bid failure answer
    | holding bid => exact .held a bid
    | activating bid => exact .activated a bid
    | arming => exact .armed a
    | retreating error => exact .retreated a error
  | surrender r place =>
    cases place with
    | taking =>
      simp only [next, Surrender.next, Surrender.take, Pending.map]
      cases hl : (s.lease? r.lease).bind Lease.held with
      | none => exact .empty r hl
      | some held => exact .taken r held hl
    | cancelling held => exact .cancelled r held
    | removing removal =>
      rcases answer with f | deleted
      · simp only [next, Surrender.next, Removal.next, Pending.map]
        split
        · next h => exact .retried r removal f h
        · next h => exact .abandoned r removal f h
      · exact .removed r removal deleted

end LeaseOp

/-! ## The lease operations of tasks -/

/-- The two states have the same leases and the same guards. -/
structure Shared.Agrees (s s' : Shared) : Prop where
  leases : s'.leases = s.leases
  guards : s'.guards = s.guards

theorem Shared.Agrees.refl (s : Shared) : s.Agrees s := ⟨rfl, rfl⟩

/-- The lease operation of a write, if it is about its lease just now. -/
def Write.Place.leaseOp? : Write.Place → Option LeaseOp
  | locking a place => some (.acquire a place)
  | unlocking lease _ place _ => some (.surrender ⟨lease, false⟩ place)
  | copying _ _ => none

/-- The lease operation of an operation, if it is about a lease just now. -/
def Operation.Place.leaseOp? : Operation.Place → Option LeaseOp
  | writing _ place => place.leaseOp?
  | _ => none

namespace Task

/-- The lease operation of a task, if it is about a lease just now. -/
def leaseOp? : Task → Option LeaseOp
  | acquiring a place => some (.acquire a place)
  | releasing lease _ _ place => some (.surrender ⟨lease, false⟩ place)
  | expiring lease place => some (.surrender ⟨lease, true⟩ place)
  | operating _ place => place.leaseOp?
  | _ => none

theorem leaseOp?_ofAcquire (a : Acquire) (step : Step Acquire.Place (Except Error Bool)) :
    (ofAcquire a step).leaseOp? = step.place?.map (LeaseOp.acquire a) := by
  cases step <;> rfl

theorem leaseOp?_ofRelease (lease : LeaseId) (marker : Path) (strict : Bool)
    (step : Step Surrender.Place (Except Error Bool)) :
    (ofRelease lease marker strict step).leaseOp? =
      step.place?.map (LeaseOp.surrender ⟨lease, false⟩) := by
  cases step <;> rfl

theorem leaseOp?_ofExpiry (lease : LeaseId) (step : Step Surrender.Place (Result Bool)) :
    (ofStep (expiring lease) .expired step).leaseOp? =
      step.place?.map (LeaseOp.surrender ⟨lease, true⟩) := by
  cases step <;> rfl

theorem leaseOp?_ofOperation (id : HandleId) (step : Step Operation.Place (Except Error Effect))
    (s : Shared) :
    (ofOperation id step s).1.leaseOp? = step.place?.bind Operation.Place.leaseOp? := by
  cases step <;> rfl

theorem agrees_ofOperation (id : HandleId) (step : Step Operation.Place (Except Error Effect))
    (s : Shared) : s.Agrees (ofOperation id step s).2 := by
  cases step <;> exact ⟨rfl, rfl⟩

end Task

theorem Operation.leaseOp?_writeStep (t : Write.Target)
    (step : Step Write.Place (Except Error Nat)) :
    (writeStep t step).place?.bind Place.leaseOp? = step.place?.bind Write.Place.leaseOp? := by
  cases step <;> rfl

theorem Write.leaseOp?_unlocking (lease : LeaseId) (marker : Path) (copied : Result Nat)
    {ρ ρ' : Type} (result : ρ → ρ') (step : Step Surrender.Place ρ) :
    (step.map (fun place => Place.unlocking lease marker place copied) result).place?.bind
      Place.leaseOp? = step.place?.map (LeaseOp.surrender ⟨lease, false⟩) := by
  cases step <;> rfl

theorem Write.leaseOp?_lockStep (a : Acquire) (step : Step Acquire.Place (Except Error Bool)) :
    (lockStep a step).place?.bind Place.leaseOp? = step.place?.map (LeaseOp.acquire a) := by
  cases step with
  | paused place => rfl
  | done result => rcases result with e | (_ | _) <;> rfl

namespace Task

/-- A task with a lease operation waits for what its lease operation waits for, and goes on as its
lease operation does. -/
theorem next?_of_leaseOp {t : Task} {d : LeaseOp} (h : t.leaseOp? = some d) (s : Shared) :
    ∃ p, t.next? s = some p ∧ p.request = (d.next s.writer).request ∧
      ∀ answer s', ∃ step s'', d.Moves s.writer s' ⟨p.request, answer⟩ step s'' ∧
        (p.resume answer s').1.leaseOp? = step.place? ∧ s''.Agrees (p.resume answer s').2 := by
  cases t with
  | acquiring a place =>
    cases h
    exact ⟨_, rfl, rfl, fun answer s' => ⟨_, _,
      LeaseOp.moves_next s.writer s' (.acquire a place) answer,
      (leaseOp?_ofAcquire a _).trans (Step.place?_map _ _ _).symm, .refl _⟩⟩
  | releasing lease marker strict place =>
    cases h
    refine ⟨_, rfl, rfl, fun answer s' => ⟨_, _,
      LeaseOp.moves_next s.writer s' (.surrender ⟨lease, false⟩ place) answer, ?_, .refl _⟩⟩
    refine (leaseOp?_ofRelease lease marker strict _).trans
      (Eq.trans ?_ (Step.place?_map _ _ _).symm)
    rw [Step.place?_map, Option.map_id]
    rfl
  | expiring lease place =>
    cases h
    exact ⟨_, rfl, rfl, fun answer s' => ⟨_, _,
      LeaseOp.moves_next s.writer s' (.surrender ⟨lease, true⟩ place) answer,
      (leaseOp?_ofExpiry lease _).trans (Step.place?_map _ _ _).symm, .refl _⟩⟩
  | operating id place =>
    cases place with
    | writing t place =>
      -- a write goes on by its lease while it takes it and while it gives it up
      cases place with
      | locking a place =>
        cases h
        refine ⟨_, rfl, rfl, fun answer s' => ⟨_, _,
          LeaseOp.moves_next s.writer s' (.acquire a place) answer, ?_, agrees_ofOperation id _ _⟩⟩
        exact (leaseOp?_ofOperation id _ _).trans ((Operation.leaseOp?_writeStep t _).trans
          ((Write.leaseOp?_lockStep a _).trans (Step.place?_map _ _ _).symm))
      | copying lease place => cases h
      | unlocking lease marker place copied =>
        cases h
        refine ⟨_, rfl, rfl, fun answer s' => ⟨_, _,
          LeaseOp.moves_next s.writer s' (.surrender ⟨lease, false⟩ place) answer, ?_,
          agrees_ofOperation id _ _⟩⟩
        exact (leaseOp?_ofOperation id _ _).trans ((Operation.leaseOp?_writeStep t _).trans
          ((Write.leaseOp?_unlocking lease marker copied _ _).trans (Step.place?_map _ _ _).symm))
    | resolving _ _ => cases h
    | probing _ _ => cases h
    | deleting _ _ => cases h
    | reading _ _ _ => cases h
  | resolving _ => cases h
  | closing _ _ => cases h
  | evicting _ _ _ => cases h
  | finished _ => cases h

end Task

/-! ## Tasks that are about one lease -/

/-- The task that the step of its lease operation makes of a task that has nothing else to do. -/
inductive Task.Follows : Task → Step LeaseOp LeaseOp.Ending → Task → Prop where
  | acquiring (a : Acquire) (place place' : Acquire.Place) :
    Follows (.acquiring a place) (.paused (.acquire a place')) (.acquiring a place')
  | acquired (a : Acquire) (place : Acquire.Place) (result : Except Error Bool) :
    Follows (.acquiring a place) (.done (.acquired result)) (.finished (.acquired result))
  | releasing (lease : LeaseId) (marker : Path) (strict : Bool) (place place' : Surrender.Place) :
    Follows (.releasing lease marker strict place) (.paused (.surrender ⟨lease, false⟩ place'))
      (.releasing lease marker strict place')
  | released (lease : LeaseId) (marker : Path) (strict : Bool) (place : Surrender.Place)
      (result : Result Bool) :
    Follows (.releasing lease marker strict place) (.done (.surrendered result))
      (.finished (Task.releaseResult marker strict (Release.result marker result)))
  | expiring (lease : LeaseId) (place place' : Surrender.Place) :
    Follows (.expiring lease place) (.paused (.surrender ⟨lease, true⟩ place'))
      (.expiring lease place')
  | expired (lease : LeaseId) (place : Surrender.Place) (result : Result Bool) :
    Follows (.expiring lease place) (.done (.surrendered result)) (.finished (.expired result))

/-- A task whose only business is a lease. -/
def Task.lone? : Task → Option LeaseOp
  | acquiring a place => some (.acquire a place)
  | releasing lease _ _ place => some (.surrender ⟨lease, false⟩ place)
  | expiring lease place => some (.surrender ⟨lease, true⟩ place)
  | _ => none

theorem Task.leaseOp_of_lone {t : Task} {d : LeaseOp} (h : t.lone? = some d) :
    t.leaseOp? = some d := by
  cases t with
  | acquiring a place => exact h
  | releasing lease marker strict place => exact h
  | expiring lease place => exact h
  | _ => cases h

theorem Task.follows_next? {t : Task} {d : LeaseOp} (h : t.lone? = some d) {s : Shared}
    {p : Pending (Shared → Task × Shared)} (hp : t.next? s = some p) (answer : p.request.Answer) :
    ∃ step, d.Moves s.writer s ⟨p.request, answer⟩ step (p.resume answer s).2 ∧
      t.Follows step (p.resume answer s).1 := by
  cases t with
  | acquiring a place =>
    cases h
    cases hp
    refine ⟨_, LeaseOp.moves_next s.writer s (.acquire a place) answer, ?_⟩
    simp only [LeaseOp.next, Pending.map]
    cases ((a.next s.writer place).resume answer s).1 with
    | paused place' => exact .acquiring a place place'
    | done result => exact .acquired a place result
  | releasing lease marker strict place =>
    cases h
    cases hp
    refine ⟨_, LeaseOp.moves_next s.writer s (.surrender ⟨lease, false⟩ place) answer, ?_⟩
    simp only [LeaseOp.next, Pending.map]
    cases ((Surrender.next ⟨lease, false⟩ place).resume answer s).1 with
    | paused place' => exact .releasing lease marker strict place place'
    | done result => exact .released lease marker strict place result
  | expiring lease place =>
    cases h
    cases hp
    refine ⟨_, LeaseOp.moves_next s.writer s (.surrender ⟨lease, true⟩ place) answer, ?_⟩
    simp only [LeaseOp.next, Pending.map]
    cases ((Surrender.next ⟨lease, true⟩ place).resume answer s).1 with
    | paused place' => exact .expiring lease place place'
    | done result => exact .expired lease place result
  | _ => cases h

/-! ## Beginnings -/

theorem Lease.state_fresh {target : Path} {l : Lease} (h : Lease.fresh target = .ok l) :
    l.state = .idle ∧ l.held = none := by
  unfold Lease.fresh at h
  split at h
  · cases h
    exact ⟨rfl, rfl⟩
  · cases h

/-- The marker of a lease is the one of its target. -/
theorem Lease.marker?_of_fresh {target : Path} {l : Lease} (h : Lease.fresh target = .ok l) :
    target.marker? = some l.marker := by
  unfold Lease.fresh at h
  split at h
  · next marker hmarker =>
    cases h
    exact hmarker
  · cases h

/-- A timer that is due was started. -/
theorem Expiry.armed_of_due {l : Lease} {now : Instant} (h : isDue l now = true) :
    ∃ deadline, l.timer = .armed deadline := by
  unfold isDue at h
  split at h
  · next deadline heq => exact ⟨deadline, heq⟩
  · cases h

/-- A new lease is acquired without further ado. -/
theorem Acquire.start_fresh {s : Shared} {target : Path} {lease : Lease} {a : Acquire}
    (h : Lease.fresh target = .ok lease) (ha : a.lease = (s.addLease lease).1) :
    a.start (s.addLease lease).2 = (.paused .resolving,
      (s.addLease lease).2.modifyLease a.lease fun l => { l with state := .acquiring }) := by
  have hfound : (s.addLease lease).2.lease? a.lease = some lease := by
    rw [ha]
    simp [Shared.addLease, Shared.lease?]
  unfold Acquire.start
  rw [hfound]
  exact if_pos (Lease.state_fresh h).1

/-- What can happen to the leases apart from the moves of lease operations, and the lease operation
that begins with it: nothing, a new lease, the acquisition of an idle lease or of a new one, the
giving up of an active lease, or a timer that comes too late. -/
inductive Begins (s : Shared) : Option LeaseOp → Shared → Prop where
  | nothing {s' : Shared} (agrees : s.Agrees s') : Begins s none s'
  | lease {s' : Shared} (target : Path) (lease : Lease) (fresh : Lease.fresh target = .ok lease)
      (agrees : (s.addLease lease).2.Agrees s') : Begins s none s'
  | attempt {s' : Shared} (a : Acquire) (l : Lease) (found : s.lease? a.lease = some l)
      (idle : l.state = .idle) (marker : a.marker = l.marker)
      (agrees : (s.modifyLease a.lease fun l => { l with state := .acquiring }).Agrees s') :
      Begins s (some (.acquire a .resolving)) s'
  | acquisition {s' : Shared} (target : Path) (lease : Lease) (a : Acquire)
      (fresh : Lease.fresh target = .ok lease) (id : a.lease = s.leases.length)
      (marker : a.marker = lease.marker)
      (agrees : ((s.addLease lease).2.modifyLease a.lease
        fun l => { l with state := .acquiring }).Agrees s') :
      Begins s (some (.acquire a .resolving)) s'
  | surrender {s' : Shared} (r : Surrender) (l : Lease) (timer : Lease → Timer)
      (found : s.lease? r.lease = some l) (active : l.state = .active)
      (agrees : (s.modifyLease r.lease
        fun l => { l with state := .released, timer := timer l }).Agrees s') :
      Begins s (some (.surrender r .taking)) s'
  | late {s' : Shared} (id : LeaseId) (l : Lease) (found : s.lease? id = some l)
      (inactive : l.state ≠ .active)
      (agrees : (s.modifyLease id fun l => { l with timer := .fired }).Agrees s')
      (armed : ∃ deadline, l.timer = .armed deadline) :
      Begins s none s'

namespace Begins

/-- What begins in a state that agrees with `s` begins in `s`. -/
theorem of_agrees {s s₁ s' : Shared} {d : Option LeaseOp} (h : s.Agrees s₁) (hb : Begins s₁ d s') :
    Begins s d s' := by
  have hfound : ∀ {id l}, s₁.lease? id = some l → s.lease? id = some l := by
    intro id l hl
    rw [Shared.lease?, h.leases] at hl
    exact hl
  -- whatever was done to the leases was done to the leases of both states
  have hagrees : ∀ {f : List Lease → List Lease} {t : Shared},
      t.leases = f s₁.leases → t.guards = s₁.guards →
        t.leases = f s.leases ∧ t.guards = s.guards := by
    intro f t hl hg
    exact ⟨by rw [hl, h.leases], by rw [hg, h.guards]⟩
  cases hb with
  | nothing agrees =>
    obtain ⟨hl, hg⟩ := hagrees (f := id) agrees.leases agrees.guards
    exact .nothing ⟨hl, hg⟩
  | lease target lease fresh agrees =>
    obtain ⟨hl, hg⟩ := hagrees (f := (· ++ [lease])) agrees.leases agrees.guards
    exact .lease target lease fresh ⟨hl, hg⟩
  | attempt a l found idle marker agrees =>
    obtain ⟨hl, hg⟩ := hagrees (f := (·.modify a.lease _)) agrees.leases agrees.guards
    exact .attempt a l (hfound found) idle marker ⟨hl, hg⟩
  | acquisition target lease a fresh id marker agrees =>
    obtain ⟨hl, hg⟩ := hagrees (f := fun ls => (ls ++ [lease]).modify a.lease _)
      agrees.leases agrees.guards
    exact .acquisition target lease a fresh (id.trans (by rw [h.leases])) marker ⟨hl, hg⟩
  | surrender r l timer found active agrees =>
    obtain ⟨hl, hg⟩ := hagrees (f := (·.modify r.lease _)) agrees.leases agrees.guards
    exact .surrender r l timer (hfound found) active ⟨hl, hg⟩
  | late id l found inactive agrees armed =>
    obtain ⟨hl, hg⟩ := hagrees (f := (·.modify id _)) agrees.leases agrees.guards
    exact .late id l (hfound found) inactive ⟨hl, hg⟩ armed

/-- What begins does not depend on what becomes of the rest of the state. -/
theorem agrees {s s₁ s' : Shared} {d : Option LeaseOp} (hb : Begins s d s₁) (h : s₁.Agrees s') :
    Begins s d s' := by
  have htrans : ∀ {t : Shared}, t.Agrees s₁ → t.Agrees s' := fun ht =>
    ⟨h.leases.trans ht.leases, h.guards.trans ht.guards⟩
  cases hb with
  | nothing agrees => exact .nothing (htrans agrees)
  | lease target lease fresh agrees => exact .lease target lease fresh (htrans agrees)
  | attempt a l found idle marker agrees => exact .attempt a l found idle marker (htrans agrees)
  | acquisition target lease a fresh id marker agrees =>
    exact .acquisition target lease a fresh id marker (htrans agrees)
  | surrender r l timer found active agrees =>
    exact .surrender r l timer found active (htrans agrees)
  | late id l found inactive agrees armed =>
    exact .late id l found inactive (htrans agrees) armed

theorem of_acquire_start {s : Shared} {a : Acquire} {l : Lease} (h : s.lease? a.lease = some l)
    (hm : a.marker = l.marker) :
    Begins s ((a.start s).1.place?.map (LeaseOp.acquire a)) (a.start s).2 := by
  unfold Acquire.start
  rw [h]
  simp only
  split
  · next hidle => exact .attempt a l h hidle hm (.refl _)
  · exact .nothing (.refl _)

theorem of_release_start {s : Shared} (id : LeaseId) :
    Begins s ((Release.start id s).1.place?.map (LeaseOp.surrender ⟨id, false⟩))
      (Release.start id s).2 := by
  unfold Release.start
  cases hl : s.lease? id with
  | none => exact .nothing (.refl _)
  | some l =>
    simp only
    split
    · next hactive => exact .surrender ⟨id, false⟩ l Lease.timer hl hactive (.refl _)
    · exact .nothing (.refl _)

/-- A write begins with the acquisition of a new lease, or without a lease operation. -/
theorem of_write_start (t : Write.Target) (options : Options) (lock : LockConfig) (s : Shared) :
    Begins s ((Write.start t options lock s).1.place?.bind Write.Place.leaseOp?)
      (Write.start t options lock s).2 := by
  unfold Write.start
  cases lock.scheme with
  | none => exact .nothing (.refl _)
  | marker =>
    cases hf : Lease.fresh t.file.path with
    | error e => exact .nothing (.refl _)
    | ok lease =>
      simp only
      rw [Write.leaseOp?_lockStep, Acquire.start_fresh hf rfl]
      exact .acquisition t.file.path lease _ hf rfl rfl (.refl _)

/-- A copy that has ended begins to give its lease up, if it has one. -/
theorem of_copied (t : Write.Target) (lease : Option LeaseId) (result : Result Nat) (s : Shared) :
    Begins s ((Write.copied t lease result s).1.place?.bind Write.Place.leaseOp?)
      (Write.copied t lease result s).2 := by
  cases lease with
  | none => exact .nothing (.refl _)
  | some id =>
    simp only [Write.copied]
    rw [Write.leaseOp?_unlocking]
    exact of_release_start id

theorem of_resolved (action : Action) (id : HandleId) (file : FileRef) (s : Shared) :
    Begins s ((Operation.resolved action id file s).1.place?.bind Operation.Place.leaseOp?)
      (Operation.resolved action id file s).2 := by
  unfold Operation.resolved
  cases s.handle? id with
  | none => exact .nothing (.refl _)
  | some h =>
    cases action with
    | probe => exact .nothing (.refl _)
    | read => exact .nothing (.refl _)
    | delete => exact .nothing (.refl _)
    | write mode =>
      simp only
      rw [Operation.leaseOp?_writeStep]
      exact of_write_start _ _ _ s

theorem of_resolveStep (action : Action) (id : HandleId)
    (step : Step Resolve (Except Error FileRef)) (s : Shared) :
    Begins s ((Operation.resolveStep action id step s).1.place?.bind Operation.Place.leaseOp?)
      (Operation.resolveStep action id step s).2 := by
  rcases step with resolve | (e | file)
  · exact .nothing (.refl _)
  · exact .nothing (.refl _)
  · exact of_resolved action id file s

theorem of_operation (id : HandleId) {step : Step Operation.Place (Except Error Effect)}
    {s s' : Shared} (h : Begins s (step.place?.bind Operation.Place.leaseOp?) s') :
    Begins s (Task.ofOperation id step s').1.leaseOp? (Task.ofOperation id step s').2 := by
  rw [Task.leaseOp?_ofOperation]
  exact h.agrees (Task.agrees_ofOperation id step s')

end Begins

/-- Whatever a task without a lease operation is answered, the leases stay as they are, or a lease
operation begins. -/
theorem Task.begins_of_no_leaseOp {t : Task} (h : t.leaseOp? = none) {s : Shared}
    {p : Pending (Shared → Task × Shared)} (hp : t.next? s = some p) (answer : p.request.Answer) :
    Begins s (p.resume answer s).1.leaseOp? (p.resume answer s).2 := by
  cases t with
  | acquiring a place => cases h
  | releasing lease marker strict place => cases h
  | expiring lease place => cases h
  | resolving r =>
    cases hp
    rcases answer with f | file <;> exact .nothing ⟨rfl, rfl⟩
  | operating id place =>
    cases hp
    refine Begins.of_operation id ?_
    cases place with
    | resolving action resolve =>
      have hs : s.Agrees (resolve.next.resume answer s).2 := by
        rcases answer with f | file <;> exact ⟨rfl, rfl⟩
      exact .of_agrees hs (.of_resolveStep action id _ _)
    | probing backend file => exact .nothing (.refl _)
    | deleting backend file => exact .nothing (.refl _)
    | reading backend file place =>
      simp only [Operation.next, Pending.map]
      generalize (Read.next backend file place).resume answer = step
      cases step <;> exact .nothing (.refl _)
    | writing t place =>
      cases place with
      | locking a place => cases h
      | unlocking lease marker place copied => cases h
      | copying lease place =>
        -- a copy that ends gives its lease up
        simp only [Operation.next, Write.next, Pending.map]
        rw [Operation.leaseOp?_writeStep]
        generalize (Copy.next t.backend t.file t.append place).resume answer = step
        cases step with
        | paused place => exact .nothing (.refl _)
        | done result => exact .of_copied t lease result s
  | closing id background =>
    cases hp
    exact .nothing (.refl _)
  | evicting id rest count =>
    cases hp
    cases rest <;> exact .nothing (.refl _)
  | finished result => cases hp

end FileGateway

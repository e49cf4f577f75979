import Mathlib.Logic.Equiv.Basic
import FileGateway.Proofs.Gateway.Scene
import FileGateway.Proofs.Lease.Lifecycle

/-!
# Lease numbers are names

Which number a lease has makes no difference: two scenes that differ by the numbers of their leases
only do the same, whatever happens in them, if whoever is asked about a lease in the one is asked
about it by its other number in the other one (`Scene.Renamed.run`). Their worlds stay equal, every
task asks for the same and ends with the same result, and the leases of the one are the leases of
the other.

Numbers that were not given out yet have to keep their meaning, since a new lease takes the next
one.
-/

namespace FileGateway

/-! ## Other numbers -/

section

variable (π : Equiv.Perm LeaseId)

/-- The same acquisition, of the lease under its other number. -/
def Acquire.rename (a : Acquire) : Acquire :=
  { a with lease := π a.lease }

def Write.Place.rename : Write.Place → Write.Place
  | locking a place => locking (a.rename π) place
  | copying lease place => copying (lease.map π) place
  | unlocking lease marker place copied => unlocking (π lease) marker place copied

def Operation.Place.rename : Operation.Place → Operation.Place
  | writing t place => writing t (place.rename π)
  | place => place

/-- The same task, about leases under their other numbers. -/
def Task.rename : Task → Task
  | acquiring a place => acquiring (a.rename π) place
  | releasing lease marker strict place => releasing (π lease) marker strict place
  | expiring lease place => expiring (π lease) place
  | operating handle place => operating handle (place.rename π)
  | t => t

def Call.rename : Call → Call
  | acquire lease backend options expiry => acquire (π lease) backend options expiry
  | release lease strict => release (π lease) strict
  | call => call

/-- The same event, about a lease under its other number. -/
def Event.rename : Event → Event
  | call c => call (c.rename π)
  | fire lease => fire (π lease)
  | e => e

/-- The one state has the leases of the other one, under other numbers, and is like it otherwise.
In which order timers were started is left out. -/
structure Shared.Renamed (s s' : Shared) : Prop where
  now : s'.now = s.now
  registry : s'.registry = s.registry
  guards : s'.guards = s.guards
  writer : s'.writer = s.writer
  lease : ∀ id, s'.lease? (π id) = s.lease? id
  made : s'.leases.length = s.leases.length
  fixed : ∀ id, s.leases.length ≤ id → π id = id

end

variable {π : Equiv.Perm LeaseId}

namespace Shared.Renamed

variable {s s' : Shared}

/-- A number that was given out stands for one that was given out. -/
theorem lt (h : Renamed π s s') {id : LeaseId} (hid : id < s.leases.length) :
    π id < s.leases.length := by
  by_contra hnot
  have hsame : π id = id := π.injective (h.fixed _ (Nat.le_of_not_lt hnot))
  rw [hsame] at hnot
  exact hnot hid

theorem modifyLease (h : Renamed π s s') (id : LeaseId) (f : Lease → Lease) :
    Renamed π (s.modifyLease id f) (s'.modifyLease (π id) f) where
  now := h.now
  registry := h.registry
  guards := h.guards
  writer := h.writer
  lease := by
    intro n
    rw [lease?_modifyLease, lease?_modifyLease, h.lease n]
    simp only [EmbeddingLike.apply_eq_iff_eq]
  made := by
    simp only [Shared.modifyLease, List.length_modify]
    exact h.made
  fixed := by
    simp only [Shared.modifyLease, List.length_modify]
    exact h.fixed

theorem noteTimer (h : Renamed π s s') (id n : LeaseId) :
    Renamed π (s.noteTimer id) (s'.noteTimer n) :=
  ⟨h.now, h.registry, h.guards, h.writer, h.lease, h.made, h.fixed⟩

theorem withGuards (h : Renamed π s s') (guards : Guards) :
    Renamed π { s with guards := guards } { s' with guards := guards } :=
  ⟨h.now, h.registry, rfl, h.writer, h.lease, h.made, h.fixed⟩

theorem withRegistry (h : Renamed π s s') (registry : Registry) :
    Renamed π { s with registry := registry } { s' with registry := registry } :=
  ⟨h.now, rfl, h.guards, h.writer, h.lease, h.made, h.fixed⟩

theorem addLease (h : Renamed π s s') (l : Lease) :
    Renamed π (s.addLease l).2 (s'.addLease l).2 where
  now := h.now
  registry := h.registry
  guards := h.guards
  writer := h.writer
  lease := by
    intro n
    simp only [Shared.addLease, Shared.lease?]
    rcases Nat.lt_or_ge n s.leases.length with hn | hn
    · rw [List.getElem?_append_left hn, List.getElem?_append_left (h.made ▸ h.lt hn)]
      exact h.lease n
    · rw [h.fixed n hn, List.getElem?_append_right hn, List.getElem?_append_right (h.made ▸ hn),
        h.made]
  made := by
    simp only [Shared.addLease, List.length_append, h.made]
  fixed := by
    intro n hn
    simp only [Shared.addLease, List.length_append] at hn
    exact h.fixed n (Nat.le_of_add_right_le hn)

end Shared.Renamed

/-! ## Activities -/

/-- Two paused activities that ask for the same, and go on alike with every answer. -/
inductive Pending.Alike {α β : Type} (R : α → β → Prop) : Pending α → Pending β → Prop where
  | mk (request : Request) (f : request.Answer → α) (g : request.Answer → β)
    (goOn : ∀ answer, R (f answer) (g answer)) : Alike R ⟨request, f⟩ ⟨request, g⟩

theorem Pending.Alike.map {α β α' β' : Type} {R : α → β → Prop} {R' : α' → β' → Prop}
    {p : Pending α} {q : Pending β} (h : Alike R p q) {f : α → α'} {g : β → β'}
    (hmap : ∀ a b, R a b → R' (f a) (g b)) : Alike R' (p.map f) (q.map g) := by
  cases h with
  | mk request resume resume' goOn => exact .mk _ _ _ fun answer => hmap _ _ (goOn answer)

/-- Two moves that take the same step in states that differ by the numbers of their leases. -/
def Move.Alike {τ ρ : Type} (π : Equiv.Perm LeaseId) (rename : τ → τ) (m m' : Move τ ρ) : Prop :=
  ∀ s s', s.Renamed π s' → (m' s').1 = (m s).1.map rename id ∧ (m s).2.Renamed π (m' s').2

namespace Acquire

theorem start_alike (a : Acquire) : Move.Alike π id a.start (a.rename π).start := by
  intro s s' h
  have hlease : s'.lease? (a.rename π).lease = s.lease? a.lease := h.lease a.lease
  simp only [start]
  rw [hlease]
  cases s.lease? a.lease with
  | none => exact ⟨rfl, h⟩
  | some l =>
    simp only
    split
    · exact ⟨rfl, h.modifyLease a.lease _⟩
    · exact ⟨rfl, h⟩

theorem waitAt_alike (place : Place) : Move.Alike π id (waitAt place) (waitAt place) :=
  fun _ _ h => ⟨rfl, h⟩

theorem leaveGuard_alike (bid : Bid) (place : Place) :
    Move.Alike π id (leaveGuard bid place) (leaveGuard bid place) := by
  intro s s' h
  refine ⟨rfl, ?_⟩
  simp only [leaveGuard, h.guards]
  exact h.withGuards _

theorem next_alike (a : Acquire) (writer : Diagnostics) (place : Place) :
    Pending.Alike (Move.Alike π id) (a.next writer place) ((a.rename π).next writer place) := by
  cases place with
  | resolving =>
    refine .mk _ _ _ fun answer => ?_
    rcases answer with f | marker
    · exact waitAt_alike _
    · intro s s' h
      simp only [enqueue, h.guards]
      exact ⟨rfl, h.withGuards _⟩
  | queued bid => exact .mk _ _ _ fun _ => waitAt_alike _
  | creating bid =>
    refine .mk _ _ _ fun answer => ?_
    rcases answer with f | (_ | _)
    · exact leaveGuard_alike bid _
    · exact leaveGuard_alike bid _
    · exact waitAt_alike _
  | probing bid =>
    refine .mk _ _ _ fun answer => ?_
    rcases answer with f | (_ | _)
    · exact leaveGuard_alike bid _
    · exact waitAt_alike _
    · exact leaveGuard_alike bid _
  | filling bid =>
    refine .mk _ _ _ fun answer => ?_
    rcases answer with f | _
    · exact leaveGuard_alike bid _
    · exact waitAt_alike _
  | opening bid =>
    refine .mk _ _ _ fun answer => ?_
    rcases answer with f | stream <;> exact waitAt_alike _
  | writing bid stream =>
    refine .mk _ _ _ fun answer => ?_
    rcases answer with f | _ <;> exact waitAt_alike _
  | finishing bid stream =>
    refine .mk _ _ _ fun answer => ?_
    rcases answer with f | _
    · exact waitAt_alike _
    · exact leaveGuard_alike bid _
  | cleaning bid failure => exact .mk _ _ _ fun _ => leaveGuard_alike bid _
  | holding bid => exact .mk _ _ _ fun _ s s' h => ⟨rfl, h.modifyLease a.lease _⟩
  | activating bid => exact .mk _ _ _ fun _ s s' h => ⟨rfl, h.modifyLease a.lease _⟩
  | arming =>
    refine .mk _ _ _ fun _ s s' h => ⟨rfl, ?_⟩
    simp only [arm, h.now]
    exact (h.modifyLease a.lease _).noteTimer _ _
  | retreating error => exact .mk _ _ _ fun _ s s' h => ⟨rfl, h.modifyLease a.lease _⟩

end Acquire

theorem Surrender.next_alike (lease : LeaseId) (forced : Bool) (place : Surrender.Place) :
    Pending.Alike (Move.Alike π id) (Surrender.next ⟨lease, forced⟩ place)
      (Surrender.next ⟨π lease, forced⟩ place) := by
  cases place with
  | taking =>
    refine .mk _ _ _ fun _ s s' h => ?_
    simp only [take]
    rw [h.lease lease]
    cases (s.lease? lease).bind Lease.held with
    | none => exact ⟨rfl, h⟩
    | some held => exact ⟨rfl, h.modifyLease lease _⟩
  | cancelling held => exact .mk _ _ _ fun _ s s' h => ⟨rfl, h.modifyLease lease _⟩
  | removing removal =>
    refine .mk _ _ _ fun answer s s' h => ⟨?_, h⟩
    generalize removal.next.resume answer = step
    cases step <;> rfl

theorem Release.start_alike (lease : LeaseId) :
    Move.Alike π id (start lease) (start (π lease)) := by
  intro s s' h
  simp only [start]
  rw [h.lease lease]
  cases s.lease? lease with
  | none => exact ⟨rfl, h⟩
  | some l =>
    simp only
    split
    · exact ⟨rfl, h.modifyLease lease _⟩
    · exact ⟨rfl, h⟩

theorem Expiry.start_alike {s s' : Shared} (h : s.Renamed π s') (lease : LeaseId) :
    (start (π lease) s').1 = (start lease s).1 ∧
      (start lease s).2.Renamed π (start (π lease) s').2 := by
  simp only [start]
  rw [h.lease lease]
  cases s.lease? lease with
  | none => exact ⟨rfl, h⟩
  | some l =>
    simp only
    split <;> exact ⟨rfl, h.modifyLease lease _⟩

/-! ## Operations -/

namespace Write

theorem lockStep_alike (a : Acquire) (step : Step Acquire.Place (Except Error Bool)) :
    lockStep (a.rename π) (step.map id id) = (lockStep a step).map (Place.rename π) id := by
  rcases step with place | (e | (_ | _)) <;> rfl

theorem copied_alike (t : Target) (lease : Option LeaseId) (result : Result Nat) :
    Move.Alike π (Place.rename π) (copied t lease result) (copied t (lease.map π) result) := by
  intro s s' h
  cases lease with
  | none => exact ⟨rfl, h⟩
  | some id =>
    obtain ⟨hstep, hs⟩ := Release.start_alike id s s' h
    simp only [copied, Option.map_some]
    rw [hstep, h.lease id]
    refine ⟨?_, hs⟩
    cases (Release.start id s).1 <;> rfl

/-- A write takes the next number for its lease, whatever the other leases are called. -/
theorem start_alike (t : Target) (options : Options) (lock : LockConfig) :
    Move.Alike π (Place.rename π) (start t options lock) (start t options lock) := by
  intro s s' h
  simp only [start]
  cases lock.scheme with
  | none => exact ⟨rfl, h⟩
  | marker =>
    cases Lease.fresh t.file.path with
    | error e => exact ⟨rfl, h⟩
    | ok lease =>
      have hnumber : π s.leases.length = s'.leases.length :=
        (h.fixed _ (Nat.le_refl _)).trans h.made.symm
      let a : Acquire := ⟨s.leases.length, lease.marker, t.backend, options, lock.expiry⟩
      have ha : (⟨s'.leases.length, lease.marker, t.backend, options, lock.expiry⟩ : Acquire) =
          a.rename π := by
        rw [← hnumber]
        rfl
      obtain ⟨hstep, hs⟩ := a.start_alike _ _ (h.addLease lease)
      simp only [Shared.addLease] at hstep hs ⊢
      rw [ha, hstep]
      exact ⟨lockStep_alike a _, hs⟩

theorem next_alike (t : Target) (writer : Diagnostics) (place : Place) :
    Pending.Alike (Move.Alike π (Place.rename π)) (next t writer place)
      (next t writer (place.rename π)) := by
  cases place with
  | locking a place =>
    simp only [Place.rename, next]
    refine (a.next_alike writer place).map ?_
    intro move move' halike s s' h
    obtain ⟨hstep, hs⟩ := halike s s' h
    simp only [hstep]
    exact ⟨lockStep_alike a _, hs⟩
  | copying lease place =>
    refine .mk _ _ _ fun answer => ?_
    simp only
    generalize (Copy.next t.backend t.file t.append place).resume answer = step
    cases step with
    | paused place => exact fun s s' h => ⟨rfl, h⟩
    | done result => exact copied_alike t lease result
  | unlocking lease marker place result =>
    simp only [Place.rename, next]
    refine (Surrender.next_alike lease false place).map ?_
    intro move move' halike s s' h
    obtain ⟨hstep, hs⟩ := halike s s' h
    simp only [hstep]
    refine ⟨?_, hs⟩
    cases (move s).1 <;> rfl

end Write

/-- Whatever is done about handles is done alike. -/
theorem Resolve.start_alike (handle : HandleId) (path : Path) :
    Move.Alike π id (start handle path) (start handle path) := by
  intro s s' h
  have hhandle : s'.handle? handle = s.handle? handle := by rw [Shared.handle?, h.registry]; rfl
  simp only [start]
  rw [hhandle, h.now]
  cases s.handle? handle with
  | none => exact ⟨rfl, h⟩
  | some found =>
    simp only
    split <;> exact ⟨rfl, h⟩

theorem Resolve.next_alike (r : Resolve) : Pending.Alike (Move.Alike π id) r.next r.next := by
  refine .mk _ _ _ fun answer s s' h => ?_
  rcases answer with f | file
  · refine ⟨rfl, h.now, ?_, h.guards, h.writer, h.lease, h.made, h.fixed⟩
    simp only [fail, Shared.modifyHandle, h.registry, h.now]
  · refine ⟨rfl, h.now, ?_, h.guards, h.writer, h.lease, h.made, h.fixed⟩
    simp only [succeed, Shared.modifyHandle, h.registry]

namespace Operation

theorem writeStep_alike (t : Write.Target) (step : Step Write.Place (Except Error Nat)) :
    writeStep t (step.map (Write.Place.rename π) id) =
      (writeStep t step).map (Place.rename π) id := by
  cases step <;> rfl

theorem resolved_alike (action : Action) (handle : HandleId) (file : FileRef) :
    Move.Alike π (Place.rename π) (resolved action handle file) (resolved action handle file) := by
  intro s s' h
  have hhandle : s'.handle? handle = s.handle? handle := by rw [Shared.handle?, h.registry]; rfl
  simp only [resolved]
  rw [hhandle]
  cases s.handle? handle with
  | none => exact ⟨rfl, h⟩
  | some found =>
    cases action with
    | write mode =>
      obtain ⟨hstep, hs⟩ := Write.start_alike ⟨found.backend, file, mode.append⟩ found.options
        (mode.lock.getD found.lock) s s' h
      simp only [hstep]
      exact ⟨writeStep_alike _ _, hs⟩
    | probe => exact ⟨rfl, h⟩
    | read => exact ⟨rfl, h⟩
    | delete => exact ⟨rfl, h⟩

theorem resolveStep_alike (action : Action) (handle : HandleId)
    (step : Step Resolve (Except Error FileRef)) :
    Move.Alike π (Place.rename π) (resolveStep action handle step)
      (resolveStep action handle step) := by
  rcases step with resolve | (e | file)
  · exact fun s s' h => ⟨rfl, h⟩
  · exact fun s s' h => ⟨rfl, h⟩
  · exact resolved_alike action handle file

theorem start_alike (action : Action) (handle : HandleId) (path : Path) :
    Move.Alike π (Place.rename π) (start action handle path) (start action handle path) := by
  intro s s' h
  obtain ⟨hstep, hs⟩ := Resolve.start_alike handle path s s' h
  have hsame : (Resolve.start handle path s').1 = (Resolve.start handle path s).1 := by
    rw [hstep]
    cases (Resolve.start handle path s).1 <;> rfl
  simp only [start, hsame]
  exact resolveStep_alike action handle _ _ _ hs

theorem next_alike (handle : HandleId) (writer : Diagnostics) (place : Place) :
    Pending.Alike (Move.Alike π (Place.rename π)) (next handle writer place)
      (next handle writer (place.rename π)) := by
  cases place with
  | resolving action resolve =>
    simp only [Place.rename, next]
    refine (resolve.next_alike (π := π)).map ?_
    intro move move' halike s s' h
    obtain ⟨hstep, hs⟩ := halike s s' h
    have hsame : (move' s').1 = (move s).1 := by
      rw [hstep]
      cases (move s).1 <;> rfl
    simp only [hsame]
    exact resolveStep_alike action handle _ _ _ hs
  | probing backend file => exact .mk _ _ _ fun answer s s' h => ⟨rfl, h⟩
  | deleting backend file => exact .mk _ _ _ fun answer s s' h => ⟨rfl, h⟩
  | reading backend file place =>
    refine .mk _ _ _ fun answer s s' h => ⟨?_, h⟩
    generalize (Read.next backend file place).resume answer = step
    cases step <;> rfl
  | writing t place =>
    simp only [Place.rename, next]
    refine (Write.next_alike t writer place).map ?_
    intro move move' halike s s' h
    obtain ⟨hstep, hs⟩ := halike s s' h
    simp only [hstep]
    exact ⟨writeStep_alike t _, hs⟩

end Operation

/-! ## Tasks -/

namespace Task

/-- Two ways to go on that lead to the same task, with other numbers for its leases. -/
def Alike (π : Equiv.Perm LeaseId) (go go' : Shared → Task × Shared) : Prop :=
  ∀ s s', s.Renamed π s' → (go' s').1 = (go s).1.rename π ∧ (go s).2.Renamed π (go' s').2

theorem ofAcquire_alike (a : Acquire) (step : Step Acquire.Place (Except Error Bool)) :
    ofAcquire (a.rename π) (step.map id id) = (ofAcquire a step).rename π := by
  cases step <;> rfl

theorem ofRelease_alike (lease : LeaseId) (marker : Path) (strict : Bool)
    (step : Step Surrender.Place (Except Error Bool)) :
    ofRelease (π lease) marker strict (step.map id id) =
      (ofRelease lease marker strict step).rename π := by
  cases step <;> rfl

theorem ofOperation_alike (handle : HandleId) {s s' : Shared} (h : s.Renamed π s')
    (step : Step Operation.Place (Except Error Effect)) :
    (ofOperation handle (step.map (Operation.Place.rename π) id) s').1 =
        (ofOperation handle step s).1.rename π ∧
      (ofOperation handle step s).2.Renamed π
        (ofOperation handle (step.map (Operation.Place.rename π) id) s').2 := by
  cases step with
  | paused place => exact ⟨rfl, h⟩
  | done result =>
    simp only [ofOperation, Step.map, h.registry]
    exact ⟨rfl, h.withRegistry _⟩

theorem next?_alike {s s' : Shared} (hshared : s.Renamed π s') (t : Task) :
    Option.Rel (Pending.Alike (Alike π)) (t.next? s) ((t.rename π).next? s') := by
  cases t with
  | acquiring a place =>
    simp only [rename, next?, hshared.writer]
    refine .some ((a.next_alike s.writer place).map ?_)
    intro move move' halike s s' h
    obtain ⟨hstep, hs⟩ := halike s s' h
    simp only [hstep]
    exact ⟨ofAcquire_alike a _, hs⟩
  | releasing lease marker strict place =>
    refine .some ((Surrender.next_alike lease false place).map ?_)
    intro move move' halike s s' h
    obtain ⟨hstep, hs⟩ := halike s s' h
    simp only [hstep]
    refine ⟨?_, hs⟩
    cases (move s).1 <;> rfl
  | expiring lease place =>
    refine .some ((Surrender.next_alike lease true place).map ?_)
    intro move move' halike s s' h
    obtain ⟨hstep, hs⟩ := halike s s' h
    simp only [hstep]
    refine ⟨?_, hs⟩
    cases (move s).1 <;> rfl
  | resolving r =>
    refine .some ((r.next_alike (π := π)).map ?_)
    intro move move' halike s s' h
    obtain ⟨hstep, hs⟩ := halike s s' h
    simp only [hstep]
    refine ⟨?_, hs⟩
    cases (move s).1 <;> rfl
  | operating handle place =>
    simp only [rename, next?, hshared.writer]
    refine .some ((Operation.next_alike handle s.writer place).map ?_)
    intro move move' halike s s' h
    obtain ⟨hstep, hs⟩ := halike s s' h
    simp only [hstep]
    exact ofOperation_alike handle hs _
  | closing handle background =>
    have hbackend : backendOf s' handle = backendOf s handle := by
      rw [backendOf, Shared.handle?, hshared.registry]
      rfl
    simp only [rename, next?]
    rw [hbackend]
    refine .some (.mk _ _ _ fun answer s s' h => ⟨?_, h⟩)
    simp only [closeResult, Shared.handle?, h.registry]
    rfl
  | evicting handle rest count =>
    have hbackend : backendOf s' handle = backendOf s handle := by
      rw [backendOf, Shared.handle?, hshared.registry]
      rfl
    simp only [rename, next?]
    rw [hbackend]
    refine .some (.mk _ _ _ fun answer s s' h => ⟨?_, h⟩)
    cases rest <;> rfl
  | finished result => exact .none

end Task

/-! ## Gateways -/

namespace Gateway

/-- The one gateway has the leases and the tasks of the other one, with other numbers for the
leases. -/
structure Renamed (π : Equiv.Perm LeaseId) (g g' : Gateway) : Prop where
  shared : g.shared.Renamed π g'.shared
  tasks : g'.tasks = g.tasks.map (Task.rename π)

namespace Renamed

variable {g g' : Gateway}

theorem task? (h : g.Renamed π g') (i : TaskId) :
    g'.task? i = (g.task? i).map (Task.rename π) := by
  rw [Gateway.task?, h.tasks, List.getElem?_map]
  rfl

/-- Every task ends with the same result. -/
theorem result? (h : g.Renamed π g') (i : TaskId) : g'.result? i = g.result? i := by
  rw [Gateway.result?, h.task? i, Gateway.result?]
  cases g.task? i with
  | none => rfl
  | some t => cases t <;> rfl

theorem add {s s' : Shared} {t t' : Task} (h : g.Renamed π g') (hs : s.Renamed π s')
    (ht : t' = t.rename π) : (g.add t s).2.Renamed π (g'.add t' s').2 := by
  refine ⟨hs, ?_⟩
  simp only [Gateway.add, List.map_append, List.map_cons, List.map_nil, h.tasks, ht]

theorem withShared {s s' : Shared} (h : g.Renamed π g') (hs : s.Renamed π s') :
    Renamed π { g with shared := s } { g' with shared := s' } :=
  ⟨hs, h.tasks⟩

theorem marker (h : g.Renamed π g') (id : LeaseId) :
    ((g'.shared.lease? (π id)).map Lease.marker).getD default =
      ((g.shared.lease? id).map Lease.marker).getD default := by
  rw [h.shared.lease id]

theorem operate (h : g.Renamed π g') (deployment : Deployment) (key : ConnectionKey)
    (action : Action) (path : Path) :
    (g.operate deployment key action path).2.Renamed π
      (g'.operate deployment key action path).2 := by
  simp only [Gateway.operate]
  rw [h.shared.registry]
  have hs := h.shared.withRegistry (deployment.provide g.shared.registry key).registry
  split
  · exact h.add hs rfl
  · next handle _ =>
    obtain ⟨hstep, hs⟩ := Operation.start_alike action handle path _ _ hs
    rw [hstep]
    obtain ⟨htask, hs⟩ := Task.ofOperation_alike handle hs (Operation.start action handle path
      { g.shared with registry := (deployment.provide g.shared.registry key).registry }).1
    exact h.add hs htask

/-- Whatever is called for a lease in the one gateway is called for it by its other number in the
other one. -/
theorem call (h : g.Renamed π g') (call : Call) :
    (g.call call).Renamed π (g'.call (call.rename π)) := by
  cases call with
  | addLease target =>
    simp only [Call.rename, Gateway.call, addLease]
    cases Lease.fresh target with
    | error e => exact h
    | ok lease => exact h.withShared (h.shared.addLease lease)
  | acquire lease backend options expiry =>
    simp only [Call.rename, Gateway.call, acquire]
    rw [h.marker lease]
    let a : Acquire :=
      ⟨lease, ((g.shared.lease? lease).map Lease.marker).getD default, backend, options, expiry⟩
    obtain ⟨hstep, hs⟩ := a.start_alike _ _ h.shared
    refine h.add hs ?_
    exact (congrArg (Task.ofAcquire (a.rename π)) hstep).trans (Task.ofAcquire_alike a _)
  | release lease strict =>
    simp only [Call.rename, Gateway.call, release]
    rw [h.marker lease]
    obtain ⟨hstep, hs⟩ := Release.start_alike lease _ _ h.shared
    refine h.add hs ?_
    rw [hstep]
    exact Task.ofRelease_alike lease _ strict _
  | resolve handle path =>
    simp only [Call.rename, Gateway.call, resolve]
    obtain ⟨hstep, hs⟩ := Resolve.start_alike handle path _ _ h.shared
    refine h.add hs ?_
    rw [hstep]
    cases (Resolve.start handle path g.shared).1 <;> rfl
  | operate deployment key action path => exact h.operate deployment key action path
  | create creation =>
    simp only [Call.rename, Gateway.call, create]
    cases creation.discarded with
    | none => exact h.withShared (h.shared.withRegistry creation.registry)
    | some handle => exact h.add (h.shared.withRegistry creation.registry) rfl
  | close handle => exact h.add h.shared rfl
  | shutdown space =>
    simp only [Call.rename, Gateway.call, shutdown]
    rw [h.shared.registry]
    refine h.add (h.shared.withRegistry _) ?_
    cases (g.shared.registry.evict space).1 <;> rfl

theorem fire (h : g.Renamed π g') (id : LeaseId) : (g.fire id).Renamed π (g'.fire (π id)) := by
  obtain ⟨hstarted, hs⟩ := Expiry.start_alike h.shared id
  simp only [Gateway.fire]
  rw [h.shared.lease id, h.shared.now]
  cases g.shared.lease? id with
  | none => exact h
  | some l =>
    simp only
    split
    · revert hstarted hs
      generalize Expiry.start id g.shared = started
      generalize Expiry.start (π id) g'.shared = started'
      obtain ⟨active, s⟩ := started
      obtain ⟨active', s'⟩ := started'
      rintro rfl hs
      cases active' with
      | false => exact h.withShared hs
      | true => exact h.add hs rfl
    · exact h

theorem advanceTo (h : g.Renamed π g') (now : Instant) :
    (g.advanceTo now).Renamed π (g'.advanceTo now) := by
  refine h.withShared ?_
  have hs := h.shared
  exact ⟨congrArg (max · now) hs.now, hs.registry, hs.guards, hs.writer, hs.lease, hs.made,
    hs.fixed⟩

/-- A task asks for the same in both gateways, and every answer leads to the same. -/
theorem pending? (h : g.Renamed π g') (i : TaskId) :
    Option.Rel (Pending.Alike (Renamed π)) (g.pending? i) (g'.pending? i) := by
  simp only [Gateway.pending?]
  rw [h.task? i]
  cases ht : g.task? i with
  | none => exact .none
  | some t =>
    have halike := t.next?_alike h.shared
    simp only [Option.map_some, Option.bind_some]
    revert halike
    generalize t.next? g.shared = p
    generalize (t.rename π).next? g'.shared = q
    rintro (hpq | _)
    · cases hpq with
      | mk request resume resume' goOn =>
        have hopen : isOpen g'.shared request = isOpen g.shared request := by
          cases request <;> simp only [isOpen, h.shared.guards]
        simp only [hopen]
        split
        · refine .some (.mk _ _ _ fun answer => ?_)
          obtain ⟨htask, hs⟩ := goOn answer _ _ h.shared
          refine ⟨hs, ?_⟩
          simp only [htask, h.tasks, List.map_set]
        · exact .none
    · exact .none

end Renamed

end Gateway

/-! ## Scenes -/

namespace Scene

variable {ε : Type} {w : World ε} {c c' : Scene ε}

/-- The one scene is the other one, with other numbers for the leases: its world is in the same
state, and has given the same answers. -/
structure Renamed (π : Equiv.Perm LeaseId) (c c' : Scene ε) : Prop where
  gateway : c.gateway.Renamed π c'.gateway
  world : c'.world = c.world
  inbox : c'.inbox = c.inbox

theorem Renamed.serve (h : c.Renamed π c') (i : TaskId) :
    (c.serve w i).Renamed π (c'.serve w i) := by
  simp only [Scene.serve]
  rw [h.gateway.task? i, h.world, h.inbox]
  have halike := h.gateway.pending? i
  revert halike
  generalize c.gateway.pending? i = p
  generalize c'.gateway.pending? i = q
  rintro (hpq | _)
  · cases hpq with
    | mk request resume resume' goOn =>
      cases c.gateway.task? i with
      | none => exact h
      | some t =>
        cases c.inbox i with
        | none => exact ⟨h.gateway, rfl, rfl⟩
        | some reply => exact h
  · cases c.gateway.task? i <;> exact h

theorem Renamed.deliver (h : c.Renamed π c') (i : TaskId) :
    (c.deliver i).Renamed π (c'.deliver i) := by
  simp only [Scene.deliver]
  rw [h.gateway.task? i, h.inbox]
  have halike := h.gateway.pending? i
  revert halike
  generalize c.gateway.pending? i = p
  generalize c'.gateway.pending? i = q
  rintro (hpq | _)
  · cases hpq with
    | mk request resume resume' goOn =>
      cases c.gateway.task? i with
      | none => exact h
      | some t =>
        cases c.inbox i with
        | none => exact h
        | some reply =>
          obtain ⟨request', answer⟩ := reply
          simp only [Option.map_some]
          split
          · next heq =>
            subst heq
            exact ⟨goOn answer, h.world, rfl⟩
          · exact h
  · cases c.gateway.task? i <;> exact h

theorem Renamed.step (h : c.Renamed π c') (e : Event) :
    (c.step w e).Renamed π (c'.step w (e.rename π)) := by
  cases e with
  | call call => exact ⟨h.gateway.call call, h.world, h.inbox⟩
  | fire lease => exact ⟨h.gateway.fire lease, h.world, h.inbox⟩
  | advance now => exact ⟨h.gateway.advanceTo now, h.world, h.inbox⟩
  | serve i => exact h.serve i
  | deliver i => exact h.deliver i

/-- Scenes that differ by the numbers of their leases only go on to do so, whatever happens. -/
theorem Renamed.run (h : c.Renamed π c') (events : List Event) :
    (c.run w events).Renamed π (c'.run w (events.map (Event.rename π))) := by
  induction events generalizing c c' with
  | nil => exact h
  | cons e events ih => exact ih (h.step e)

end Scene

end FileGateway

import FileGateway.Gateway.Basic

/-!
# What tasks leave alone

Tasks change leases, timers and guards, and of a handle its options and its health. Whatever else
there is of the shared state lasts: what is written into markers, which handles are registered, and
what a handle was built with. A part of the shared state in which none of those changes shows is
`Shared.Lasting`, and no task changes it, whatever it is answered (`Shared.Lasting.next?`).

Leases are acquired and given up without any change to a handle, so this much of a task also leaves
alone what tells of handles: such a part is `Shared.Detached`.
-/

namespace FileGateway

/-- How a change of one entry shows in what is told of all entries. -/
theorem map_modify {α β : Type} {change : α → α} {f : α → β} {change' : β → β}
    (h : ∀ a, f (change a) = change' (f a)) (list : List α) (i : Nat) :
    (list.modify i change).map f = (list.map f).modify i change' := by
  refine List.ext_getElem? fun j => ?_
  rw [List.getElem?_map, List.getElem?_modify, List.getElem?_modify, List.getElem?_map]
  cases list[j]? with
  | none => rfl
  | some a =>
    by_cases hij : i = j
    · simp [hij, h]
    · simp [hij]

namespace Shared

variable {α : Type} {part : Shared → α}

/-- A part of the shared state in which neither leases, timers nor guards show. -/
structure Detached (part : Shared → α) : Prop where
  leases : ∀ s leases, part { s with leases := leases } = part s
  timers : ∀ s timers, part { s with timers := timers } = part s
  guards : ∀ s guards, part { s with guards := guards } = part s

/-- A part of the shared state in which the options and the health of handles do not show either. -/
structure Lasting (part : Shared → α) : Prop extends Detached part where
  handles : ∀ s id change,
    (∀ h, ∃ options modified policy,
      change h = { h with options := options, modified := modified, policy := policy }) →
    part (s.modifyHandle id change) = part s

namespace Detached

/-! ## Leases -/

theorem acquire_start (h : Detached part) (a : Acquire) (s : Shared) :
    part (a.start s).2 = part s := by
  unfold Acquire.start
  split
  · rfl
  · split
    · exact h.leases s _
    · rfl

theorem leaveGuard (h : Detached part) (bid : Acquire.Bid) (place : Acquire.Place) (s : Shared) :
    part (Acquire.leaveGuard bid place s).2 = part s :=
  h.guards s _

theorem acquire_next (h : Detached part) (a : Acquire) (writer : Diagnostics)
    (place : Acquire.Place) (answer : (a.next writer place).request.Answer) (s : Shared) :
    part ((a.next writer place).resume answer s).2 = part s := by
  cases place with
  | resolving =>
    rcases answer with f | marker
    · rfl
    · exact h.guards s _
  | creating bid =>
    rcases answer with f | (_ | _)
    · exact h.leaveGuard bid _ s
    · exact h.leaveGuard bid _ s
    · rfl
  | probing bid =>
    rcases answer with f | (_ | _)
    · exact h.leaveGuard bid _ s
    · rfl
    · exact h.leaveGuard bid _ s
  | filling bid =>
    rcases answer with f | _
    · exact h.leaveGuard bid _ s
    · rfl
  | opening bid => rcases answer with f | _ <;> rfl
  | writing bid stream => rcases answer with f | _ <;> rfl
  | finishing bid stream =>
    rcases answer with f | _
    · rfl
    · exact h.leaveGuard bid _ s
  | queued bid => rfl
  | cleaning bid failure => exact h.leaveGuard bid _ s
  | holding bid => exact h.leases s _
  | activating bid => exact h.leases s _
  | arming => exact (h.timers _ _).trans (h.leases s _)
  | retreating error => exact h.leases s _

theorem surrender_next (h : Detached part) (r : Surrender) (place : Surrender.Place)
    (answer : (r.next place).request.Answer) (s : Shared) :
    part ((r.next place).resume answer s).2 = part s := by
  cases place with
  | taking =>
    simp only [Surrender.next, Surrender.take]
    split
    · rfl
    · exact h.leases s _
  | cancelling held => exact h.leases s _
  | removing removal => rfl

theorem release_start (h : Detached part) (id : LeaseId) (s : Shared) :
    part (Release.start id s).2 = part s := by
  unfold Release.start
  split
  · rfl
  · split
    · exact h.leases s _
    · rfl

theorem expiry_start (h : Detached part) (id : LeaseId) (s : Shared) :
    part (Expiry.start id s).2 = part s := by
  unfold Expiry.start
  split
  · rfl
  · split
    · exact h.leases s _
    · exact h.leases s _

/-- Nor does the timer of a lease change any such part. -/
theorem fire (h : Detached part) (g : Gateway) (id : LeaseId) :
    part (g.fire id).shared = part g.shared := by
  unfold Gateway.fire
  split
  · rfl
  · split
    · have hstart := h.expiry_start id g.shared
      split
      · next s heq => exact (congrArg (part ∘ Prod.snd) heq).symm.trans hstart
      · next s heq => exact (congrArg (part ∘ Prod.snd) heq).symm.trans hstart
    · rfl

/-! ## Writes -/

theorem write_start (h : Detached part) (t : Write.Target) (options : Options) (lock : LockConfig)
    (s : Shared) : part (Write.start t options lock s).2 = part s := by
  unfold Write.start
  cases lock.scheme with
  | none => rfl
  | marker =>
    cases Lease.fresh t.file.path with
    | error e => rfl
    | ok lease => exact (h.acquire_start _ _).trans (h.leases s _)

theorem write_copied (h : Detached part) (t : Write.Target) (lease : Option LeaseId)
    (result : Result Nat) (s : Shared) : part (Write.copied t lease result s).2 = part s := by
  cases lease with
  | none => rfl
  | some id => exact h.release_start id s

theorem write_next (h : Detached part) (t : Write.Target) (writer : Diagnostics)
    (place : Write.Place) (answer : (Write.next t writer place).request.Answer) (s : Shared) :
    part ((Write.next t writer place).resume answer s).2 = part s := by
  cases place with
  | locking a place => exact h.acquire_next a writer place answer s
  | copying lease place =>
    simp only [Write.next, Pending.map]
    generalize (Copy.next t.backend t.file t.append place).resume answer = step
    cases step with
    | paused place' => rfl
    | done result => exact h.write_copied t lease result s
  | unlocking lease marker place copied => exact h.surrender_next ⟨lease, false⟩ place answer s

end Detached

namespace Lasting

/-! ## Operations -/

theorem resolve_start (id : HandleId) (path : Path) (s : Shared) :
    (Resolve.start id path s).2 = s := by
  unfold Resolve.start
  split
  · rfl
  · split <;> rfl

theorem resolve_next (h : Lasting part) (r : Resolve) (answer : r.next.request.Answer)
    (s : Shared) : part (r.next.resume answer s).2 = part s := by
  rcases answer with f | file
  · exact h.handles s _ _ fun handle => ⟨_, _, _, rfl⟩
  · exact h.handles s _ _ fun handle => ⟨_, _, _, rfl⟩

theorem resolved (h : Lasting part) (action : Action) (id : HandleId) (file : FileRef)
    (s : Shared) : part (Operation.resolved action id file s).2 = part s := by
  unfold Operation.resolved
  cases s.handle? id with
  | none => rfl
  | some handle =>
    cases action with
    | write mode => exact h.write_start _ _ _ s
    | _ => rfl

theorem resolveStep (h : Lasting part) (action : Action) (id : HandleId)
    (step : Step Resolve (Except Error FileRef)) (s : Shared) :
    part (Operation.resolveStep action id step s).2 = part s := by
  rcases step with resolve | (e | file)
  · rfl
  · rfl
  · exact h.resolved action id file s

theorem operation_start (h : Lasting part) (action : Action) (id : HandleId) (path : Path)
    (s : Shared) : part (Operation.start action id path s).2 = part s :=
  (h.resolveStep action id _ _).trans (congrArg part (resolve_start id path s))

theorem operation_next (h : Lasting part) (id : HandleId) (writer : Diagnostics)
    (place : Operation.Place) (answer : (Operation.next id writer place).request.Answer)
    (s : Shared) : part ((Operation.next id writer place).resume answer s).2 = part s := by
  cases place with
  | resolving action resolve =>
    exact (h.resolveStep action id _ _).trans (h.resolve_next resolve answer s)
  | writing t place => exact h.write_next t writer place answer s
  | _ => rfl

/-- An operation that ends puts the options of its handle back. -/
theorem ofOperation (h : Lasting part) (id : HandleId)
    (step : Step Operation.Place (Except Error Effect)) (s : Shared) :
    part (Task.ofOperation id step s).2 = part s := by
  cases step with
  | paused place => rfl
  | done result =>
    refine h.handles s id (fun handle => handle.reset.2) fun handle => ?_
    unfold Handle.reset
    split
    · exact ⟨_, _, _, rfl⟩
    · exact ⟨_, _, _, rfl⟩

/-! ## Tasks -/

/-- Whatever a task is answered, what lasts is as before. -/
theorem next? (h : Lasting part) {t : Task} {s₀ : Shared} {p : Pending (Shared → Task × Shared)}
    (hp : t.next? s₀ = some p) (answer : p.request.Answer) (s : Shared) :
    part (p.resume answer s).2 = part s := by
  cases t with
  | acquiring a place =>
    cases hp
    exact h.acquire_next a _ place answer s
  | releasing lease marker strict place =>
    cases hp
    exact h.surrender_next _ place answer s
  | expiring lease place =>
    cases hp
    exact h.surrender_next _ place answer s
  | resolving r =>
    cases hp
    exact h.resolve_next r answer s
  | operating id place =>
    cases hp
    exact (h.ofOperation id _ _).trans (h.operation_next id _ place answer s)
  | closing id background =>
    cases hp
    rfl
  | evicting id rest count =>
    cases hp
    rfl
  | finished result => cases hp

/-- An operation that starts may check a connection out, and changes nothing else of what lasts. -/
theorem operate (h : Lasting part) (g : Gateway) (d : Deployment) (key : ConnectionKey)
    (action : Action) (path : Path) :
    part (g.operate d key action path).2.shared =
      part { g.shared with registry := (d.provide g.shared.registry key).registry } := by
  simp only [Gateway.operate]
  cases (d.provide g.shared.registry key).handle with
  | error e => rfl
  | ok id => exact (h.ofOperation id _ _).trans (h.operation_start action id path _)

end Lasting

end Shared

end FileGateway

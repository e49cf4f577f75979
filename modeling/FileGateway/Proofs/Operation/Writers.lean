import FileGateway.Proofs.Lease.Exclusion
import FileGateway.Proofs.Operation.Write

/-!
# The writes of a scene

How the writes of a scene change when only operations run in it, that is, when no lease is acquired
or released on its own account, and no timer gives a lease up.

`Scene.Unfolds` lists what can happen, and `Scene.unfolds_of_changes` says that nothing else does:
the world acts on a request, a write goes on, a write begins, or something happens that leaves all
writes and their leases alone.
-/

namespace FileGateway

/-! ## Writes -/

namespace Gateway

/-- The write that a task is about. -/
def write? (g : Gateway) (id : TaskId) : Option (Write.Target × Write.Place) :=
  (g.task? id).bind Task.write?

/-- All tasks are operations. -/
def OnlyOperations (g : Gateway) : Prop :=
  ∀ t ∈ g.tasks, t.isOperation = true

instance (g : Gateway) : Decidable g.OnlyOperations :=
  inferInstanceAs (Decidable (∀ t ∈ g.tasks, t.isOperation = true))

theorem OnlyOperations.task {g : Gateway} (h : g.OnlyOperations) {id : TaskId} {t : Task}
    (ht : g.task? id = some t) : t.isOperation = true :=
  h t (List.mem_of_getElem? ht)

theorem write?_eq {g : Gateway} {id : TaskId} {t : Task} (h : g.task? id = some t) :
    g.write? id = t.write? := by
  rw [write?, h]
  rfl

theorem write?_set {g : Gateway} {id : TaskId} {t : Task} (h : g.task? id = some t) (task : Task)
    (s : Shared) : write? ⟨s, g.tasks.set id task⟩ = Function.update g.write? id task.write? :=
  bind_task? Task.write? (task?_set h task s)

theorem Grows.task {g g' : Gateway} (h : g.Grows g') {id : TaskId} {t : Task}
    (ht : g.task? id = some t) : g'.task? id = some t := by
  rcases h with htasks | ⟨t', htasks, -⟩
  · rw [task?, htasks]
    exact ht
  · have hne : id ≠ g.tasks.length := Nat.ne_of_lt (List.getElem?_eq_some_iff.1 ht).1
    rw [task?_concat htasks, Function.update_of_ne hne]
    exact ht

theorem Grows.write? {g g' : Gateway} (h : g.Grows g') : g'.write? = g.write? := by
  rcases h with htasks | ⟨t, htasks, hwrite⟩
  · funext n
    rw [Gateway.write?, Gateway.write?, task?, task?, htasks]
  · have hold : g.write? g.tasks.length = none := by
      rw [Gateway.write?, task?_length]
      rfl
    have hnew := bind_task? Task.write? (task?_concat htasks)
    rw [hwrite, ← hold] at hnew
    exact hnew.trans (Function.update_eq_self g.tasks.length g.write?)

/-- An operation that starts has no lease operation yet. -/
theorem Grows.idle {g g' : Gateway} (h : g.Grows g') (ho : g'.OnlyOperations) :
    g'.leaseOps g.tasks.length = none := by
  rcases h with htasks | ⟨t, htasks, hwrite⟩
  · rw [leaseOps, task?, htasks]
    exact g.leaseOps_length
  · have ht : g'.task? g.tasks.length = some t := by
      rw [task?_concat htasks, Function.update_self]
    rw [leaseOps, ht]
    exact Task.leaseOp?_of_operation (ho.task ht) hwrite

theorem write?_task {g : Gateway} {id : TaskId} {target : Write.Target} {place : Write.Place}
    (h : g.write? id = some (target, place)) :
    ∃ handle, g.task? id = some (.operating handle (.writing target place)) := by
  obtain ⟨t, ht, hw⟩ := Option.bind_eq_some_iff.1 h
  obtain ⟨handle, rfl⟩ := Task.eq_of_write? hw
  exact ⟨handle, ht⟩

/-- The lease operation of a write is the lease operation of its task. -/
theorem leaseOps_of_write {g : Gateway} {id : TaskId} {target : Write.Target} {place : Write.Place}
    (h : g.write? id = some (target, place)) : g.leaseOps id = place.leaseOp? := by
  obtain ⟨handle, ht⟩ := write?_task h
  rw [leaseOps, ht]
  rfl

end Gateway

theorem Task.write?_ofOperation (id : HandleId) (target : Write.Target)
    (step : Step Write.Place (Except Error Nat)) (s : Shared) :
    (Task.ofOperation id (Operation.writeStep target step) s).1.write? =
      step.place?.map fun place => (target, place) := by
  cases step <;> rfl

/-- A task that is about a lease on its own account is never an operation. -/
theorem Task.Follows.not_operation {t t' : Task} {step : Step LeaseOp LeaseOp.Ending}
    (h : t.Follows step t') : t'.isOperation = false := by
  cases h with
  | released lease marker strict place result => cases strict <;> rfl
  | _ => rfl

theorem Task.lone_of_not_operation {t : Task} (h : t.isOperation = false)
    (hf : ∀ result, t ≠ .finished result) : ∃ d, t.lone? = some d := by
  cases t with
  | acquiring a place => exact ⟨_, rfl⟩
  | releasing lease marker strict place => exact ⟨_, rfl⟩
  | expiring lease place => exact ⟨_, rfl⟩
  | finished result => exact absurd rfl (hf result)
  | _ => cases h

/-! ## Leases that stay as they are -/

/-- A lease is in the same stage in both states, and holds the same. -/
def Shared.Keeps (s s' : Shared) (id : LeaseId) : Prop :=
  ∀ l, s.lease? id = some l → ∃ l', s'.lease? id = some l' ∧ l'.state = l.state ∧ l'.held = l.held

namespace Shared.Keeps

theorem of_agrees {s s' : Shared} (h : s.Agrees s') (id : LeaseId) : s.Keeps s' id :=
  fun l hl => ⟨l, (h.lease? id).trans hl, rfl, rfl⟩

theorem of_leases {s s' : Shared} (h : s'.leases = s.leases) (id : LeaseId) : s.Keeps s' id :=
  fun l hl => ⟨l, by rw [lease?, h]; exact hl, rfl, rfl⟩

/-- A change of one lease keeps another one, and so does a change of its timer only. -/
theorem modify {s s' : Shared} {id n : LeaseId} {f : Lease → Lease}
    (h : s'.leases = s.leases.modify n f)
    (hf : n = id → ∀ l, (f l).state = l.state ∧ (f l).held = l.held) : s.Keeps s' id := by
  intro l hl
  have hl' : s'.lease? id = if n = id then (s.lease? id).map f else s.lease? id := by
    rw [lease?, h]
    exact lease?_modifyLease s n id f
  rw [hl', hl]
  split
  · next hn => exact ⟨f l, rfl, hf hn l⟩
  · exact ⟨l, rfl, rfl, rfl⟩

/-- A lease that is made keeps those that there are. -/
theorem append {s s' : Shared} {lease : Lease} (h : s'.leases = s.leases ++ [lease])
    (id : LeaseId) : s.Keeps s' id := by
  intro l hl
  have hlt : id < s.leases.length := (List.getElem?_eq_some_iff.1 hl).1
  refine ⟨l, ?_, rfl, rfl⟩
  rw [lease?, h, List.getElem?_append_left hlt]
  exact hl

/-- What begins without a lease operation keeps every lease. -/
theorem of_begins {s s' : Shared} (h : Begins s none s') (id : LeaseId) : s.Keeps s' id := by
  cases h with
  | nothing agrees => exact of_agrees agrees id
  | lease target lease fresh agrees => exact append agrees.leases id
  | late n l found inactive agrees => exact modify agrees.leases fun _ _ => ⟨rfl, rfl⟩

end Shared.Keeps

/-! ## Changes -/

namespace Scene

variable {ε : Type} {w : World ε} {c c' : Scene ε}

/-- No write and no lease of a write is concerned, and what is finished stays finished. -/
structure Rests (c c' : Scene ε) : Prop where
  world : c'.world = c.world
  write? : c'.gateway.write? = c.gateway.write?
  kept : ∀ id, c.gateway.shared.Keeps c'.gateway.shared id
  finished : ∀ id result, c.gateway.result? id = some result → c'.gateway.result? id = some result
  inbox : ∀ id, c'.inbox id = c.inbox id ∨ c.gateway.write? id = none ∧ c'.inbox id = none
  history : c'.history = c.history ∨
    ∃ id t reply, t.write? = none ∧ c'.history = .resumed id t reply :: c.history

/-- What can happen to the writes of a scene in which only operations run. -/
inductive Unfolds (w : World ε) (c : Scene ε) : Scene ε → Prop where
  | rests (c' : Scene ε) (rests : c.Rests c') : Unfolds w c c'
  | serves (id : TaskId) (t : Task) (p : Pending Gateway) (task : c.gateway.task? id = some t)
      (pending : c.gateway.pending? id = some p) (inbox : c.inbox id = none) :
    Unfolds w c
      { c with
        world := (w.answer id p.request c.world).2
        inbox := Function.update c.inbox id (some ⟨p.request, (w.answer id p.request c.world).1⟩)
        history := .served id t ⟨p.request, (w.answer id p.request c.world).1⟩ :: c.history }
  | goes (id : TaskId) (handle : HandleId) (target : Write.Target) (place : Write.Place)
      (reply : Reply) (step : Step Write.Place (Except Error Nat)) (s s' : Shared) (t' : Task)
      (task : c.gateway.task? id = some (.operating handle (.writing target place)))
      (inbox : c.inbox id = some reply)
      (move : Write.Goes c.gateway.shared.writer target c.gateway.shared place reply step s)
      (next : t' = (Task.ofOperation handle (Operation.writeStep target step) s).1)
      (agrees : s.Agrees s') :
    Unfolds w c
      { c with
        gateway := ⟨s', c.gateway.tasks.set id t'⟩
        inbox := Function.update c.inbox id none
        history := .resumed id (.operating handle (.writing target place)) reply :: c.history }
  | begins (id : TaskId) (t : Task) (reply : Reply) (handle : HandleId) (target : Write.Target)
      (place : Write.Place) (s : Shared) (task : c.gateway.task? id = some t)
      (unwritten : t.write? = none) (unfinished : ∀ result, t ≠ .finished result)
      (begins : Write.Begins c.gateway.shared.leases target place s.leases) :
    Unfolds w c
      { c with
        gateway := ⟨s, c.gateway.tasks.set id (.operating handle (.writing target place))⟩
        inbox := Function.update c.inbox id none
        history := .resumed id t reply :: c.history }

theorem Rests.refl (c : Scene ε) : c.Rests c where
  world := rfl
  write? := rfl
  kept := .of_leases rfl
  finished := fun _ _ h => h
  inbox := fun _ => Or.inl rfl
  history := Or.inl rfl

/-- If only operations run after a change, only operations ran before. -/
theorem OnlyOperations.of_changes (h : Changes w c c') (ho : c'.gateway.OnlyOperations) :
    c.gateway.OnlyOperations := by
  cases h with
  | nothing => exact ho
  | serves => exact ho
  | starts d g starts grows =>
    intro t ht
    rcases grows with htasks | ⟨t', htasks, -⟩
    · exact ho t (htasks ▸ ht)
    · exact ho t (htasks ▸ List.mem_append_left _ ht)
  | resumes id t p answer task pending inbox =>
    obtain ⟨t₀, q, ht₀, hq, -, rfl⟩ := Gateway.pending?_eq pending
    rw [task] at ht₀
    cases ht₀
    -- the task that goes on is an operation afterwards, so it was one before
    have hoperation : t.isOperation = true := by
      by_contra hnot
      obtain ⟨d, hd⟩ := Task.lone_of_not_operation (Bool.eq_false_iff.2 hnot) fun result h => by
        rw [h] at hq
        cases hq
      obtain ⟨step, -, hfollows⟩ := Task.follows_next? hd hq answer
      have hlt : id < c.gateway.tasks.length := (List.getElem?_eq_some_iff.1 task).1
      have hafter := ho _ (List.mem_set hlt _)
      rw [hfollows.not_operation] at hafter
      cases hafter
    intro t' ht'
    obtain ⟨n, hn⟩ := List.mem_iff_getElem?.1 ht'
    by_cases hid : n = id
    · rw [hid] at hn
      have heq : t' = t := Option.some.inj (hn.symm.trans task)
      exact heq ▸ hoperation
    · refine ho t' (List.mem_iff_getElem?.2 ⟨n, ?_⟩)
      have hid' : id ≠ n := fun heq => hid heq.symm
      simp only [Pending.map]
      rw [List.getElem?_set_ne hid']
      exact hn

/-- What starts in a scene of operations leaves the writes alone. -/
theorem rests_of_starts {d : Option LeaseOp} {g : Gateway}
    (hs : c.gateway.Starts c.gateway.tasks.length d g) (hg : c.gateway.Grows g)
    (ho : g.OnlyOperations) : c.Rests { c with gateway := g } := by
  have hleaseOp : d = none := by
    rw [← hg.idle ho, hs.leaseOps, Function.update_self]
  subst hleaseOp
  constructor
  · rfl
  · exact hg.write?
  · exact fun id => .of_begins hs.begins id
  · intro id result hr
    rw [Gateway.result?_eq] at hr ⊢
    exact hg.task hr
  · exact fun _ => Or.inl rfl
  · exact Or.inl rfl

/-- What goes on in a scene of operations without coming to a write leaves the writes alone. -/
theorem rests_of_resumes {id : TaskId} {t t' : Task} {s : Shared} {reply : Reply}
    (task : c.gateway.task? id = some t) (unfinished : ∀ result, t ≠ .finished result)
    (ho : Gateway.OnlyOperations ⟨s, c.gateway.tasks.set id t'⟩)
    (hb : Begins c.gateway.shared t'.leaseOp? s) (hw : t.write? = none) (hw' : t'.write? = none) :
    c.Rests { c with
      gateway := ⟨s, c.gateway.tasks.set id t'⟩
      inbox := Function.update c.inbox id none
      history := .resumed id t reply :: c.history } := by
  have hself : c.gateway.write? id = none := by
    rw [Gateway.write?_eq task]
    exact hw
  constructor
  · rfl
  · change Gateway.write? ⟨s, c.gateway.tasks.set id t'⟩ = c.gateway.write?
    rw [Gateway.write?_set task, hw', ← hself, Function.update_eq_self]
  · -- an operation that has not come to a write has no lease operation, so no lease is concerned
    have hlt : id < c.gateway.tasks.length := (List.getElem?_eq_some_iff.1 task).1
    rw [Task.leaseOp?_of_operation (ho t' (List.mem_set hlt t')) hw'] at hb
    exact fun n => .of_begins hb n
  · intro n result hr
    rw [Gateway.result?_eq] at hr ⊢
    have hn : n ≠ id := by
      rintro rfl
      rw [task] at hr
      exact unfinished result (Option.some.inj hr)
    change Gateway.task? ⟨s, c.gateway.tasks.set id t'⟩ n = _
    rw [Gateway.task?_set task, Function.update_of_ne hn]
    exact hr
  · intro n
    by_cases hn : n = id
    · subst hn
      exact Or.inr ⟨hself, Function.update_self n _ _⟩
    · exact Or.inl (Function.update_of_ne hn _ _)
  · exact Or.inr ⟨id, t, reply, hw, rfl⟩

/-- Every change of a scene in which only operations run is one of these. -/
theorem unfolds_of_changes (h : Changes w c c') (ho : c'.gateway.OnlyOperations) :
    Unfolds w c c' := by
  have hbefore := OnlyOperations.of_changes h ho
  cases h with
  | nothing => exact .rests _ (.refl c)
  | starts d g starts grows => exact .rests _ (rests_of_starts starts grows ho)
  | serves id t p task pending inbox => exact .serves id t p task pending inbox
  | resumes id t p answer task pending inbox =>
    obtain ⟨t₀, q, ht₀, hq, -, rfl⟩ := Gateway.pending?_eq pending
    rw [task] at ht₀
    cases ht₀
    -- the task is that of a write, or comes to one, or does not
    cases hw : t.write? with
    | some write =>
      obtain ⟨target, place⟩ := write
      obtain ⟨handle, rfl⟩ := Task.eq_of_write? hw
      obtain ⟨step, s, hm, hresume⟩ := Task.goes_of_write hq answer
      simp only [Pending.map]
      rw [hresume]
      exact .goes id handle target place _ step s _ _ task inbox hm rfl
        (Task.agrees_ofOperation handle _ s)
    | none =>
      have hunfinished : ∀ result, t ≠ .finished result := by
        intro result heq
        rw [heq] at hq
        cases hq
      rcases Task.begins_of_no_write hw hq answer with hnone | ⟨handle, target, place, ht', hb⟩
      · have hleaseOp := Task.leaseOp?_of_operation (hbefore.task task) hw
        have hbegins := Task.begins_of_no_leaseOp hleaseOp hq answer
        exact .rests _ (rests_of_resumes task hunfinished ho hbegins hw hnone)
      · simp only [Pending.map]
        rw [ht']
        exact .begins id t _ handle target place _ task hw hunfinished hb

end Scene

end FileGateway

import FileGateway.Proofs.Gateway.Bystanders

/-!
# What all tasks abide by

Something that is said of a task abides if it holds of the timers that give leases up and goes along
with the moves of a task, whatever the task is answered (`Abiding`). If it holds of all tasks of a
gateway, it holds of all of them while the gateway is driven (`Gateway.Abides.drive`), at every
moment: a gateway that is driven with less fuel is the same gateway at an earlier moment.
-/

namespace FileGateway

open CommandLine (Transfer)

variable {grounds : Backend × Path × LockConfig} {P : Task → Prop}

/-- What is said of a task goes along with its moves, on handles that were built with the same. -/
structure Abiding (grounds : Backend × Path × LockConfig) (P : Task → Prop) : Prop where
  expiring : ∀ lease, P (.expiring lease .taking)
  next : ∀ {t s p}, P t → (∀ x ∈ s.registry.built.map Handle.grounds, x = grounds) →
    t.next? s = some p → ∀ answer, P (p.resume answer s).1

/-- It is said of all tasks of a gateway, and all its handles have been built with the same. -/
structure Gateway.Abides (grounds : Backend × Path × LockConfig) (P : Task → Prop) (g : Gateway) :
    Prop where
  grounds : ∀ x ∈ g.shared.registry.built.map Handle.grounds, x = grounds
  tasks : ∀ id t, g.task? id = some t → P t

namespace Gateway.Abides

variable {g : Gateway}

theorem mono {Q : Task → Prop} (h : g.Abides grounds P) (hPQ : ∀ t, P t → Q t) :
    g.Abides grounds Q :=
  ⟨h.grounds, fun id t ht => hPQ t (h.tasks id t ht)⟩

/-- A task comes along. -/
theorem join (h : g.Abides grounds P) {s : Shared} {t : Task}
    (hgrounds : s.registry.built.map Handle.grounds = g.shared.registry.built.map Handle.grounds)
    (ht : P t) : (g.add t s).2.Abides grounds P := by
  refine ⟨fun x hx => h.grounds x (hgrounds ▸ hx), ?_⟩
  have htasks : (g.add t s).2.task? = Function.update g.task? g.tasks.length (some t) :=
    task?_concat rfl
  rw [htasks]
  exact Undertakes.forall_update h.tasks ht

/-- What is shared changes, and the tasks do not. -/
theorem share (h : g.Abides grounds P) {s : Shared}
    (hgrounds : s.registry.built.map Handle.grounds = g.shared.registry.built.map Handle.grounds) :
    ({ g with shared := s } : Gateway).Abides grounds P :=
  ⟨fun x hx => h.grounds x (hgrounds ▸ hx), h.tasks⟩

theorem fire (h : g.Abides grounds P) (hP : Abiding grounds P) (id : LeaseId) :
    (g.fire id).Abides grounds P := by
  unfold Gateway.fire
  cases g.shared.lease? id with
  | none => exact h
  | some l =>
    simp only
    have hstart := Shared.lasting_grounds.expiry_start id g.shared
    split
    · split
      · next s heq =>
        rw [heq] at hstart
        exact h.join hstart (hP.expiring id)
      · next s heq =>
        rw [heq] at hstart
        exact h.share hstart
    · exact h

theorem fireDue (h : g.Abides grounds P) (hP : Abiding grounds P) :
    g.fireDue.Abides grounds P :=
  fireDue_of_fire (I := fun g => g.Abides grounds P) (fun id h => h.fire hP id) h

theorem resume (h : g.Abides grounds P) (hP : Abiding grounds P) {id : TaskId}
    {p : Pending Gateway} (hp : g.pending? id = some p) (answer : p.request.Answer) :
    (p.resume answer).Abides grounds P := by
  obtain ⟨t, q, ht, hq, -, rfl⟩ := pending?_eq hp
  refine ⟨fun x hx => h.grounds x ?_, ?_⟩
  · exact (Shared.lasting_grounds.next? hq answer g.shared) ▸ hx
  · have hnext := hP.next (h.tasks id t ht) h.grounds hq answer
    have htasks := task?_set ht (q.resume answer g.shared).1 (q.resume answer g.shared).2
    intro n u hu
    exact Undertakes.forall_update (R := fun _ => P) h.tasks hnext n u
      ((congrFun htasks n).symm.trans hu)

/-- All tasks abide by it at every moment while the gateway is driven. -/
theorem drive (h : g.Abides grounds P) (hP : Abiding grounds P) (clock : StateM Volume Instant)
    (id : TaskId) (fuel : Nat) (transfer : Transfer) (v : Volume) :
    (g.driveOnDisk clock id fuel transfer v).1.1.Abides grounds P := by
  induction fuel generalizing g transfer v with
  | zero => exact h
  | succ fuel ih =>
    simp only [driveOnDisk, Gateway.drive, bind, StateT.bind]
    obtain ⟨now, v'⟩ := clock v
    simp only [stateM_pure]
    have hready : (g.advanceTo now).fireDue.Abides grounds P :=
      (h.share (s := { g.shared with now := max g.shared.now now }) rfl).fireDue hP
    generalize (g.advanceTo now).fireDue = ready at hready ⊢
    cases hp : ready.pending? (ready.nextTask id) with
    | none => exact hready
    | some p => exact ih (hready.resume hP hp _) _ _

end Gateway.Abides

/-- A task that is over, or gives a lease up. -/
def Task.IsIdle : Task → Prop
  | .expiring _ _ | .finished _ => True
  | _ => False

theorem Task.IsIdle.next? {t : Task} {s : Shared} {p : Pending (Shared → Task × Shared)}
    (h : t.IsIdle) (hp : t.next? s = some p) (answer : p.request.Answer) :
    (p.resume answer s).1.IsIdle := by
  cases t with
  | expiring lease place =>
    cases hp
    simp only [Pending.map]
    generalize (Surrender.next ⟨lease, true⟩ place).resume answer s = moved
    obtain ⟨_ | _, s'⟩ := moved <;> trivial
  | finished result => cases hp
  | _ => exact h.elim

theorem Task.abiding_isIdle (grounds : Backend × Path × LockConfig) :
    Abiding grounds Task.IsIdle :=
  ⟨fun _ => trivial, fun ht _ hp answer => ht.next? hp answer⟩

end FileGateway

import FileGateway.Proofs.Gateway.Abiding
import FileGateway.Proofs.Gateway.Ending
import FileGateway.Proofs.Lease.Turns

/-!
# Tasks that are pursued to their end

An `Undertaking` says what goes along with one task among bystanders. A `Pursuit` says what makes
such a task end: whatever it asks for is answered, and it never has a piece at hand that is not
within the bytes that it moves. What is said of the task may tell of the guards and of both ends of
its transfer, which no bystander touches. A gateway that pursues a task and is driven with fuel for
all that is left to be done comes to the end of it (`Gateway.Pursues.ends`).
-/

namespace FileGateway

open CommandLine (Transfer)

/-- A task that is not finished asks for something. -/
theorem Task.next?_eq_none {t : Task} {s : Shared} (h : t.next? s = none) :
    ∃ result, t = .finished result := by
  cases t with
  | finished result => exact ⟨result, rfl⟩
  | _ => cases h

theorem Gateway.guards_fire (g : Gateway) (id : LeaseId) :
    (g.fire id).shared.guards = g.shared.guards := by
  obtain ⟨d, hstarts⟩ := g.starts_fire id
  exact hstarts.begins.guards

namespace Task.StandsBy

variable {base : Volume} {keep : Place → Prop} {t : Task}

theorem within (h : t.StandsBy base keep) (size : Nat) : t.Within size := by
  cases t with
  | operating id place => exact h.elim
  | _ => trivial

end Task.StandsBy

/-- What is said of a task, of the guards, of its transfer and of the disk goes along with its moves
and with whatever bystanders do, and makes it go on within the bytes that it moves. -/
structure Pursuit (base : Volume) (keep : Place → Prop) (grounds : Backend × Path × LockConfig)
    (size : Nat) (P : Task → Guards → Transfer → Volume → Prop) : Prop where
  aside : ∀ {t guards transfer v v'}, P t guards transfer v → v.Aside keep v' →
    P t guards transfer v'
  next : ∀ {t v s p answer transfer transfer' v'}, P t s.guards transfer v → base.Alike v →
    s.Spares base keep → (∀ x ∈ s.registry.built.map Handle.grounds, x = grounds) →
    t.next? s = some p →
    diskWorld.answer 0 p.request (transfer, v) = (answer, transfer', v') →
    base.Alike v' ∧ (p.resume answer s).2.Spares base keep ∧
      P (p.resume answer s).1 (p.resume answer s).2.guards transfer' v'
  within : ∀ {t guards transfer v}, P t guards transfer v → t.Within size
  opens : ∀ {t s transfer v p}, P t s.guards transfer v → t.next? s = some p →
    Gateway.isOpen s p.request = true

namespace Gateway

/-- One task of a gateway is pursued, and all others are bystanders. -/
def Pursues (base : Volume) (keep : Place → Prop) (grounds : Backend × Path × LockConfig)
    (own : TaskId) (P : Task → Guards → Transfer → Volume → Prop) (g : Gateway)
    (transfer : Transfer) (v : Volume) : Prop :=
  g.Undertakes base keep grounds own (fun t v => P t g.shared.guards transfer v) v

namespace Pursues

variable {base v v' : Volume} {keep : Place → Prop} {grounds : Backend × Path × LockConfig}
  {own : TaskId} {size : Nat} {P : Task → Guards → Transfer → Volume → Prop} {g : Gateway}
  {transfer transfer' : Transfer}

theorem advanceTo (h : g.Pursues base keep grounds own P transfer v) (now : Instant) :
    (g.advanceTo now).Pursues base keep grounds own P transfer v :=
  Undertakes.share h (h.spares.congr rfl) rfl

theorem fire (h : g.Pursues base keep grounds own P transfer v) (id : LeaseId) :
    (g.fire id).Pursues base keep grounds own P transfer v := by
  unfold Pursues
  rw [g.guards_fire id]
  exact Undertakes.fire h id

/-- A task is answered: the one that is pursued makes its move, or a bystander does. -/
theorem resume (h : g.Pursues base keep grounds own P transfer v) (hb : base.Rooted)
    (hP : Pursuit base keep grounds size P) {id : TaskId} {p : Pending Gateway}
    (hp : g.pending? id = some p) {answer : p.request.Answer}
    (hanswer : diskWorld.answer 0 p.request (transfer, v) = (answer, transfer', v')) :
    (p.resume answer).Pursues base keep grounds own P transfer' v' := by
  obtain ⟨t, q, ht, hq, -, rfl⟩ := pending?_eq hp
  refine Undertakes.resumed h hb ht hq hanswer
    (fun hPt => hP.next hPt h.alike h.spares h.grounds hq hanswer) ?_
  rintro u hPu haside rfl hguards
  have hkept := hP.aside hPu haside
  rwa [← hguards] at hkept

theorem within (h : g.Pursues base keep grounds own P transfer v)
    (hP : Pursuit base keep grounds size P) (id : TaskId) (t : Task) (ht : g.task? id = some t) :
    t.Within size := by
  by_cases hid : id = own
  · obtain ⟨u, hu, hPu⟩ := h.task
    rw [hid, hu] at ht
    cases ht
    exact hP.within hPu
  · exact (h.bystanders id t ht hid).within size

/-- The task that is pursued goes on until it has ended. -/
theorem goesOn (h : g.Pursues base keep grounds own P transfer v)
    (hP : Pursuit base keep grounds size P) :
    (∃ result, g.task? own = some (.finished result)) ∨ (g.pending? own).isSome = true := by
  obtain ⟨t, ht, hPt⟩ := h.task
  cases hq : t.next? g.shared with
  | none =>
    obtain ⟨result, rfl⟩ := Task.next?_eq_none hq
    exact Or.inl ⟨result, ht⟩
  | some q =>
    right
    rw [pending?_of_next ht hq (hP.opens hPt hq)]
    rfl

/-- A task that is pursued comes to its end, if there is fuel for all that is left to be done. -/
theorem ends (h : g.Pursues base keep grounds own P transfer v) (hb : base.Rooted)
    (hP : Pursuit base keep grounds size P) {clock : StateM Volume Instant}
    (hclock : ∀ v, (clock v).2 = v) {fuel : Nat} (hfuel : g.toGo size < fuel) :
    ∃ result, (g.driveOnDisk clock own fuel transfer v).1.1.task? own = some (.finished result) :=
  drive_ends hclock (I := fun g transfer v => g.Pursues base keep grounds own P transfer v)
    (fun now h => h.advanceTo now) (fun id h => h.fire id)
    (fun h hp hanswer => h.resume hb hP hp hanswer) (fun h => h.within hP) (fun h => h.goesOn hP) h
    hfuel

end Pursues

/-- Where all tasks abide by asking for nothing that is not answered, the one that is driven comes
to its end. -/
theorem Abides.ends {grounds : Backend × Path × LockConfig} {P : Task → Prop} {g : Gateway}
    (h : g.Abides grounds P) (hP : Abiding grounds P) {size : Nat}
    (hwithin : ∀ t, P t → t.Within size)
    (hopens : ∀ t s p, P t → t.next? s = some p → isOpen s p.request = true) {own : TaskId}
    (hown : own < g.tasks.length) {clock : StateM Volume Instant} (hclock : ∀ v, (clock v).2 = v)
    {transfer : Transfer} {v : Volume} {fuel : Nat} (hfuel : g.toGo size < fuel) :
    ∃ result,
      (g.driveOnDisk clock own fuel transfer v).1.1.task? own = some (.finished result) := by
  refine drive_ends hclock (I := fun g _ _ => g.Abides grounds P ∧ own < g.tasks.length)
    ?_ ?_ ?_ (fun h id t ht => hwithin t (h.1.tasks id t ht)) ?_ ⟨h, hown⟩ hfuel
  · exact fun now h => ⟨h.1.share rfl, h.2⟩
  · intro g transfer v id h
    refine ⟨h.1.fire hP id, ?_⟩
    rcases g.grows_fire id with hsame | ⟨t, hgrown, -⟩
    · rw [hsame]
      exact h.2
    · rw [hgrown, List.length_append]
      exact Nat.lt_add_right _ h.2
  · intro g transfer v id p answer transfer' v' h hp _
    refine ⟨h.1.resume hP hp answer, ?_⟩
    obtain ⟨t, q, -, -, -, rfl⟩ := pending?_eq hp
    exact Nat.lt_of_lt_of_eq h.2 List.length_set.symm
  · intro g transfer v h
    obtain ⟨t, ht⟩ : ∃ t, g.task? own = some t := ⟨_, List.getElem?_eq_getElem h.2⟩
    cases hq : t.next? g.shared with
    | none =>
      obtain ⟨result, rfl⟩ := Task.next?_eq_none hq
      exact Or.inl ⟨result, ht⟩
    | some q =>
      right
      rw [pending?_of_next ht hq (hopens t _ q (h.1.tasks own t ht) hq)]
      rfl

end Gateway

end FileGateway

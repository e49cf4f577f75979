import FileGateway.Proofs.Gateway.Calls
import FileGateway.Proofs.Gateway.Lasting
import FileGateway.Proofs.Lease.Aside

/-!
# One task and its bystanders

A gateway that is driven for one caller has the task that the caller waits for, and others may be
about: timers that have given leases up meanwhile, and whatever closes stores. These bystanders do
nothing to the disk but remove markers (`Task.StandsBy.next?`). So what is said of the one task goes
along with the gateway as it is driven (`Gateway.Undertakes.drive`), if the moves of the task keep
it and it tells of nothing but what the bystanders leave alone (`Undertaking`).
-/

namespace FileGateway

open CommandLine (Transfer)

/-! ## Leases of the shared state -/

namespace Shared.Spares

variable {base : Volume} {keep : Place → Prop} {s s' : Shared}

theorem congr (h : s.Spares base keep) (hleases : s'.leases = s.leases) :
    s'.Spares base keep := by
  intro id l held hl
  rw [Shared.lease?, hleases] at hl
  exact h id l held hl

/-- A lease is changed, but not in what it holds. -/
theorem modify (h : s.Spares base keep) (id : LeaseId) {change : Lease → Lease}
    (hchange : ∀ l, (change l).held = l.held) : (s.modifyLease id change).Spares base keep := by
  intro other l held hl hheld
  rw [Shared.lease?, Shared.modifyLease, List.getElem?_modify] at hl
  obtain ⟨old, hold, rfl⟩ := Option.map_eq_some_iff.1 hl
  refine h other old held hold ?_
  split at hheld
  · rw [← hchange]
    exact hheld
  · exact hheld

/-- A lease is made. It holds nothing. -/
theorem add (h : s.Spares base keep) {lease : Lease} (hlease : lease.held = none) :
    (s.addLease lease).2.Spares base keep := by
  intro id l held hl hheld
  have hget : (s.leases ++ [lease])[id]? = some l := hl
  rw [List.getElem?_append] at hget
  split at hget
  · exact h id l held hget hheld
  · -- it is the new one
    cases List.mem_singleton.1 (List.mem_of_getElem? hget)
    rw [hlease] at hheld
    cases hheld

end Shared.Spares

/-! ## Bystanders -/

/-- A task that does nothing to the disk but remove markers, none of them where something is to be
kept. -/
def Task.StandsBy (base : Volume) (keep : Place → Prop) : Task → Prop
  | .expiring lease place => (LeaseOp.surrender ⟨lease, true⟩ place).Spares base keep base
  | .closing _ _ | .evicting _ _ _ | .finished _ => True
  | _ => False

section

variable {base v v' : Volume} {keep : Place → Prop} {s : Shared} {transfer transfer' : Transfer}

theorem Task.standsBy_ofEvicted (count : Nat) (ids : List HandleId) :
    (Task.ofEvicted count ids).StandsBy base keep := by
  cases ids <;> trivial

/-- The timer of a lease gives it up. -/
theorem Task.standsBy_expiring {lease : LeaseId} {place : Surrender.Place}
    {p : Pending (Shared → Task × Shared)}
    (h : (LeaseOp.surrender ⟨lease, true⟩ place).Spares base keep base) (hs : s.Spares base keep)
    (ha : base.Alike v) (hb : base.Rooted) (hp : (Task.expiring lease place).next? s = some p)
    {answer : p.request.Answer}
    (hanswer : diskWorld.answer 0 p.request (transfer, v) = (answer, transfer', v')) :
    transfer' = transfer ∧ v.Aside keep v' ∧ (p.resume answer s).1.StandsBy base keep ∧
      (p.resume answer s).2.Spares base keep := by
  cases hp
  have hm := LeaseOp.moves_next s.writer s (.surrender ⟨lease, true⟩ place) answer
  revert hm
  simp only [LeaseOp.next, Pending.map]
  generalize (Surrender.next ⟨lease, true⟩ place).resume answer s = moved
  obtain ⟨step, s'⟩ := moved
  intro hm
  have hspares : (LeaseOp.surrender ⟨lease, true⟩ place).Spares base keep v := h.surrender
  obtain ⟨htransfer, haside⟩ := hspares.moves hs ha hb hm hanswer
  refine ⟨htransfer, haside.volume, ?_, hspares.shared hs hm⟩
  cases step with
  | paused place' => exact (haside.leaseOp _ rfl).surrender
  | done removed => trivial

/-- A bystander goes on as one, and leaves alone what is to be kept. -/
theorem Task.StandsBy.next? {t : Task} {p : Pending (Shared → Task × Shared)}
    (h : t.StandsBy base keep) (hs : s.Spares base keep) (ha : base.Alike v) (hb : base.Rooted)
    (hp : t.next? s = some p) {answer : p.request.Answer}
    (hanswer : diskWorld.answer 0 p.request (transfer, v) = (answer, transfer', v')) :
    transfer' = transfer ∧ v.Aside keep v' ∧ (p.resume answer s).1.StandsBy base keep ∧
      (p.resume answer s).2.Spares base keep := by
  cases t with
  | expiring lease place => exact Task.standsBy_expiring h hs ha hb hp hanswer
  | closing id background =>
    cases hp
    cases hanswer
    exact ⟨rfl, .refl keep v, trivial, hs⟩
  | evicting id rest count =>
    cases hp
    cases hanswer
    exact ⟨rfl, .refl keep v, Task.standsBy_ofEvicted count rest, hs⟩
  | finished result => cases hp
  | _ => exact h.elim

/-- A bystander is at no guard. -/
theorem Task.StandsBy.guards {t : Task} {p : Pending (Shared → Task × Shared)}
    (h : t.StandsBy base keep) (hp : t.next? s = some p) (answer : p.request.Answer) :
    (p.resume answer s).2.guards = s.guards := by
  cases t with
  | expiring lease place =>
    cases hp
    cases place with
    | taking =>
      simp only [Surrender.next, Surrender.take, Pending.map]
      split <;> rfl
    | _ => rfl
  | closing id background =>
    cases hp
    rfl
  | evicting id rest count =>
    cases hp
    rfl
  | finished result => cases hp
  | _ => exact h.elim

end

/-! ## Driving a gateway -/

section

variable {σ α β : Type}

/-- A call that asks for nothing. -/
theorem stateM_pure (a : α) (s : σ) : (pure a : StateM σ α) s = (a, s) := rfl

/-- One call after the other. -/
theorem stateM_bind (first : StateM σ α) (rest : α → StateM σ β) (s : σ) :
    (first >>= rest) s = rest (first s).1 (first s).2 :=
  rfl

end

namespace Gateway

/-- A gateway is driven by a clock that reads the disk, and the disk answers. -/
abbrev driveOnDisk (clock : StateM Volume Instant) (id : TaskId) (fuel : Nat) (g : Gateway) :
    StateT Transfer (StateM Volume) Gateway :=
  g.drive CommandLine.answer (fun transfer => do return (← clock, transfer)) id fuel

variable {clock : StateM Volume Instant}

/-- A moment comes, timers that are due run, and one request is answered. -/
theorem driveOnDisk_succ (hclock : ∀ v, (clock v).2 = v) (id : TaskId) (fuel : Nat) (g : Gateway)
    (transfer : Transfer) (v : Volume) :
    g.driveOnDisk clock id (fuel + 1) transfer v =
      let ready := (g.advanceTo (clock v).1).fireDue
      match ready.pending? (ready.nextTask id) with
      | none => ((ready, transfer), v)
      | some p =>
        let answered := diskWorld.answer 0 p.request (transfer, v)
        (p.resume answered.1).driveOnDisk clock id fuel answered.2.1 answered.2.2 := by
  have hclock' : clock v = ((clock v).1, v) := Prod.ext rfl (hclock v)
  simp only [driveOnDisk, drive, bind, StateT.bind, stateM_pure]
  rw [hclock']
  simp only
  generalize (g.advanceTo (clock v).1).fireDue = ready
  cases ready.pending? (ready.nextTask id) <;> rfl

/-- What goes along with a timer that runs goes along with all that are due. -/
theorem fireDue_of_fire {I : Gateway → Prop} (fire : ∀ {g} id, I g → I (g.fire id)) {g : Gateway}
    (h : I g) : I g.fireDue := by
  have hall : ∀ (ids : List LeaseId) {g : Gateway}, I g → I (ids.foldl Gateway.fire g) := by
    intro ids
    induction ids with
    | nil => exact fun h => h
    | cons id ids ih => exact fun h => ih (fire id h)
  exact hall g.dueTimers h

/-- What goes along with the events of a gateway on the disk goes along with the gateway as it is
driven. -/
theorem drive_induction (hclock : ∀ v, (clock v).2 = v) {I : Gateway → Transfer → Volume → Prop}
    (advance : ∀ {g transfer v} now, I g transfer v → I (g.advanceTo now) transfer v)
    (fire : ∀ {g transfer v} id, I g transfer v → I (g.fire id) transfer v)
    (resume : ∀ {g transfer v id p answer transfer' v'}, I g transfer v →
      g.pending? id = some p →
      diskWorld.answer 0 p.request (transfer, v) = (answer, transfer', v') →
      I (p.resume answer) transfer' v')
    (id : TaskId) (fuel : Nat) {g : Gateway} {transfer : Transfer} {v : Volume}
    (h : I g transfer v) :
    let driven := g.driveOnDisk clock id fuel transfer v
    I driven.1.1 driven.1.2 driven.2 := by
  induction fuel generalizing g transfer v with
  | zero => exact h
  | succ fuel ih =>
    have hready : I (g.advanceTo (clock v).1).fireDue transfer v :=
      fireDue_of_fire (I := fun g => I g transfer v) fire (advance (clock v).1 h)
    rw [driveOnDisk_succ hclock]
    simp only
    generalize (g.advanceTo (clock v).1).fireDue = ready at hready ⊢
    cases hp : ready.pending? (ready.nextTask id) with
    | none => exact hready
    | some p => exact ih (resume hready hp rfl)

end Gateway

/-! ## Undertakings -/

/-- What a handle is built with, and stays with. -/
def Handle.grounds (h : Handle) : Backend × Path × LockConfig :=
  (h.backend, h.baseDir, h.lock)

theorem Shared.lasting_grounds :
    Shared.Lasting fun s => s.registry.built.map Handle.grounds := by
  refine ⟨⟨fun _ _ => rfl, fun _ _ => rfl, fun _ _ => rfl⟩, fun s id change hchange => ?_⟩
  have hsame : (s.registry.built.modify id change).map Handle.grounds =
      (s.registry.built.map Handle.grounds).modify id fun grounds => grounds := by
    refine map_modify (fun h => ?_) _ _
    obtain ⟨options, modified, policy, hchanged⟩ := hchange h
    rw [hchanged]
    rfl
  exact hsame.trans (List.modify_id _ _)

/-- What is said of a task and of the disk goes along with the moves of the task, and with whatever
leaves alone what is to be kept. All handles have been built with the same. -/
structure Undertaking (base : Volume) (keep : Place → Prop)
    (grounds : Backend × Path × LockConfig) (transfer : Transfer) (P : Task → Volume → Prop) :
    Prop where
  aside : ∀ {t v v'}, P t v → v.Aside keep v' → P t v'
  next : ∀ {t v s p answer transfer' v'}, P t v → base.Alike v → s.Spares base keep →
    (∀ x ∈ s.registry.built.map Handle.grounds, x = grounds) → t.next? s = some p →
    diskWorld.answer 0 p.request (transfer, v) = (answer, transfer', v') →
    transfer' = transfer ∧ base.Alike v' ∧ (p.resume answer s).2.Spares base keep ∧
      P (p.resume answer s).1 v'

/-- One task of a gateway is under way, and all others are bystanders. -/
structure Gateway.Undertakes (base : Volume) (keep : Place → Prop)
    (grounds : Backend × Path × LockConfig) (own : TaskId) (P : Task → Volume → Prop)
    (g : Gateway) (v : Volume) : Prop where
  alike : base.Alike v
  spares : g.shared.Spares base keep
  grounds : ∀ x ∈ g.shared.registry.built.map Handle.grounds, x = grounds
  task : ∃ t, g.task? own = some t ∧ P t v
  bystanders : ∀ id t, g.task? id = some t → id ≠ own → t.StandsBy base keep

namespace Gateway.Undertakes

variable {base v : Volume} {keep : Place → Prop} {grounds : Backend × Path × LockConfig}
  {own : TaskId} {transfer : Transfer} {P : Task → Volume → Prop} {g g' : Gateway}

/-- What holds of all tasks holds with one of them replaced or added, if it holds of that one. -/
theorem forall_update {R : TaskId → Task → Prop} {tasks : TaskId → Option Task} {id : TaskId}
    {t : Task} (h : ∀ n u, tasks n = some u → R n u) (ht : R id t) :
    ∀ n u, Function.update tasks id (some t) n = some u → R n u := by
  intro n u hu
  by_cases hn : n = id
  · subst hn
    rw [Function.update_self] at hu
    cases hu
    exact ht
  · rw [Function.update_of_ne hn] at hu
    exact h n u hu

/-- A bystander comes along. -/
theorem join (h : g.Undertakes base keep grounds own P v) {s : Shared} {t : Task}
    (hs : s.Spares base keep)
    (hgrounds : s.registry.built.map Handle.grounds = g.shared.registry.built.map Handle.grounds)
    (ht : t.StandsBy base keep) : (g.add t s).2.Undertakes base keep grounds own P v := by
  have htasks : (g.add t s).2.task? = Function.update g.task? g.tasks.length (some t) :=
    task?_concat rfl
  obtain ⟨u, hu, hP⟩ := h.task
  have hown : own ≠ g.tasks.length := by
    rintro rfl
    rw [task?_length] at hu
    cases hu
  refine ⟨h.alike, hs, fun x hx => h.grounds x (hgrounds ▸ hx), ⟨u, ?_, hP⟩, ?_⟩
  · rw [htasks, Function.update_of_ne hown]
    exact hu
  · rw [htasks]
    exact forall_update h.bystanders fun _ => ht

/-- What is shared changes, and the tasks do not. -/
theorem share (h : g.Undertakes base keep grounds own P v) {s : Shared} (hs : s.Spares base keep)
    (hgrounds : s.registry.built.map Handle.grounds = g.shared.registry.built.map Handle.grounds) :
    ({ g with shared := s } : Gateway).Undertakes base keep grounds own P v :=
  ⟨h.alike, hs, fun x hx => h.grounds x (hgrounds ▸ hx), h.task, h.bystanders⟩

theorem fire (h : g.Undertakes base keep grounds own P v) (id : LeaseId) :
    (g.fire id).Undertakes base keep grounds own P v := by
  unfold Gateway.fire
  cases hl : g.shared.lease? id with
  | none => exact h
  | some l =>
    simp only
    split
    · simp only [Expiry.start, hl]
      by_cases hactive : l.state = .active
      · rw [if_pos hactive]
        exact h.join (h.spares.modify id fun _ => rfl) rfl trivial
      · rw [if_neg hactive]
        exact h.share (h.spares.modify id fun _ => rfl) rfl
    · exact h

theorem shutdown (h : g.Undertakes base keep grounds own P v) (space : String) :
    (g.shutdown space).2.Undertakes base keep grounds own P v :=
  h.join (h.spares.congr rfl) rfl (Task.standsBy_ofEvicted _ _)

/-- A task is answered: the one that is under way makes its move, or a bystander does. What is said
of the task afterwards may be something else. -/
theorem resumed (h : g.Undertakes base keep grounds own P v) (hb : base.Rooted) {id : TaskId}
    {t : Task} {q : Pending (Shared → Task × Shared)} (ht : g.task? id = some t)
    (hq : t.next? g.shared = some q) {answer : q.request.Answer} {transfer' : Transfer}
    {v' : Volume} (hanswer : diskWorld.answer 0 q.request (transfer, v) = (answer, transfer', v'))
    {P' : Task → Volume → Prop}
    (hmove : P t v → base.Alike v' ∧ (q.resume answer g.shared).2.Spares base keep ∧
      P' (q.resume answer g.shared).1 v')
    (hstand : ∀ u, P u v → v.Aside keep v' → transfer' = transfer →
      (q.resume answer g.shared).2.guards = g.shared.guards → P' u v') :
    Gateway.Undertakes base keep grounds own P'
      ⟨(q.resume answer g.shared).2, g.tasks.set id (q.resume answer g.shared).1⟩ v' := by
  have hgrounds : ∀ x ∈ (q.resume answer g.shared).2.registry.built.map Handle.grounds,
      x = grounds := by
    rw [show (q.resume answer g.shared).2.registry.built.map Handle.grounds =
      g.shared.registry.built.map Handle.grounds from Shared.lasting_grounds.next? hq _ _]
    exact h.grounds
  have htasks := task?_set ht (q.resume answer g.shared).1 (q.resume answer g.shared).2
  obtain ⟨u, hu, hPu⟩ := h.task
  by_cases hid : id = own
  · subst hid
    rw [ht] at hu
    cases hu
    obtain ⟨halike, hspares, hnext⟩ := hmove hPu
    refine ⟨halike, hspares, hgrounds, ⟨_, ?_, hnext⟩, fun n t' ht' => ?_⟩
    · exact (congrFun htasks id).trans (Function.update_self _ _ _)
    · exact forall_update h.bystanders (fun hne => absurd rfl hne) n t'
        ((congrFun htasks n).symm.trans ht')
  · have hstands := h.bystanders id t ht hid
    obtain ⟨htransfer, haside, hstands', hspares⟩ := hstands.next? h.spares h.alike hb hq hanswer
    refine ⟨h.alike.trans haside.alike, hspares, hgrounds,
      ⟨u, ?_, hstand u hPu haside htransfer (hstands.guards hq answer)⟩, fun n t' ht' => ?_⟩
    · exact (congrFun htasks own).trans ((Function.update_of_ne (Ne.symm hid) _ _).trans hu)
    · exact forall_update h.bystanders (fun _ => hstands') n t'
        ((congrFun htasks n).symm.trans ht')

/-- An undertaking goes on, whoever is answered, and both ends of its transfer are as before. -/
theorem resume (h : g.Undertakes base keep grounds own P v) (hb : base.Rooted)
    (hP : Undertaking base keep grounds transfer P) {id : TaskId} {p : Pending Gateway}
    (hp : g.pending? id = some p) {answer : p.request.Answer} {transfer' : Transfer} {v' : Volume}
    (hanswer : diskWorld.answer 0 p.request (transfer, v) = (answer, transfer', v')) :
    transfer' = transfer ∧ (p.resume answer).Undertakes base keep grounds own P v' := by
  obtain ⟨t, q, ht, hq, -, rfl⟩ := pending?_eq hp
  have hresumed : Gateway.Undertakes base keep grounds own
      (fun t v => transfer' = transfer ∧ P t v)
      ⟨(q.resume answer g.shared).2, g.tasks.set id (q.resume answer g.shared).1⟩ v' := by
    refine h.resumed hb ht hq hanswer (fun hPt => ?_)
      fun u hPu haside htransfer _ => ⟨htransfer, hP.aside hPu haside⟩
    obtain ⟨htransfer, halike, hspares, hnext⟩ :=
      hP.next hPt h.alike h.spares h.grounds hq hanswer
    exact ⟨halike, hspares, htransfer, hnext⟩
  obtain ⟨u, hu, htransfer, hPu⟩ := hresumed.task
  exact ⟨htransfer, hresumed.alike, hresumed.spares, hresumed.grounds, ⟨u, hu, hPu⟩,
    hresumed.bystanders⟩

/-- While a gateway is driven, the task stays under way, and all others bystanders. -/
theorem drive (h : g.Undertakes base keep grounds own P v) (hb : base.Rooted)
    (hP : Undertaking base keep grounds transfer P) {clock : StateM Volume Instant}
    (hclock : ∀ v, (clock v).2 = v) (id : TaskId) (fuel : Nat) :
    let driven := g.driveOnDisk clock id fuel transfer v
    driven.1.1.Undertakes base keep grounds own P driven.2 := by
  refine (Gateway.drive_induction hclock (I := fun g transfer' v =>
    transfer' = transfer ∧ g.Undertakes base keep grounds own P v) ?_ ?_ ?_ id fuel ⟨rfl, h⟩).2
  · rintro g transfer' v now ⟨rfl, h⟩
    exact ⟨rfl, h.share (h.spares.congr rfl) rfl⟩
  · rintro g transfer' v id ⟨rfl, h⟩
    exact ⟨rfl, h.fire id⟩
  · rintro g transfer' v id p answer transfer'' v' ⟨rfl, h⟩ hp hanswer
    exact h.resume hb hP hp hanswer

end Gateway.Undertakes

end FileGateway

import FileGateway.Proofs.Operation.Order

/-!
# Writes that find the marker taken

A write that finds the marker of its file taken has nothing left to do but to say so: it waits for a
slot and then ends with an error, and nothing is ever copied for it. `Scene.Declining` is the
invariant. It rests on a task never going back to an earlier part of its write (`Task.isEarly`).
-/

namespace FileGateway

/-! ## Early tasks -/

/-- Whether a write has not come to its copy yet. -/
def Write.Place.isEarly : Write.Place → Bool
  | locking _ _ => true
  | _ => false

/-- Whether a task has not come to a copy yet. -/
def Task.isEarly : Task → Bool
  | operating _ (.writing _ place) => place.isEarly
  | finished _ => false
  | _ => true

/-- Whether a task copies into a file. -/
def Task.isCopying (t : Task) : Bool :=
  match t.write? with
  | some (_, .copying _ _) => true
  | _ => false

theorem Task.early_of_unwritten {t : Task} (hw : t.write? = none)
    (hf : ∀ result, t ≠ .finished result) : t.isEarly = true := by
  cases t with
  | operating id place =>
    cases place with
    | writing target place => cases hw
    | _ => rfl
  | finished result => exact absurd rfl (hf result)
  | _ => rfl

theorem Task.early_of_write {t : Task} {target : Write.Target} {place : Write.Place}
    (hw : t.write? = some (target, place)) : t.isEarly = place.isEarly := by
  obtain ⟨id, rfl⟩ := eq_of_write? hw
  rfl

theorem Task.not_early_of_copying {t : Task} (h : t.isCopying = true) : t.isEarly = false := by
  unfold isCopying at h
  split at h
  · next target lease place hw =>
    rw [early_of_write hw]
    rfl
  · cases h

theorem Write.Goes.early {writer : Diagnostics} {t : Target} {s s' : Shared} {place place' : Place}
    {reply : Reply} (h : Goes writer t s place reply (.paused place') s')
    (he : place'.isEarly = true) : place.isEarly = true := by
  cases h with
  | locks a p p' reply s' move => rfl
  | _ => cases he

namespace Scene

variable {ε : Type} {w : World ε} {c c' : Scene ε}

theorem Rests.early (hr : c.Rests c') {i : TaskId} {t : Task} (ht : c.gateway.task? i = some t)
    (h : ∀ t, c'.gateway.task? i = some t → t.isEarly = true) : t.isEarly = true := by
  cases hw : t.write? with
  | some write =>
    -- a write is at the same place in both scenes
    obtain ⟨target, place⟩ := write
    have hsame : c'.gateway.write? i = some (target, place) := by
      rw [hr.write?, Gateway.write?_eq ht]
      exact hw
    obtain ⟨t', ht', hw'⟩ := Option.bind_eq_some_iff.1 hsame
    rw [Task.early_of_write hw, ← Task.early_of_write hw']
    exact h t' ht'
  | none =>
    -- a task that has finished stays so, and would not be early afterwards
    refine Task.early_of_unwritten hw fun result heq => ?_
    subst heq
    have hresult := hr.finished i result (Gateway.result?_eq.2 ht)
    cases h _ (Gateway.result?_eq.1 hresult)

/-- No task goes back: what is early after a change was early, or not there, before. -/
theorem Unfolds.early (hu : Unfolds w c c') {i : TaskId}
    (h : ∀ t, c'.gateway.task? i = some t → t.isEarly = true) :
    ∀ t, c.gateway.task? i = some t → t.isEarly = true := by
  intro t ht
  cases hu with
  | rests _ rests => exact rests.early ht h
  | serves => exact h t ht
  | goes id handle target place reply step s s' t' task inbox move next agrees =>
    simp only [Gateway.task?_set task] at h
    by_cases hid : i = id
    · subst hid
      rw [task] at ht
      cases ht
      have hlater := h t' (Function.update_self _ _ _)
      rw [next] at hlater
      rcases ofOperation_cases handle target step s with ⟨place', rfl, hpaused⟩ | ⟨_, rfl, hdone⟩
      · rw [hpaused] at hlater
        exact move.early hlater
      · rw [hdone] at hlater
        cases hlater
    · rw [Function.update_of_ne hid] at h
      exact h t ht
  | begins id t' reply handle target place s task unwritten unfinished begins =>
    simp only [Gateway.task?_set task] at h
    by_cases hid : i = id
    · subst hid
      rw [task] at ht
      cases ht
      exact Task.early_of_unwritten unwritten unfinished
    · rw [Function.update_of_ne hid] at h
      exact h t ht

end Scene

/-! ## Refusals -/

/-- A write has found its marker taken, if this is what has happened: its task and the marker. -/
def Entry.refusal? : Entry → Option (TaskId × Path)
  | resumed id t reply =>
    match t.write?, reply with
    | some (_, .locking a (.creating _)), ⟨.store _ (.createExclusive _), .ok false⟩ =>
      some (id, a.marker)
    | some (_, .locking a (.probing _)), ⟨.store _ (.probe _), .ok true⟩ => some (id, a.marker)
    | _, _ => none
  | served _ _ _ => none

/-- The error of a write that finds the marker taken. -/
def Write.taken (marker : Path) : Error :=
  .lockNotAcquired marker "held by another writer"

namespace Scene

variable {ε : Type} {w : World ε} {c c' : Scene ε}

/-- A write has ended because it found the marker taken, or has nothing left to do but to end. -/
def Declines (c : Scene ε) (i : TaskId) (marker : Path) : Prop :=
  c.gateway.result? i = some (.operated (.error (Write.taken marker))) ∨
    ∃ t a, c.gateway.write? i = some (t, .locking a (.retreating none)) ∧ a.marker = marker

/-- Whoever has found the marker taken declines, and nothing was copied for it. -/
structure Declining (c : Scene ε) : Prop where
  copied : ∀ i t reply, .served i t reply ∈ c.history → t.isCopying = true →
    ∃ t', c.gateway.task? i = some t' ∧ t'.isEarly = false
  declines : ∀ e i marker, e ∈ c.history → e.refusal? = some (i, marker) → c.Declines i marker
  silent : ∀ e i marker t reply, e ∈ c.history → e.refusal? = some (i, marker) →
    .served i t reply ∈ c.history → t.isCopying = false

theorem declining_start (writer : Diagnostics) (world : ε) : (start writer world).Declining where
  copied := fun i t reply h => by cases h
  declines := fun e i marker h => by cases h
  silent := fun e i marker t reply h => by cases h

/-- A task that is past its acquisition stays so. -/
theorem Unfolds.late (hu : Unfolds w c c') {i : TaskId} {t : Task}
    (ht : c.gateway.task? i = some t) (he : t.isEarly = false) :
    ∃ t', c'.gateway.task? i = some t' ∧ t'.isEarly = false := by
  -- otherwise the task would be early afterwards, and so it would have been before
  by_contra hnone
  have hearly := hu.early (i := i) (fun t' ht' => ?_) t ht
  · rw [he] at hearly
    cases hearly
  · by_contra hlate
    exact hnone ⟨t', ht', Bool.eq_false_iff.2 hlate⟩

theorem Declines.goes {handle : HandleId} {target : Write.Target} {place : Write.Place}
    {reply : Reply} {step : Step Write.Place (Except Error Nat)} {writer : Diagnostics}
    {s s' : Shared} {a : Acquire} (h : place = .locking a (.retreating none))
    (move : Write.Goes writer target s place reply step s') :
    (Task.ofOperation handle (Operation.writeStep target step) s').1 =
      .finished (.operated (.error (Write.taken a.marker))) := by
  subst h
  generalize hplace : (Write.Place.locking a (.retreating none) : Write.Place) = place at move
  cases move with
  | locks a' p p' reply s' move =>
    cases hplace
    generalize hstep :
      (Step.paused (LeaseOp.acquire a p') : Step LeaseOp LeaseOp.Ending) = step at move
    cases move with
    | retreated => cases hstep
  | refused a' error s' move =>
    cases hplace
    rfl
  | _ => cases hplace

/-- Whoever declines goes on doing so while another task goes on. -/
theorem Declines.other {i id : TaskId} {marker : Path} {t t' : Task} {s : Shared}
    (h : c.Declines i marker) (hid : i ≠ id) (task : c.gateway.task? id = some t)
    (hgateway : c'.gateway = ⟨s, c.gateway.tasks.set id t'⟩) : c'.Declines i marker := by
  rcases h with hresult | ⟨target, a, hw, hmarker⟩
  · left
    rw [Gateway.result?_eq] at hresult ⊢
    rw [hgateway, Gateway.task?_set task, Function.update_of_ne hid]
    exact hresult
  · right
    refine ⟨target, a, ?_, hmarker⟩
    rw [hgateway, Gateway.write?_set task, Function.update_of_ne hid]
    exact hw

theorem Unfolds.declines (hu : Unfolds w c c') {i : TaskId} {marker : Path}
    (h : c.Declines i marker) : c'.Declines i marker := by
  cases hu with
  | rests _ rests =>
    rcases h with hresult | ⟨t, a, hw, hmarker⟩
    · exact Or.inl (rests.finished i _ hresult)
    · exact Or.inr ⟨t, a, by rw [rests.write?]; exact hw, hmarker⟩
  | serves => exact h
  | goes id handle target place reply step s s' t' task inbox move next agrees =>
    by_cases hid : i = id
    · -- it had nothing left to do but to end
      subst hid
      left
      rw [Gateway.result?_eq, Gateway.task?_set task, Function.update_self, next]
      rcases h with hresult | ⟨t, a, hw, rfl⟩
      · rw [Gateway.result?_eq, task] at hresult
        cases hresult
      · rw [Gateway.write?_eq task] at hw
        cases hw
        rw [Declines.goes rfl move]
    · exact h.other hid task rfl
  | begins id t reply handle target place s task unwritten unfinished begins =>
    -- whoever declines has come to its write long ago
    have hid : i ≠ id := by
      intro heq
      subst heq
      rcases h with hresult | ⟨t', a, hw, -⟩
      · rw [Gateway.result?_eq, task] at hresult
        exact unfinished _ (Option.some.inj hresult)
      · rw [Gateway.write?_eq task, unwritten] at hw
        cases hw
    exact h.other hid task rfl

theorem refusal?_unwritten {id : TaskId} {t : Task} {reply : Reply} (h : t.write? = none) :
    (Entry.resumed id t reply).refusal? = none := by
  simp [Entry.refusal?, h]

/-- A write that finds the marker taken steps back. -/
theorem goes_of_refusal {id : TaskId} {handle : HandleId} {target : Write.Target}
    {place : Write.Place} {reply : Reply} {step : Step Write.Place (Except Error Nat)}
    {writer : Diagnostics} {s s' : Shared} (move : Write.Goes writer target s place reply step s')
    {i : TaskId} {marker : Path}
    (h : (Entry.resumed id (.operating handle (.writing target place)) reply).refusal? =
      some (i, marker)) :
    i = id ∧ ∃ a p, place = .locking a p ∧ a.marker = marker ∧
      step = .paused (.locking a (.retreating none)) := by
  simp only [Entry.refusal?, Task.write?] at h
  split at h
  · next hw =>
    cases hw
    cases h
    -- somebody else has created the marker
    refine ⟨rfl, _, _, rfl, rfl, ?_⟩
    cases move with
    | locks _ _ p' _ s' move =>
      cases move
      rfl
  · next hw =>
    cases hw
    cases h
    -- the marker is there already
    refine ⟨rfl, _, _, rfl, rfl, ?_⟩
    cases move with
    | locks _ _ p' _ s' move =>
      cases move
      rfl
  · cases h

/-- Whatever is served is known already, or is the request of a task that stays as it is. -/
theorem Unfolds.served (hu : Unfolds w c c') {i : TaskId} {t : Task} {reply : Reply}
    (h : .served i t reply ∈ c'.history) :
    .served i t reply ∈ c.history ∨ c'.gateway = c.gateway ∧ c.gateway.task? i = some t ∧
      ∀ result, t ≠ .finished result := by
  cases hu with
  | rests _ rests =>
    rcases rests.history with hsame | ⟨id, t', reply', -, hcons⟩
    · exact Or.inl (hsame ▸ h)
    · rw [hcons] at h
      rcases List.mem_cons.1 h with heq | hmem
      · cases heq
      · exact Or.inl hmem
  | serves id t' p task pending inbox =>
    rcases List.mem_cons.1 h with heq | hmem
    · cases heq
      obtain ⟨t₀, q, ht₀, hq, -⟩ := Gateway.pending?_eq pending
      rw [task] at ht₀
      cases ht₀
      refine Or.inr ⟨rfl, task, fun result heq => ?_⟩
      rw [heq] at hq
      cases hq
    · exact Or.inl hmem
  | goes | begins =>
    rcases List.mem_cons.1 h with heq | hmem
    · cases heq
    · exact Or.inl hmem

/-- Whatever is refused is known already, or is a write that has not come to its copy. -/
theorem Unfolds.refused (hu : Unfolds w c c') {e : Entry} {i : TaskId} {marker : Path}
    (hmem : e ∈ c'.history) (he : e.refusal? = some (i, marker)) :
    e ∈ c.history ∨ c'.Declines i marker ∧ (∃ t, c.gateway.task? i = some t ∧ t.isEarly = true) ∧
      ∀ j t reply, .served j t reply ∈ c'.history → .served j t reply ∈ c.history := by
  cases hu with
  | rests _ rests =>
    rcases rests.history with hsame | ⟨id, t', reply', hwrite, hcons⟩
    · exact Or.inl (hsame ▸ hmem)
    · rw [hcons] at hmem
      rcases List.mem_cons.1 hmem with rfl | hmem
      · rw [refusal?_unwritten hwrite] at he
        cases he
      · exact Or.inl hmem
  | serves id t' p task pending inbox =>
    rcases List.mem_cons.1 hmem with rfl | hmem
    · cases he
    · exact Or.inl hmem
  | goes id handle target place reply step s s' t' task inbox move next agrees =>
    rcases List.mem_cons.1 hmem with rfl | hmem
    · right
      obtain ⟨rfl, a, p, rfl, rfl, rfl⟩ := goes_of_refusal move he
      refine ⟨Or.inr ⟨target, a, ?_, rfl⟩, ⟨_, task, rfl⟩, fun j t reply' hj => ?_⟩
      · rw [Gateway.write?_set task, Function.update_self, next]
        rfl
      · rcases List.mem_cons.1 hj with heq | hj
        · cases heq
        · exact hj
    · exact Or.inl hmem
  | begins id t' reply handle target place s task unwritten unfinished begins =>
    rcases List.mem_cons.1 hmem with rfl | hmem
    · rw [refusal?_unwritten unwritten] at he
      cases he
    · exact Or.inl hmem

/-- Whoever declines copies nothing. -/
theorem Declines.not_copying {i : TaskId} {marker : Path} {t : Task} (h : c.Declines i marker)
    (ht : c.gateway.task? i = some t) (hf : ∀ result, t ≠ .finished result) :
    t.isCopying = false := by
  rcases h with hresult | ⟨target, a, hw, -⟩
  · rw [Gateway.result?_eq, ht] at hresult
    exact absurd (Option.some.inj hresult) (hf _)
  · rw [Gateway.write?_eq ht] at hw
    simp [Task.isCopying, hw]

theorem Declining.unfolds (h : c.Declining) (hu : Unfolds w c c') : c'.Declining := by
  constructor
  · intro i t reply hmem hc
    rcases hu.served hmem with hold | ⟨hsame, ht, -⟩
    · -- what was copied before has made its task late for good
      obtain ⟨t', ht', he⟩ := h.copied i t reply hold hc
      exact hu.late ht' he
    · rw [hsame]
      exact ⟨t, ht, Task.not_early_of_copying hc⟩
  · intro e i marker hmem he
    rcases hu.refused hmem he with hold | ⟨hnew, -⟩
    · exact hu.declines (h.declines e i marker hold he)
    · exact hnew
  · intro e i marker t reply hmem he hserved
    rcases hu.refused hmem he with hold | ⟨-, ⟨t', ht', hearly⟩, hkept⟩
    · rcases hu.served hserved with hbefore | ⟨-, ht, hunfinished⟩
      · exact h.silent e i marker t reply hold he hbefore
      · exact (h.declines e i marker hold he).not_copying ht hunfinished
    · -- what was copied for a task before would have made it late
      by_contra hc
      obtain ⟨t'', ht'', hlate⟩ := h.copied i t reply (hkept i t reply hserved)
        (Bool.not_eq_false _ ▸ hc)
      rw [ht'] at ht''
      cases ht''
      rw [hearly] at hlate
      cases hlate

end Scene

end FileGateway

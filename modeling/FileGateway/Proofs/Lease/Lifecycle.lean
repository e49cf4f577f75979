import Mathlib.Logic.Function.Basic
import FileGateway.Proofs.Lease.LeaseOp

/-!
# The life of a lease

How the stage of a lease, what it holds and the lease operations about it go together:

* a lease is acquiring while somebody acquires it, and holds something from just before it becomes
  active until whoever gave it up has taken it;
* at most one task acquires a lease, and at most one gives it up.

`Orderly` says so of a state and the lease operations of its tasks. It is preserved by everything
that begins (`Orderly.begins`) and by every move of a lease operation (`Orderly.moves`).
-/

namespace FileGateway

theorem Shared.Agrees.lease? {s s' : Shared} (h : s.Agrees s') (id : LeaseId) :
    s'.lease? id = s.lease? id := by
  rw [Shared.lease?, Shared.lease?, h.leases]

theorem Shared.lease?_modifyLease (s : Shared) (id n : LeaseId) (f : Lease → Lease) :
    (s.modifyLease id f).lease? n = if id = n then (s.lease? n).map f else s.lease? n := by
  simp only [Shared.lease?, Shared.modifyLease, List.getElem?_modify]
  split <;> simp

theorem Shared.lease?_addLease {s : Shared} {l l' : Lease} {n : LeaseId}
    (h : (s.addLease l).2.lease? n = some l') : s.lease? n = some l' ∨ l' = l := by
  have hl : (s.leases ++ [l])[n]? = some l' := h
  rw [List.getElem?_append] at hl
  split at hl
  · exact Or.inl hl
  · right
    have hmem := List.mem_of_getElem? hl
    simpa using hmem

/-- The stages of a lease that can follow each other. -/
inductive LeaseState.Precedes : LeaseState → LeaseState → Prop where
  | attempt : Precedes idle acquiring
  | fail : Precedes acquiring idle
  | succeed : Precedes acquiring active
  | giveUp : Precedes active released

/-- An idle lease holds nothing, and an active one holds something. -/
structure Lease.Sound (l : Lease) : Prop where
  idle : l.state = .idle → l.held = none
  active : l.state = .active → l.held ≠ none

namespace LeaseOp

/-- The stage of a lease, and what it holds, while a lease operation stands where it stands. -/
def Fits : LeaseOp → Lease → Prop
  | acquire a (.activating bid), l => l.state = .acquiring ∧ l.held = some ⟨a.backend, bid.marker⟩
  | acquire _ .arming, l => l.state = .active ∨ l.state = .released
  | acquire _ _, l => l.state = .acquiring ∧ l.held = none
  | surrender _ .taking, l => l.state = .released ∧ l.held ≠ none
  | surrender _ _, l => l.state = .released ∧ l.held = none

/-- Whoever acquires a lease that somebody gives up has only its timer to start. -/
theorem Fits.arming {a : Acquire} {place : Acquire.Place} {l : Lease}
    (h : (acquire a place).Fits l) (hl : l.state = .released) : place = .arming := by
  cases place <;> simp [Fits, hl] at h ⊢

theorem Fits.released {r : Surrender} {place : Surrender.Place} {l : Lease}
    (h : (surrender r place).Fits l) : l.state = .released := by
  cases place <;> exact h.1

theorem Fits.ne_idle {d : LeaseOp} {l : Lease} (h : d.Fits l) : l.state ≠ .idle := by
  intro hl
  cases d with
  | acquire a place => cases place <;> simp [Fits, hl] at h
  | surrender r place =>
    have hr := h.released
    simp [hl] at hr

/-- No lease operation depends on the timer of its lease. -/
theorem Fits.retime {d : LeaseOp} {l : Lease} {timer : Timer} (h : d.Fits l) :
    d.Fits { l with timer := timer } := by
  cases d with
  | acquire a place => cases place <;> exact h
  | surrender r place => cases place <;> exact h

/-! ## What a move makes of a lease -/

/-- What the next move of a lease operation makes of its lease. -/
def change (now : Instant) : LeaseOp → Lease → Lease
  | acquire a (.holding bid), l => { l with held := some ⟨a.backend, bid.marker⟩ }
  | acquire _ (.activating _), l => { l with state := .active }
  | acquire a .arming, l => { l with timer := l.timer.arm (now + a.expiry.nanos) }
  | acquire _ (.retreating _), l => { l with state := .idle }
  | surrender _ .taking, l => { l with held := none }
  | surrender _ (.cancelling _), l => { l with timer := .cancelled }
  | _, l => l

theorem modify_eq_self {leases : List Lease} {id : LeaseId} {f : Lease → Lease}
    (h : ∀ l, leases[id]? = some l → f l = l) : leases.modify id f = leases := by
  refine List.ext_getElem? fun n => ?_
  rw [List.getElem?_modify]
  by_cases hn : id = n
  · subst hn
    cases hl : leases[id]? with
    | none => simp
    | some l => simp [h l hl]
  · simp [hn]

theorem Moves.leases {writer : Diagnostics} {s s' : Shared} {d : LeaseOp} {reply : Reply}
    {step : Step LeaseOp Ending} (h : d.Moves writer s reply step s') :
    s'.leases = s.leases.modify d.lease (d.change s.now) := by
  cases h with
  | held a bid => rfl
  | activated a bid => rfl
  | armed a => rfl
  | retreated a error => rfl
  | taken r held h => rfl
  | cancelled r held => rfl
  | empty r h =>
    refine (modify_eq_self fun l hl => ?_).symm
    have hheld : l.held = none := by
      have hfound : s.lease? r.lease = some l := hl
      rw [hfound] at h
      exact h
    cases l
    cases hheld
    rfl
  | _ => exact (modify_eq_self fun _ _ => rfl).symm

/-- A move changes its own lease only. -/
theorem Moves.lease? {writer : Diagnostics} {s s₁ s' : Shared} {d : LeaseOp} {reply : Reply}
    {step : Step LeaseOp Ending} (h : d.Moves writer s reply step s₁) (ha : s'.leases = s₁.leases)
    (n : LeaseId) : s'.lease? n =
      if d.lease = n then (s.lease? n).map (d.change s.now) else s.lease? n := by
  rw [Shared.lease?, ha, h.leases]
  exact Shared.lease?_modifyLease s d.lease n (d.change s.now)

/-- A move stays with its lease and its purpose. -/
theorem Moves.lease {writer : Diagnostics} {s s' : Shared} {d e : LeaseOp} {reply : Reply}
    (h : d.Moves writer s reply (.paused e) s') :
    e.lease = d.lease ∧ e.isAcquire = d.isAcquire := by
  cases h <;> exact ⟨rfl, rfl⟩

/-- Where a move ends, the lease is as it has to be there. -/
theorem Moves.fits {writer : Diagnostics} {s s' : Shared} {d e : LeaseOp} {reply : Reply}
    (h : d.Moves writer s reply (.paused e) s') {l : Lease} (hl : s.lease? d.lease = some l)
    (hd : d.Fits l) : e.Fits (d.change s.now l) := by
  cases h with
  | granted a bid =>
    split <;> exact hd
  | held a bid => exact ⟨hd.1, rfl⟩
  | activated a bid => exact Or.inl rfl
  | taken r held h =>
    split <;> exact ⟨hd.1, rfl⟩
  | cancelled r held => exact hd
  | _ => exact hd

/-- What a lease operation makes of its lease suits whoever is about the same lease with the other
purpose. -/
theorem Fits.change_other {d e : LeaseOp} {l : Lease} (hd : d.Fits l) (he : e.Fits l)
    (hne : e.isAcquire ≠ d.isAcquire) (now : Instant) : e.Fits (d.change now l) := by
  cases d with
  | acquire a place =>
    cases e with
    | acquire b place' => exact absurd rfl hne
    | surrender r place' =>
      -- whoever acquires a lease that is given up only starts the timer, which no lease operation
      -- depends on
      have hplace := hd.arming he.released
      subst hplace
      cases place' <;> exact he
  | surrender r place =>
    cases e with
    | surrender r' place' => exact absurd rfl hne
    | acquire a place' =>
      have hplace := he.arming hd.released
      subst hplace
      cases place <;> exact he

theorem Fits.change_sound {d : LeaseOp} {l : Lease} (hd : d.Fits l) (hl : l.Sound) (now : Instant) :
    (d.change now l).Sound := by
  cases d with
  | acquire a place =>
    cases place with
    | holding bid =>
      constructor
      · intro h
        simp [change, hd.1] at h
      · intro _
        simp [change]
    | activating bid =>
      -- it holds its marker already, so it may become active
      constructor
      · intro h
        simp [change] at h
      · intro _
        simp [change, hd.2]
    | arming => exact ⟨hl.idle, hl.active⟩
    | retreating error =>
      constructor
      · intro _
        exact hd.2
      · intro h
        simp [change] at h
    | _ => exact hl
  | surrender r place =>
    cases place with
    | taking =>
      -- it is released by now, so it need not hold anything
      constructor
      · intro _
        rfl
      · intro h
        simp [change, hd.1] at h
    | cancelling held => exact ⟨hl.idle, hl.active⟩
    | removing removal => exact hl

end LeaseOp

/-! ## Stages -/

/-- The stage of a lease, if there is the lease. -/
def Shared.stage? (s : Shared) (id : LeaseId) : Option LeaseState :=
  (s.lease? id).map Lease.state

theorem Shared.stage?_modifyLease {s : Shared} {id n : LeaseId} {l : Lease} {f : Lease → Lease}
    (h : s.lease? id = some l) :
    (s.modifyLease id f).stage? n = if id = n then some (f l).state else s.stage? n := by
  rw [stage?, lease?_modifyLease]
  split
  · next hn =>
    rw [← hn, h]
    rfl
  · rfl

theorem Shared.stage?_addLease {s : Shared} {l : Lease} (n : LeaseId) :
    (s.addLease l).2.stage? n = s.stage? n ∨
      s.stage? n = none ∧ (s.addLease l).2.stage? n = some l.state := by
  have hget : (s.addLease l).2.lease? n = (s.leases ++ [l])[n]? := rfl
  rw [stage?, hget, List.getElem?_append]
  split
  · exact Or.inl rfl
  · next hn =>
    have hnone : s.stage? n = none := by simp [stage?, lease?, Nat.le_of_not_lt hn]
    rw [List.getElem?_singleton, hnone]
    split
    · exact Or.inr ⟨rfl, rfl⟩
    · exact Or.inl rfl

theorem Shared.Agrees.stage? {s s' : Shared} (h : s.Agrees s') (n : LeaseId) :
    s'.stage? n = s.stage? n := by
  rw [Shared.stage?, Shared.stage?, h.lease?]

/-- What can become of the stage of a lease when something begins. -/
inductive StageBegins (d : Option LeaseOp) (n : LeaseId) :
    Option LeaseState → Option LeaseState → Prop where
  | same (stage : Option LeaseState) : StageBegins d n stage stage
  | made (stage : LeaseState) (early : stage = .idle ∨ stage = .acquiring) :
    StageBegins d n none (some stage)
  | attempted : StageBegins d n (some .idle) (some .acquiring)
  | givenUp (r : Surrender) (leaseOp : d = some (.surrender r .taking)) (lease : r.lease = n) :
    StageBegins d n (some .active) (some .released)

theorem Begins.stage {s s' : Shared} {d : Option LeaseOp} (h : Begins s d s') (n : LeaseId) :
    StageBegins d n (s.stage? n) (s'.stage? n) := by
  cases h with
  | nothing agrees =>
    rw [agrees.stage?]
    exact .same _
  | lease target lease fresh agrees =>
    rw [agrees.stage?]
    rcases Shared.stage?_addLease (s := s) (l := lease) n with h | ⟨hnone, hsome⟩
    · rw [h]
      exact .same _
    · rw [hnone, hsome]
      exact .made _ (Or.inl (Lease.state_fresh fresh).1)
  | attempt a l found idle marker agrees =>
    rw [agrees.stage?, Shared.stage?_modifyLease found]
    split
    · next hn =>
      have hstage : s.stage? n = some .idle := by rw [← hn, Shared.stage?, found, ← idle]; rfl
      rw [hstage]
      exact .attempted
    · exact .same _
  | acquisition target lease a fresh id marker agrees =>
    have hfound : (s.addLease lease).2.lease? a.lease = some lease := by
      simp [Shared.addLease, Shared.lease?, id]
    rw [agrees.stage?, Shared.stage?_modifyLease hfound]
    split
    · next hn =>
      have hstage : s.stage? n = none := by simp [Shared.stage?, Shared.lease?, ← hn, id]
      rw [hstage]
      exact .made _ (Or.inr rfl)
    · rcases Shared.stage?_addLease (s := s) (l := lease) n with h | ⟨hnone, hsome⟩
      · rw [h]
        exact .same _
      · rw [hnone, hsome]
        exact .made _ (Or.inl (Lease.state_fresh fresh).1)
  | surrender r l timer found active agrees =>
    rw [agrees.stage?, Shared.stage?_modifyLease found]
    split
    · next hn =>
      have hstage : s.stage? n = some .active := by
        rw [← hn, Shared.stage?, found, ← active]
        rfl
      rw [hstage]
      exact .givenUp r rfl hn
    · exact .same _
  | late id l found inactive agrees =>
    rw [agrees.stage?, Shared.stage?_modifyLease found]
    split
    · next hn =>
      have hstage : s.stage? n = some l.state := by rw [← hn, Shared.stage?, found]; rfl
      rw [hstage]
      exact .same _
    · exact .same _

/-- What begins is that a lease is given up. -/
def GivesUp (d : Option LeaseOp) (n : LeaseId) : Prop :=
  ∃ r place, d = some (.surrender r place) ∧ r.lease = n

theorem Begins.gives_up {s s' : Shared} {d : Option LeaseOp} (h : Begins s d s') {n : LeaseId}
    (hd : GivesUp d n) : s.stage? n = some .active ∧ s'.stage? n = some .released := by
  obtain ⟨r, place, rfl, rfl⟩ := hd
  cases h with
  | surrender r l timer found active agrees =>
    constructor
    · rw [Shared.stage?, found, ← active]
      rfl
    · rw [agrees.stage?, Shared.stage?_modifyLease found, if_pos rfl]

/-- A lease that nobody begins to give up is active or released just if it was before. -/
theorem Begins.late_stage {s s' : Shared} {d : Option LeaseOp} (h : Begins s d s') {n : LeaseId}
    (hd : ¬ GivesUp d n) {stage : LeaseState} (hlate : stage = .active ∨ stage = .released) :
    s'.stage? n = some stage ↔ s.stage? n = some stage := by
  have hbegins := h.stage n
  revert hbegins
  generalize s.stage? n = before
  generalize s'.stage? n = after
  intro hbegins
  cases hbegins with
  | same => rfl
  | made stage' early => rcases early with rfl | rfl <;> rcases hlate with rfl | rfl <;> simp
  | attempted => rcases hlate with rfl | rfl <;> simp
  | givenUp r leaseOp lease => exact absurd ⟨r, _, leaseOp, lease⟩ hd

/-- What can become of the stage of a lease when a lease operation makes a move. -/
inductive StageMoves (d : LeaseOp) (n : LeaseId) :
    Option LeaseState → Option LeaseState → Prop where
  | same (stage : Option LeaseState) : StageMoves d n stage stage
  | failed (lease : d.lease = n) : StageMoves d n (some .acquiring) (some .idle)
  | succeeded (a : Acquire) (bid : Acquire.Bid) (leaseOp : d = .acquire a (.activating bid))
      (lease : a.lease = n) : StageMoves d n (some .acquiring) (some .active)

/-- A move releases no lease, and a released one stays so. -/
theorem StageMoves.released {d : LeaseOp} {n : LeaseId} {before after : Option LeaseState}
    (h : StageMoves d n before after) : after = some .released ↔ before = some .released := by
  cases h with
  | same => rfl
  | failed => simp
  | succeeded => simp

/-- A lease that is active or released stays what it is. -/
theorem StageMoves.late {d : LeaseOp} {n : LeaseId} {before after : Option LeaseState}
    (h : StageMoves d n before after)
    (hlate : before = some .active ∨ before = some .released) : after = before := by
  cases h with
  | same => rfl
  | failed => simp at hlate
  | succeeded => simp at hlate

theorem LeaseOp.Moves.stage {writer : Diagnostics} {s s' : Shared} {d : LeaseOp} {reply : Reply}
    {step : Step LeaseOp Ending} (h : d.Moves writer s reply step s') {l : Lease}
    (hl : s.lease? d.lease = some l) (hd : d.Fits l) (n : LeaseId) :
    StageMoves d n (s.stage? n) (s'.stage? n) := by
  have hafter : s'.stage? n = (s.modifyLease d.lease (d.change s.now)).stage? n := by
    rw [Shared.stage?, Shared.lease?, h.leases]
    rfl
  rw [hafter, Shared.stage?_modifyLease hl]
  split
  · next hn =>
    have hstage : s.stage? n = some l.state := by rw [← hn, Shared.stage?, hl]; rfl
    rw [hstage]
    cases d with
    | acquire a place =>
      cases place with
      | activating bid =>
        rw [hd.1]
        exact .succeeded a bid rfl hn
      | retreating error =>
        rw [hd.1]
        exact .failed hn
      | _ => exact .same _
    | surrender r place => cases place <;> exact .same _
  · exact .same _

/-- What a lease holds it goes on holding when something begins. -/
theorem Begins.still_held {s s' : Shared} {d : Option LeaseOp} (h : Begins s d s') {n : LeaseId}
    {l : Lease} {held : Held} (hl : s.lease? n = some l) (hh : l.held = some held) :
    ∃ l', s'.lease? n = some l' ∧ l'.held = some held := by
  have hmodify : ∀ {t : Shared} {id : LeaseId} {f : Lease → Lease}, t.lease? n = some l →
      (t.modifyLease id f).Agrees s' → (∀ l, (f l).held = l.held) →
        ∃ l', s'.lease? n = some l' ∧ l'.held = some held := by
    intro t id f ht ha hf
    rw [ha.lease?, Shared.lease?_modifyLease, ht]
    split
    · exact ⟨f l, rfl, (hf l).trans hh⟩
    · exact ⟨l, rfl, hh⟩
  -- a new lease comes after all others
  have hadd : ∀ lease : Lease, (s.addLease lease).2.lease? n = some l := fun lease =>
    (List.getElem?_append_left (List.getElem?_eq_some_iff.1 hl).1).trans hl
  cases h with
  | nothing agrees => exact ⟨l, (agrees.lease? n).trans hl, hh⟩
  | lease target lease fresh agrees => exact ⟨l, (agrees.lease? n).trans (hadd lease), hh⟩
  | attempt a l found idle marker agrees => exact hmodify hl agrees fun _ => rfl
  | acquisition target lease a fresh id marker agrees =>
    exact hmodify (hadd lease) agrees fun _ => rfl
  | surrender r l timer found active agrees => exact hmodify hl agrees fun _ => rfl
  | late id l found inactive agrees => exact hmodify hl agrees fun _ => rfl

/-! ## The invariant -/

/-- Every lease is sound, every lease operation finds its lease as it has to be, and of the lease
operations about one lease at most one acquires it and at most one gives it up. -/
structure Orderly (s : Shared) (leaseOps : TaskId → Option LeaseOp) : Prop where
  sound : ∀ id l, s.lease? id = some l → l.Sound
  fits : ∀ i d, leaseOps i = some d → ∃ l, s.lease? d.lease = some l ∧ d.Fits l
  single : ∀ i j d e, leaseOps i = some d → leaseOps j = some e → d.lease = e.lease →
    d.isAcquire = e.isAcquire → i = j

namespace Orderly

variable {s s' s'' : Shared} {leaseOps : TaskId → Option LeaseOp} {i : TaskId} {d : LeaseOp}

theorem start (writer : Diagnostics) : Orderly (.start writer) fun _ => none where
  sound := fun id l h => by simp [Shared.start, Shared.lease?] at h
  fits := fun i d h => by cases h
  single := fun i j d e h => by cases h

theorem of_leases (h : Orderly s leaseOps) (hs : s'.leases = s.leases) : Orderly s' leaseOps := by
  have hlease : ∀ id, s'.lease? id = s.lease? id := fun id => by
    rw [Shared.lease?, Shared.lease?, hs]
  constructor
  · intro id l hl
    exact h.sound id l (hlease id ▸ hl)
  · intro i d hd
    obtain ⟨l, hl, hfits⟩ := h.fits i d hd
    exact ⟨l, (hlease d.lease).trans hl, hfits⟩
  · exact h.single

theorem addLease (h : Orderly s leaseOps) {l : Lease} (hl : l.state = .idle ∧ l.held = none) :
    Orderly (s.addLease l).2 leaseOps := by
  have hold : ∀ id l', s.lease? id = some l' → (s.addLease l).2.lease? id = some l' := by
    intro id l' h'
    exact (List.getElem?_append_left (List.getElem?_eq_some_iff.1 h').1).trans h'
  constructor
  · intro id l' hl'
    rcases Shared.lease?_addLease hl' with hl' | rfl
    · exact h.sound id l' hl'
    · constructor
      · intro _
        exact hl.2
      · intro hactive
        simp [hl.1] at hactive
  · intro i d hd
    obtain ⟨l', hl', hfits⟩ := h.fits i d hd
    exact ⟨l', hold d.lease l' hl', hfits⟩
  · exact h.single

/-- One lease is changed, and one task gets a lease operation about it or loses the one it had. -/
theorem modify (h : Orderly s leaseOps) {id : LeaseId} {l : Lease} {f : Lease → Lease}
    {new : Option LeaseOp} (hl : s.lease? id = some l) (hsound : (f l).Sound)
    (hothers : ∀ j e, j ≠ i → leaseOps j = some e → e.lease = id → e.Fits l → e.Fits (f l))
    (hnew : ∀ d, new = some d → d.lease = id ∧ d.Fits (f l) ∧
      ∀ j e, j ≠ i → leaseOps j = some e → e.lease = id → e.isAcquire ≠ d.isAcquire) :
    Orderly (s.modifyLease id f) (Function.update leaseOps i new) := by
  have hlease : ∀ n, (s.modifyLease id f).lease? n =
      if id = n then some (f l) else s.lease? n := by
    intro n
    rw [Shared.lease?_modifyLease]
    split
    · next hn =>
      rw [← hn, hl]
      rfl
    · rfl
  constructor
  · intro n l' hl'
    rw [hlease] at hl'
    split at hl'
    · cases hl'
      exact hsound
    · exact h.sound n l' hl'
  · intro j e he
    by_cases hj : j = i
    · subst hj
      rw [Function.update_self] at he
      obtain ⟨rfl, hfits, -⟩ := hnew e he
      exact ⟨f l, by simp [hlease], hfits⟩
    · rw [Function.update_of_ne hj] at he
      obtain ⟨l', hl', hfits⟩ := h.fits j e he
      by_cases hid : id = e.lease
      · -- another lease operation about the same lease bears the change
        subst hid
        rw [hl] at hl'
        cases hl'
        exact ⟨f l, by simp [hlease], hothers j e hj he rfl hfits⟩
      · exact ⟨l', by simp [hlease, hid, hl'], hfits⟩
  · -- two lease operations about one lease with one purpose: neither or both are the new one
    intro j k d e hd he hde hkind
    by_cases hj : j = i <;> by_cases hk : k = i
    · rw [hj, hk]
    · rw [hj, Function.update_self] at hd
      rw [Function.update_of_ne hk] at he
      obtain ⟨hid, -, hne⟩ := hnew d hd
      exact absurd hkind.symm (hne k e hk he (hde ▸ hid))
    · rw [Function.update_of_ne hj] at hd
      rw [hk, Function.update_self] at he
      obtain ⟨hid, -, hne⟩ := hnew e he
      exact absurd hkind (hne j d hj hd (hde.symm ▸ hid))
    · rw [Function.update_of_ne hj] at hd
      rw [Function.update_of_ne hk] at he
      exact h.single j k d e hd he hde hkind

/-- An idle lease is acquired: nobody has a lease operation about it yet. -/
theorem attempt (h : Orderly s leaseOps) {a : Acquire} {l : Lease} (hl : s.lease? a.lease = some l)
    (hidle : l.state = .idle) :
    Orderly (s.modifyLease a.lease fun l => { l with state := .acquiring })
      (Function.update leaseOps i (some (.acquire a .resolving))) := by
  have hsound := h.sound _ l hl
  -- no lease operation fits an idle lease
  have hnone : ∀ j e, leaseOps j = some e → e.lease = a.lease → False := by
    intro j e he hid
    obtain ⟨l', hl', hfits⟩ := h.fits j e he
    rw [hid, hl] at hl'
    cases hl'
    exact hfits.ne_idle hidle
  refine h.modify hl ⟨fun h' => by simp at h', fun h' => by simp at h'⟩
    (fun j e _ he hid _ => (hnone j e he hid).elim) ?_
  intro d hd
  cases hd
  exact ⟨rfl, ⟨rfl, hsound.idle hidle⟩, fun j e _ he hid => (hnone j e he hid).elim⟩

/-- An active lease is given up: its timer may not have been started yet. -/
theorem surrender (h : Orderly s leaseOps) {r : Surrender} {l : Lease} {timer : Lease → Timer}
    (hl : s.lease? r.lease = some l) (hactive : l.state = .active) :
    Orderly (s.modifyLease r.lease fun l => { l with state := .released, timer := timer l })
      (Function.update leaseOps i (some (.surrender r .taking))) := by
  have hsound := h.sound _ l hl
  -- of the lease operations about an active lease only the start of its timer may be left
  have harming : ∀ e : LeaseOp, e.Fits l → ∃ a, e = .acquire a .arming := by
    intro e he
    cases e with
    | acquire a place => cases place <;> simp [LeaseOp.Fits, hactive] at he ⊢
    | surrender r place =>
      have hr := he.released
      simp [hactive] at hr
  refine h.modify hl ⟨fun h' => by simp at h', fun h' => by simp at h'⟩ ?_ ?_
  · intro j e _ _ _ hfits
    obtain ⟨a, rfl⟩ := harming e hfits
    exact Or.inr rfl
  · intro d hd
    cases hd
    refine ⟨rfl, ⟨rfl, hsound.active hactive⟩, fun j e _ he hid => ?_⟩
    obtain ⟨l', hl', hfits⟩ := h.fits j e he
    rw [hid, hl] at hl'
    cases hl'
    obtain ⟨a, rfl⟩ := harming e hfits
    simp

/-- Whatever begins keeps the leases in order. -/
theorem begins (h : Orderly s leaseOps) (hi : leaseOps i = none) {d : Option LeaseOp}
    (hb : Begins s d s') : Orderly s' (Function.update leaseOps i d) := by
  have hself : Function.update leaseOps i none = leaseOps := by
    rw [← hi]
    exact Function.update_eq_self i leaseOps
  cases hb with
  | nothing agrees =>
    rw [hself]
    exact h.of_leases agrees.leases
  | lease target lease fresh agrees =>
    rw [hself]
    exact (h.addLease (Lease.state_fresh fresh)).of_leases agrees.leases
  | attempt a l found idle marker agrees => exact (h.attempt found idle).of_leases agrees.leases
  | acquisition target lease a fresh id marker agrees =>
    have hfresh := Lease.state_fresh fresh
    have hfound : (s.addLease lease).2.lease? a.lease = some lease := by
      simp [Shared.addLease, Shared.lease?, id]
    exact ((h.addLease hfresh).attempt hfound hfresh.1).of_leases agrees.leases
  | surrender r l timer found active agrees =>
    exact (h.surrender found active).of_leases agrees.leases
  | late id l found inactive agrees =>
    -- only the timer of the lease is changed, and no task gets a lease operation
    have hsound := h.sound id l found
    have hnone : ∀ d, (none : Option LeaseOp) = some d → d.lease = id ∧
        d.Fits { l with timer := .fired } ∧
        ∀ j e, j ≠ i → leaseOps j = some e → e.lease = id → e.isAcquire ≠ d.isAcquire := by
      intro d hd
      cases hd
    exact (h.modify found ⟨hsound.idle, hsound.active⟩
      (fun j e _ _ _ hfits => hfits.retime) hnone).of_leases agrees.leases

/-- Every move of a lease operation keeps the leases in order. -/
theorem moves (h : Orderly s leaseOps) (hi : leaseOps i = some d) {writer : Diagnostics}
    {reply : Reply}
    {step : Step LeaseOp LeaseOp.Ending} (hm : d.Moves writer s reply step s'')
    (ha : s''.Agrees s') :
    Orderly s' (Function.update leaseOps i step.place?) := by
  obtain ⟨l, hl, hfits⟩ := h.fits i d hi
  -- another lease operation about this lease has the other purpose
  have hother : ∀ j e, j ≠ i → leaseOps j = some e → e.lease = d.lease →
      e.isAcquire ≠ d.isAcquire := by
    intro j e hj he hid hkind
    exact hj (h.single j i e d he hi hid hkind)
  have hafter : Orderly (s.modifyLease d.lease (d.change s.now))
      (Function.update leaseOps i step.place?) := by
    refine h.modify hl (hfits.change_sound (h.sound _ l hl) s.now) ?_ ?_
    · intro j e hj he hid he'
      exact hfits.change_other he' (hother j e hj he hid) s.now
    · intro e he
      cases step with
      | paused e' =>
        cases he
        obtain ⟨hid, hkind⟩ := hm.lease
        exact ⟨hid, hm.fits hl hfits, fun j e hj he hid' => hkind ▸ hother j e hj he hid'⟩
      | done result => cases he
  exact hafter.of_leases (ha.leases.trans hm.leases)

/-- What a lease holds that is about to be given up is left to whoever gives it up. -/
theorem still_held (h : Orderly s leaseOps) (hi : leaseOps i = some d) {writer : Diagnostics}
    {reply : Reply} {step : Step LeaseOp LeaseOp.Ending} (hm : d.Moves writer s reply step s'')
    (ha : s'.leases = s''.leases) {j : TaskId} {r : Surrender}
    (hj : leaseOps j = some (.surrender r .taking)) (hne : j ≠ i) :
    (s'.lease? r.lease).bind Lease.held = (s.lease? r.lease).bind Lease.held := by
  rw [hm.lease? ha]
  by_cases hlease : d.lease = r.lease
  · rw [if_pos hlease]
    obtain ⟨l, hl, hfits⟩ := h.fits i d hi
    obtain ⟨l', hl', hfits'⟩ := h.fits j _ hj
    have hsame : l' = l := by
      rw [hlease] at hl
      exact Option.some.inj (hl'.symm.trans hl)
    subst hsame
    cases d with
    | surrender r' place => exact absurd (h.single j i _ _ hj hi hlease.symm rfl) hne
    | acquire a place =>
      -- an acquisition that has made its lease active has the timer left to arm
      cases LeaseOp.Fits.arming hfits hfits'.1
      rw [show s.lease? r.lease = some l' from hl']
      rfl
  · rw [if_neg hlease]

end Orderly

end FileGateway

import FileGateway.Proofs.Gateway.Bystanders
import FileGateway.Proofs.Operation.Write
import Mathlib.Algebra.GroupWithZero.Nat

/-!
# How gateways come to rest

A gateway that is driven has only so much to do. `Gateway.toGo` bounds how many answers are left
until it rests: those that its tasks still wait for, and those that it takes to give a lease up for
each timer that is armed. Timers that run take nothing away from that and add nothing to it
(`toGo_fire`), and every answer takes something away (`toGo_resume`), as long as no transfer moves
more bytes than it was said to have (`Task.Within`). So a task that is driven with that much fuel
comes to its end (`drive_ends`), unless it waits for what nobody gives it.
-/

namespace FileGateway

open CommandLine (Transfer)

/-! ## Sums -/

/-- How the change of one entry shows in a sum over all entries. -/
theorem sum_map_set {α : Type} {f : α → Nat} {list : List α} {i : Nat} {a : α}
    (h : list[i]? = some a) (b : α) :
    ((list.set i b).map f).sum + f a = (list.map f).sum + f b := by
  induction list generalizing i with
  | nil => cases h
  | cons head rest ih =>
    cases i with
    | zero =>
      cases h
      simp only [List.set_cons_zero, List.map_cons, List.sum_cons]
      omega
    | succ i =>
      have hrest := ih (i := i) h
      simp only [List.set_cons_succ, List.map_cons, List.sum_cons]
      omega

theorem sum_map_modify {α : Type} {f : α → Nat} {list : List α} {i : Nat} {a : α}
    (h : list[i]? = some a) (change : α → α) :
    ((list.modify i change).map f).sum + f a = (list.map f).sum + f (change a) := by
  rw [List.modify_eq_set_getElem?, h]
  exact sum_map_set h (change a)

/-! ## What is left to be done -/

/-- How many answers are left at most until a lease is given up. -/
def Surrender.Place.toGo : Surrender.Place → Nat
  | taking => removalLimit + 2
  | cancelling _ => removalLimit + 1
  | removing removal => removalLimit - removal.attempt + 1

/-- How many answers a timer may cause. -/
def Timer.toGo : Timer → Nat
  | armed _ => Surrender.Place.toGo .taking
  | _ => 0

/-- How many answers are left at most of an acquisition, and of the timer that it arms. -/
def Acquire.Place.toGo : Acquire.Place → Nat
  | resolving => Surrender.Place.toGo .taking + 10
  | queued _ => Surrender.Place.toGo .taking + 9
  | probing _ => Surrender.Place.toGo .taking + 8
  | creating _ | filling _ => Surrender.Place.toGo .taking + 7
  | opening _ => Surrender.Place.toGo .taking + 6
  | writing _ _ => Surrender.Place.toGo .taking + 5
  | finishing _ _ => Surrender.Place.toGo .taking + 4
  | holding _ => Surrender.Place.toGo .taking + 3
  | activating _ => Surrender.Place.toGo .taking + 2
  | arming => Surrender.Place.toGo .taking + 1
  | cleaning _ _ => 2
  | retreating _ => 1

/-- How many answers are left at most of a copy of so many bytes. -/
def Copy.Place.toGo (size : Nat) : Copy.Place → Nat
  | opening => 2 * size + 3
  | pulling _ count => 2 * (size - count) + 2
  | writing _ count piece => 2 * (size - (count + piece.length)) + 3
  | finishing _ _ => 1

/-- How many answers are left at most of a read of so many bytes. -/
def Read.Place.toGo (size : Nat) : Read.Place → Nat
  | opening => 2 * size + 3
  | reading _ count => 2 * (size - count) + 2
  | pushing _ count piece => 2 * (size - (count + piece.length)) + 3
  | flushing _ => 1

/-- How many answers are left at most of a write of so many bytes. -/
def Write.Place.toGo (size : Nat) : Write.Place → Nat
  | locking _ place => place.toGo + (Copy.Place.toGo size .opening + Surrender.Place.toGo .taking)
  | copying _ place => place.toGo size + Surrender.Place.toGo .taking
  | unlocking _ _ place _ => place.toGo

/-- How many answers an operation takes at most that moves so many bytes. -/
def Operation.toGo (size : Nat) : Nat :=
  Acquire.Place.toGo .resolving +
    (Copy.Place.toGo size .opening + Surrender.Place.toGo .taking) + 1

/-- How many answers are left at most of an operation that moves so many bytes. -/
def Operation.Place.toGo (size : Nat) : Operation.Place → Nat
  | resolving _ _ => Operation.toGo size
  | probing _ _ | deleting _ _ => 1
  | reading _ _ place => place.toGo size
  | writing _ place => place.toGo size

/-- How many answers are left at most of a task that moves so many bytes. -/
def Task.toGo (size : Nat) : Task → Nat
  | acquiring _ place => place.toGo
  | releasing _ _ _ place | expiring _ place => place.toGo
  | operating _ place => place.toGo size
  | resolving _ | closing _ _ => 1
  | evicting _ rest _ => rest.length + 1
  | finished _ => 0

/-- How many answers the timers may cause. -/
def Shared.toGo (s : Shared) : Nat :=
  (s.leases.map fun l => l.timer.toGo).sum

/-- How many answers are left at most in a gateway whose transfers move so many bytes. -/
def Gateway.toGo (size : Nat) (g : Gateway) : Nat :=
  (g.tasks.map (Task.toGo size)).sum + g.shared.toGo

/-- How many answers are left at most after a step, by the place it comes to. -/
def Step.toGo {π ρ : Type} (toGo : π → Nat) : Step π ρ → Nat
  | paused place => toGo place
  | done _ => 0

/-- How many answers are left at most of a lease operation. -/
def LeaseOp.toGo : LeaseOp → Nat
  | acquire _ place => place.toGo
  | surrender _ place => place.toGo

/-- The piece that a task has at hand is within the bytes that it moves. -/
def Task.Within (size : Nat) : Task → Prop
  | operating _ (.reading _ _ (.pushing _ count piece))
  | operating _ (.writing _ (.copying _ (.writing _ count piece))) => count + piece.length ≤ size
  | _ => True

/-! ## Leases -/

namespace Shared

variable {s : Shared} {id : LeaseId}

theorem toGo_modifyLease {l : Lease} (h : s.lease? id = some l) (change : Lease → Lease) :
    (s.modifyLease id change).toGo + l.timer.toGo = s.toGo + (change l).timer.toGo :=
  sum_map_modify (f := fun l : Lease => l.timer.toGo) h change

/-- A lease is changed, and its timer is worth so much more at most. -/
theorem toGo_modifyLease_le {n : Nat} (change : Lease → Lease)
    (h : ∀ l, (change l).timer.toGo ≤ l.timer.toGo + n) (s : Shared) (id : LeaseId) :
    (s.modifyLease id change).toGo ≤ s.toGo + n := by
  cases hl : s.lease? id with
  | none =>
    have hsame : s.leases.modify id change = s.leases :=
      List.modify_eq_self (List.getElem?_eq_none_iff.1 hl)
    have htoGo : (s.modifyLease id change).toGo = s.toGo := by
      simp only [toGo, modifyLease, hsame]
    omega
  | some l =>
    have htoGo := toGo_modifyLease hl change
    have hle := h l
    omega

/-- A lease is changed, but not its timer. -/
theorem toGo_modifyLease_of_timer (change : Lease → Lease) (h : ∀ l, (change l).timer = l.timer)
    (s : Shared) (id : LeaseId) : (s.modifyLease id change).toGo ≤ s.toGo :=
  toGo_modifyLease_le (n := 0) change (fun l => by rw [h l]; exact Nat.le_refl _) s id

end Shared

theorem Timer.toGo_arm (deadline : Instant) (timer : Timer) :
    (timer.arm deadline).toGo ≤ timer.toGo + Surrender.Place.toGo .taking := by
  cases timer <;> simp [arm, toGo]

/-- A move of a lease operation takes something away from what is left. -/
theorem LeaseOp.Moves.toGo {writer : Diagnostics} {s s' : Shared} {d : LeaseOp} {reply : Reply}
    {step : Step LeaseOp LeaseOp.Ending} (h : d.Moves writer s reply step s') :
    step.toGo LeaseOp.toGo + s'.toGo < d.toGo + s.toGo := by
  cases h with
  | granted a bid =>
    refine Nat.add_lt_add_of_lt_of_le ?_ (Nat.le_refl _)
    cases a.backend.exclusiveCreate <;> simp [Step.toGo, LeaseOp.toGo, Acquire.Place.toGo]
  | armed a =>
    have hs := Shared.toGo_modifyLease_le
      (fun l => { l with timer := l.timer.arm (s.now + a.expiry.nanos) })
      (fun l => l.timer.toGo_arm _) s a.lease
    have hnote : ((s.modifyLease a.lease fun l =>
        { l with timer := l.timer.arm (s.now + a.expiry.nanos) }).noteTimer a.lease).toGo =
      (s.modifyLease a.lease fun l =>
        { l with timer := l.timer.arm (s.now + a.expiry.nanos) }).toGo := rfl
    simp only [Step.toGo, LeaseOp.toGo, Acquire.Place.toGo]
    omega
  | cancelled r held =>
    refine Nat.add_lt_add_of_lt_of_le (Nat.lt_succ_self _)
      (Shared.toGo_modifyLease_le (n := 0) _ (fun l => ?_) s r.lease)
    exact Nat.zero_le _
  | taken r held hheld =>
    refine Nat.add_lt_add_of_lt_of_le ?_ (Shared.toGo_modifyLease_of_timer _ ?_ s r.lease)
    · cases r.forced <;> simp [Step.toGo, LeaseOp.toGo, Surrender.Place.toGo, Removal.ofHeld,
        removalLimit]
    · exact fun _ => rfl
  | held a bid | activated a bid | retreated a error =>
    refine Nat.add_lt_add_of_lt_of_le ?_ (Shared.toGo_modifyLease_of_timer _ ?_ s a.lease)
    · simp [Step.toGo, LeaseOp.toGo, Acquire.Place.toGo]
    · exact fun _ => rfl
  | retried r removal f hless =>
    refine Nat.add_lt_add_of_lt_of_le ?_ (Nat.le_refl _)
    simp only [Step.toGo, LeaseOp.toGo, Surrender.Place.toGo]
    omega
  | _ =>
    refine Nat.add_lt_add_of_lt_of_le ?_ (Nat.le_refl _)
    simp [Step.toGo, LeaseOp.toGo, Acquire.Place.toGo, Surrender.Place.toGo]

/-! ## Operations -/

theorem Copy.Place.toGo_pos (size : Nat) (place : Copy.Place) : 0 < place.toGo size := by
  cases place <;> exact Nat.succ_pos _

theorem Copy.Goes.toGo {size : Nat} {b : Backend} {file : FileRef} {append : Bool}
    {p p' : Copy.Place} {reply : Reply} (h : Copy.Goes b file append p reply (.paused p'))
    (hwithin : ∀ stream count piece, p' = .writing stream count piece →
      count + piece.length ≤ size) : p'.toGo size < p.toGo size := by
  cases h with
  | opened stream => exact Nat.lt_succ_self _
  | ended stream count => exact Nat.lt_add_left _ Nat.one_lt_two
  | pulled stream count byte rest =>
    have hbound := hwithin stream count (byte :: rest) rfl
    simp only [Copy.Place.toGo, List.length_cons] at hbound ⊢
    omega
  | written stream count piece => exact Nat.lt_succ_self _

theorem Write.Goes.toGo {size : Nat} {writer : Diagnostics} {t : Write.Target} {s s' : Shared}
    {place : Write.Place} {reply : Reply} {step : Step Write.Place (Except Error Nat)}
    (h : Write.Goes writer t s place reply step s')
    (hwithin : ∀ lease stream count piece,
      step = .paused (.copying lease (.writing stream count piece)) →
        count + piece.length ≤ size) :
    step.toGo (Write.Place.toGo size) + s'.toGo < place.toGo size + s.toGo := by
  cases h with
  | locks a p p' reply s' move =>
    have hmove := move.toGo
    simp only [Step.toGo, LeaseOp.toGo, Write.Place.toGo]
      at hmove ⊢
    omega
  | locked a s' move =>
    have hmove := move.toGo
    simp only [Step.toGo, LeaseOp.toGo, Write.Place.toGo] at hmove ⊢
    omega
  | refused a error s' move =>
    have hmove := move.toGo
    simp only [Step.toGo, LeaseOp.toGo, Write.Place.toGo]
      at hmove ⊢
    omega
  | copies lease p p' reply move =>
    have hmove := move.toGo fun stream count piece hp' =>
      hwithin lease stream count piece (by rw [hp'])
    simp only [Step.toGo, Write.Place.toGo]
    omega
  | copied p reply result move =>
    have hpos := p.toGo_pos size
    simp only [Step.toGo, Write.Place.toGo]
    omega
  | unlocks id l p reply result move found active =>
    have hpos := p.toGo_pos size
    have hs := Shared.toGo_modifyLease_of_timer
      (fun l => { l with state := .released }) (fun _ => rfl) s id
    simp only [Step.toGo, Write.Place.toGo]
    omega
  | lost id p reply result move gone =>
    have hpos := p.toGo_pos size
    simp only [Step.toGo, Write.Place.toGo]
    omega
  | unlocking id marker p p' result reply s' move =>
    have hmove := move.toGo
    simp only [Step.toGo, LeaseOp.toGo, Write.Place.toGo]
      at hmove ⊢
    omega
  | unlocked id marker p result removed reply s' move =>
    have hmove := move.toGo
    simp only [Step.toGo, LeaseOp.toGo, Write.Place.toGo]
      at hmove ⊢
    omega

/-- A read makes a move. -/
theorem Read.toGo_next (size : Nat) (backend : Backend) (file : FileRef) (place : Read.Place)
    (answer : (next backend file place).request.Answer)
    (hwithin : ∀ stream count piece,
      (next backend file place).resume answer = .paused (.pushing stream count piece) →
        count + piece.length ≤ size) :
    ((next backend file place).resume answer).toGo (Read.Place.toGo size) < place.toGo size := by
  cases place with
  | opening =>
    rcases answer with f | stream
    · exact Nat.succ_pos _
    · exact Nat.lt_succ_self _
  | reading stream count =>
    rcases answer with f | (_ | ⟨byte, rest⟩)
    · exact Nat.succ_pos _
    · exact Nat.lt_add_left _ Nat.one_lt_two
    · have hbound := hwithin stream count (byte :: rest) rfl
      simp only [next, received, Step.toGo, Read.Place.toGo, List.length_cons] at hbound ⊢
      omega
  | pushing stream count piece =>
    rcases answer with f | _
    · exact Nat.succ_pos _
    · exact Nat.lt_succ_self _
  | flushing count => rcases answer with f | _ <;> exact Nat.one_pos

namespace Task

variable {size : Nat} {s : Shared}

theorem toGo_ofOperation (size : Nat) (id : HandleId)
    (step : Step Operation.Place (Except Error Effect)) (s : Shared) :
    (ofOperation id step s).1.toGo size = step.toGo (Operation.Place.toGo size) ∧
      (ofOperation id step s).2.toGo = s.toGo := by
  cases step <;> exact ⟨rfl, rfl⟩

theorem toGo_writeStep (size : Nat) (id : HandleId) (t : Write.Target)
    (step : Step Write.Place (Except Error Nat)) (s : Shared) :
    (ofOperation id (Operation.writeStep t step) s).1.toGo size =
        step.toGo (Write.Place.toGo size) ∧
      (ofOperation id (Operation.writeStep t step) s).2.toGo = s.toGo := by
  cases step <;> exact ⟨rfl, rfl⟩

end Task

/-- A write begins: its lease is made, whose timer is not armed yet. -/
theorem Write.toGo_start (size : Nat) (t : Target) (options : Options) (lock : LockConfig)
    (s : Shared) :
    (start t options lock s).1.toGo (Place.toGo size) + (start t options lock s).2.toGo ≤
      Acquire.Place.toGo .resolving +
        (Copy.Place.toGo size .opening + Surrender.Place.toGo .taking) + s.toGo := by
  unfold start
  cases lock.scheme with
  | none => exact Nat.add_le_add_right (Nat.le_add_left _ _) _
  | marker =>
    cases hfresh : Lease.fresh t.file.path with
    | error e => exact Nat.add_le_add_right (Nat.zero_le _) _
    | ok lease =>
      simp only
      rw [Acquire.start_fresh hfresh rfl]
      refine Nat.add_le_add_left (Nat.le_trans (Shared.toGo_modifyLease_of_timer _ ?_ _ _) ?_) _
      · exact fun _ => rfl
      · have hunset : lease.timer = .unset := by
          unfold Lease.fresh at hfresh
          split at hfresh
          · cases hfresh
            rfl
          · cases hfresh
        simp [Shared.addLease, Shared.toGo, hunset, Timer.toGo]

namespace Task

variable {size : Nat} {s : Shared}

/-- A path is resolved: what is left then was set aside for it. -/
theorem toGo_resolved (action : Action) (id : HandleId) (file : FileRef) (s : Shared) :
    (Operation.resolved action id file s).1.toGo (Operation.Place.toGo size) +
        (Operation.resolved action id file s).2.toGo ≤
      Acquire.Place.toGo .resolving +
        (Copy.Place.toGo size .opening + Surrender.Place.toGo .taking) + s.toGo := by
  unfold Operation.resolved
  cases s.handle? id with
  | none => exact Nat.add_le_add_right (Nat.zero_le _) _
  | some h =>
    cases action with
    | write mode =>
      have hstart := Write.toGo_start size ⟨h.backend, file, mode.append⟩ h.options
        (mode.lock.getD h.lock) s
      simp only
      generalize Write.start ⟨h.backend, file, mode.append⟩ h.options (mode.lock.getD h.lock) s =
        started at hstart ⊢
      obtain ⟨_ | _, s'⟩ := started <;> exact hstart
    | _ =>
      simp only [Step.toGo, Operation.Place.toGo, Read.Place.toGo, Copy.Place.toGo,
        Acquire.Place.toGo]
      omega

/-- A task whose only business is a lease has less to do than before. -/
theorem toGo_of_lone {t : Task} {d : LeaseOp} (hd : t.lone? = some d)
    {p : Pending (Shared → Task × Shared)} (hp : t.next? s = some p) (answer : p.request.Answer) :
    (p.resume answer s).1.toGo size + (p.resume answer s).2.toGo < t.toGo size + s.toGo := by
  obtain ⟨step, hm, hfollows⟩ := follows_next? hd hp answer
  have htoGo := hm.toGo
  generalize (p.resume answer s).1 = t' at hfollows ⊢
  cases hfollows <;> cases hd <;> exact htoGo

/-- So does one whose path was resolved, or not. -/
theorem toGo_resolving {id : HandleId} {action : Action} {r : Resolve}
    {p : Pending (Shared → Task × Shared)}
    (hp : (operating id (.resolving action r)).next? s = some p) (answer : p.request.Answer) :
    (p.resume answer s).1.toGo size + (p.resume answer s).2.toGo <
      (operating id (.resolving action r)).toGo size + s.toGo := by
  have hless : ∀ {step : Step Operation.Place (Except Error Effect)} {s' : Shared},
      step.toGo (Operation.Place.toGo size) + s'.toGo ≤ Acquire.Place.toGo .resolving +
        (Copy.Place.toGo size .opening + Surrender.Place.toGo .taking) + s.toGo →
      (ofOperation id step s').1.toGo size + (ofOperation id step s').2.toGo <
        (operating id (.resolving action r)).toGo size + s.toGo := by
    intro step s' hle
    obtain ⟨htask, hshared⟩ := toGo_ofOperation size id step s'
    rw [htask, hshared]
    exact Nat.lt_of_le_of_lt hle (Nat.add_lt_add_right (Nat.lt_succ_self _) _)
  cases hp
  rcases answer with f | file
  · exact hless (Nat.add_le_add_right (Nat.zero_le _) _)
  · exact hless (toGo_resolved action id file (r.succeed file s).2)

/-- A task that is answered has less to do than before, if it has a piece at hand only within the
bytes that it moves. -/
theorem toGo_next? {t : Task} {p : Pending (Shared → Task × Shared)} (hp : t.next? s = some p)
    (answer : p.request.Answer) (hwithin : (p.resume answer s).1.Within size) :
    (p.resume answer s).1.toGo size + (p.resume answer s).2.toGo < t.toGo size + s.toGo := by
  cases t with
  | acquiring a place => exact toGo_of_lone rfl hp answer
  | releasing lease marker strict place => exact toGo_of_lone rfl hp answer
  | expiring lease place => exact toGo_of_lone rfl hp answer
  | resolving r =>
    cases hp
    rcases answer with f | file <;> exact Nat.add_lt_add_right Nat.one_pos _
  | closing id background =>
    cases hp
    exact Nat.add_lt_add_right Nat.one_pos _
  | evicting id rest count =>
    cases hp
    refine Nat.add_lt_add_right ?_ _
    cases rest <;> exact Nat.lt_succ_self _
  | finished result => cases hp
  | operating id place =>
    cases place with
    | resolving action r => exact toGo_resolving hp answer
    | probing backend file =>
      cases hp
      exact Nat.add_lt_add_right Nat.one_pos _
    | deleting backend file =>
      cases hp
      exact Nat.add_lt_add_right Nat.one_pos _
    | reading backend file place =>
      cases hp
      have htoGo := Read.toGo_next size backend file place answer
      simp only [Operation.next, Pending.map] at hwithin ⊢
      generalize (Read.next backend file place).resume answer = step at hwithin htoGo ⊢
      cases step with
      | paused place' =>
        refine Nat.add_lt_add_right (htoGo fun stream count piece hpushing => ?_) _
        cases hpushing
        exact hwithin
      | done result =>
        refine Nat.add_lt_add_right (htoGo fun stream count piece hpushing => ?_) _
        cases hpushing
    | writing target place =>
      obtain ⟨step, s', hm, hresume⟩ := goes_of_write hp answer
      rw [hresume] at hwithin ⊢
      obtain ⟨htoGo, hshared⟩ := toGo_writeStep size id target step s'
      rw [htoGo, hshared]
      refine hm.toGo fun lease stream count piece hstep => ?_
      subst hstep
      exact hwithin

end Task

/-! ## Gateways -/

namespace Gateway

variable {size : Nat} {g : Gateway}

/-- What is left to be done grows by no timer: its task was counted before. -/
theorem toGo_fire (size : Nat) (g : Gateway) (id : LeaseId) :
    (g.fire id).toGo size ≤ g.toGo size := by
  unfold fire
  cases hl : g.shared.lease? id with
  | none => exact Nat.le_refl _
  | some l =>
    simp only
    split
    · next hdue =>
      obtain ⟨deadline, harmed⟩ := Expiry.armed_of_due hdue
      simp only [Expiry.start, hl]
      by_cases hactive : l.state = .active
      · have hshared := Shared.toGo_modifyLease hl
          fun l => { l with state := .released, timer := .fired }
        rw [harmed] at hshared
        rw [if_pos hactive]
        simp only [toGo, add, List.map_append, List.map_cons, List.map_nil, List.sum_append,
          List.sum_cons, List.sum_nil, Task.toGo]
        simp only [Timer.toGo] at hshared
        omega
      · rw [if_neg hactive]
        refine Nat.add_le_add_left (Shared.toGo_modifyLease_le (n := 0) _ (fun l => ?_) _ _) _
        exact Nat.zero_le _
    · exact Nat.le_refl _

theorem toGo_fireDue (size : Nat) (g : Gateway) : g.fireDue.toGo size ≤ g.toGo size :=
  fireDue_of_fire (I := fun g' => g'.toGo size ≤ g.toGo size)
    (fun id h => Nat.le_trans (toGo_fire size _ id) h) (Nat.le_refl _)

/-- An answer takes something away from what is left to be done. -/
theorem toGo_resume {id : TaskId} {p : Pending Gateway} (hp : g.pending? id = some p)
    (answer : p.request.Answer)
    (hwithin : ∀ t, (p.resume answer).task? id = some t → t.Within size) :
    (p.resume answer).toGo size < g.toGo size := by
  obtain ⟨t, q, ht, hq, -, rfl⟩ := pending?_eq hp
  have htask := task?_set ht (q.resume answer g.shared).1 (q.resume answer g.shared).2
  have hless := Task.toGo_next? hq answer
    (hwithin _ ((congrFun htask id).trans (Function.update_self _ _ _)))
  have hsum := sum_map_set (f := Task.toGo size) ht (q.resume answer g.shared).1
  simp only [toGo, Pending.map]
  omega

/-- A task that is answered before the one that is driven is one that nobody waits for. -/
theorem nextTask_of_ne {own : TaskId} (h : g.nextTask own ≠ own) :
    (g.pending? (g.nextTask own)).isSome = true ∧
      ∃ t, g.task? (g.nextTask own) = some t ∧ t.isBackground = true := by
  unfold nextTask at h ⊢
  cases hfind : (List.range g.tasks.length).find? fun other =>
      ((g.task? other).map Task.isBackground).getD false && (g.pending? other).isSome with
  | none =>
    rw [hfind] at h
    exact absurd rfl h
  | some other =>
    have hfound := List.find?_some hfind
    simp only [Bool.and_eq_true] at hfound
    rw [Option.getD_some]
    cases ht : g.task? other with
    | none =>
      rw [ht] at hfound
      cases hfound.1
    | some t =>
      rw [ht] at hfound
      exact ⟨hfound.2, t, rfl, hfound.1⟩

/-- The task that is driven goes on if no other one does. -/
theorem nextTask_of_pending? {own : TaskId} (h : g.pending? (g.nextTask own) = none) :
    g.nextTask own = own := by
  by_contra hne
  have hpending := (nextTask_of_ne hne).1
  rw [h] at hpending
  cases hpending

/-- Of a gateway that has begun nothing but an operation, the operation is all that is left. -/
theorem toGo_operate (size : Nat) (writer : Diagnostics) (d : Deployment) (key : ConnectionKey)
    (action : Action) (path : Path) :
    ((start writer).operate d key action path).2.toGo size ≤ Operation.toGo size := by
  simp only [operate]
  split
  · exact Nat.zero_le _
  · simp only [Operation.start, Resolve.start]
    split
    · exact Nat.zero_le _
    · split
      · exact Nat.zero_le _
      · exact Nat.le_refl _

variable {clock : StateM Volume Instant}

/-- A task that always goes on until it has ended does end, if there is fuel for all that is left to
be done. -/
theorem drive_ends (hclock : ∀ v, (clock v).2 = v) {I : Gateway → Transfer → Volume → Prop}
    {own : TaskId} (advance : ∀ {g transfer v} now, I g transfer v → I (g.advanceTo now) transfer v)
    (fire : ∀ {g transfer v} id, I g transfer v → I (g.fire id) transfer v)
    (resume : ∀ {g transfer v id p answer transfer' v'}, I g transfer v →
      g.pending? id = some p →
      diskWorld.answer 0 p.request (transfer, v) = (answer, transfer', v') →
      I (p.resume answer) transfer' v')
    (within : ∀ {g transfer v}, I g transfer v → ∀ id t, g.task? id = some t → t.Within size)
    (goesOn : ∀ {g transfer v}, I g transfer v →
      (∃ result, g.task? own = some (.finished result)) ∨ (g.pending? own).isSome = true)
    {fuel : Nat} {transfer : Transfer} {v : Volume} (h : I g transfer v)
    (hfuel : g.toGo size < fuel) :
    ∃ result,
      (g.driveOnDisk clock own fuel transfer v).1.1.task? own = some (.finished result) := by
  induction fuel generalizing g transfer v with
  | zero => exact absurd hfuel (Nat.not_lt_zero _)
  | succ fuel ih =>
    have hready : I (g.advanceTo (clock v).1).fireDue transfer v :=
      fireDue_of_fire (I := fun g => I g transfer v) fire (advance (clock v).1 h)
    have htoGo : (g.advanceTo (clock v).1).fireDue.toGo size ≤ g.toGo size :=
      toGo_fireDue size (g.advanceTo (clock v).1)
    rw [driveOnDisk_succ hclock]
    simp only
    generalize (g.advanceTo (clock v).1).fireDue = ready at hready htoGo ⊢
    cases hp : ready.pending? (ready.nextTask own) with
    | none =>
      have hown := nextTask_of_pending? hp
      rw [hown] at hp
      rcases goesOn hready with hended | hgoes
      · exact hended
      · rw [hp] at hgoes
        cases hgoes
    | some p =>
      have hnext := resume hready hp rfl
      refine ih hnext (Nat.lt_of_lt_of_le ?_ (Nat.le_of_lt_succ hfuel))
      exact Nat.lt_of_lt_of_le (toGo_resume hp _ (within hnext _)) htoGo

/-! ## Other tasks -/

/-- A task that somebody waits for is left as it is while another one is driven. -/
theorem task?_driveOnDisk (hclock : ∀ v, (clock v).2 = v) {own other : TaskId} (hne : other ≠ own)
    {t : Task} (ht : g.task? other = some t) (hwaited : t.isBackground = false) (fuel : Nat)
    (transfer : Transfer) (v : Volume) :
    (g.driveOnDisk clock own fuel transfer v).1.1.task? other = some t := by
  induction fuel generalizing g transfer v with
  | zero => exact ht
  | succ fuel ih =>
    have hready : (g.advanceTo (clock v).1).fireDue.task? other = some t := by
      refine fireDue_of_fire (I := fun g => g.task? other = some t) (fun {g} id h => ?_) ht
      rcases g.tasks_fire id with hsame | hgrown
      · exact (congrArg (·[other]?) hsame).trans h
      · exact (congrArg (·[other]?) hgrown).trans
          ((List.getElem?_append_left (List.getElem?_eq_some_iff.1 h).1).trans h)
    rw [driveOnDisk_succ hclock]
    simp only
    generalize (g.advanceTo (clock v).1).fireDue = ready at hready ⊢
    cases hp : ready.pending? (ready.nextTask own) with
    | none => exact hready
    | some p =>
      refine ih ?_ _ _
      obtain ⟨u, q, hu, -, -, rfl⟩ := pending?_eq hp
      have hother : ready.nextTask own ≠ other := by
        intro heq
        obtain ⟨-, b, hb, hbackground⟩ := nextTask_of_ne (heq.trans_ne hne)
        rw [heq, hready] at hb
        cases hb
        rw [hwaited] at hbackground
        cases hbackground
      exact (List.getElem?_set_ne hother).trans hready

end Gateway

end FileGateway

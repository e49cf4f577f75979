import FileGateway.Proofs.Gateway.Calls

/-!
# How writes go on

The moves of a write of a resolved file, from the acquisition of its lease over its copy to the
giving up of the lease, and the moves of operations in general.

* `Copy.Goes` and `Write.Goes` list what a copy and a write can do when they are answered, and
  `Copy.goes_next` and `Write.goes_next` say that the lists are complete;
* `Task.goes_of_write` is about the task of a write, and `Task.begins_of_no_write` about all others,
  which may begin to write.
-/

namespace FileGateway

/-! ## Copies -/

namespace Copy

open Place in
/-- The moves of a copy. -/
inductive Goes (b : Backend) (file : FileRef) (append : Bool) :
    Place → Reply → Step Place (Result Nat) → Prop where
  | opened (s : StreamId) :
    Goes b file append opening ⟨.store b (.openWrite file append), .ok s⟩ (.paused (pulling s 0))
  | unopened (f : Failure) :
    Goes b file append opening ⟨.store b (.openWrite file append), .error f⟩ (.done (.error f))
  | ended (s : StreamId) (n : Nat) :
    Goes b file append (pulling s n) ⟨.pull, .ok []⟩ (.paused (finishing s n))
  | pulled (s : StreamId) (n : Nat) (byte : UInt8) (rest : Bytes) :
    Goes b file append (pulling s n) ⟨.pull, .ok (byte :: rest)⟩
      (.paused (writing s n (byte :: rest)))
  | unpulled (s : StreamId) (n : Nat) (f : Failure) :
    Goes b file append (pulling s n) ⟨.pull, .error f⟩ (.done (.error f))
  | written (s : StreamId) (n : Nat) (piece : Bytes) :
    Goes b file append (writing s n piece) ⟨.store b (.write s piece), .ok ()⟩
      (.paused (pulling s (n + piece.length)))
  | unwritten (s : StreamId) (n : Nat) (piece : Bytes) (f : Failure) :
    Goes b file append (writing s n piece) ⟨.store b (.write s piece), .error f⟩ (.done (.error f))
  | finished (s : StreamId) (n : Nat) :
    Goes b file append (finishing s n) ⟨.store b (.finish s), .ok ()⟩ (.done (.ok n))
  | unfinished (s : StreamId) (n : Nat) (f : Failure) :
    Goes b file append (finishing s n) ⟨.store b (.finish s), .error f⟩ (.done (.error f))

theorem goes_next (b : Backend) (file : FileRef) (append : Bool) (place : Place)
    (answer : (next b file append place).request.Answer) :
    Goes b file append place ⟨(next b file append place).request, answer⟩
      ((next b file append place).resume answer) := by
  cases place with
  | opening =>
    rcases answer with f | s
    · exact .unopened f
    · exact .opened s
  | pulling s n =>
    rcases answer with f | (_ | ⟨byte, rest⟩)
    · exact .unpulled s n f
    · exact .ended s n
    · exact .pulled s n byte rest
  | writing s n piece =>
    rcases answer with f | _
    · exact .unwritten s n piece f
    · exact .written s n piece
  | finishing s n =>
    rcases answer with f | _
    · exact .unfinished s n f
    · exact .finished s n

end Copy

/-! ## Writes -/

namespace Write

/-- What a write ends with if it could not get its lease: with the error there was, or because the
marker is taken. -/
def refusal (a : Acquire) (error : Option Error) : Error :=
  error.getD (.lockNotAcquired a.marker "held by another writer")

open Place in
/-- The moves of a write. -/
inductive Goes (writer : Diagnostics) (t : Target) (s : Shared) :
    Place → Reply → Step Place (Except Error Nat) → Shared → Prop where
  -- the lease is acquired, or not
  | locks (a : Acquire) (p p' : Acquire.Place) (reply : Reply) (s' : Shared)
      (move : (LeaseOp.acquire a p).Moves writer s reply (.paused (.acquire a p')) s') :
    Goes writer t s (locking a p) reply (.paused (locking a p')) s'
  | locked (a : Acquire) (s' : Shared)
      (move : (LeaseOp.acquire a .arming).Moves writer s ⟨.slot, ()⟩
        (.done (.acquired (.ok true))) s') :
    Goes writer t s (locking a .arming) ⟨.slot, ()⟩ (.paused (copying (some a.lease) .opening)) s'
  | refused (a : Acquire) (error : Option Error) (s' : Shared)
      (move : (LeaseOp.acquire a (.retreating error)).Moves writer s ⟨.slot, ()⟩
        (.done (.acquired (error.elim (.ok false) .error))) s') :
    Goes writer t s (locking a (.retreating error)) ⟨.slot, ()⟩
      (.done (.error (refusal a error))) s'
  -- the source is copied
  | copies (lease : Option LeaseId) (p p' : Copy.Place) (reply : Reply)
      (move : Copy.Goes t.backend t.file t.append p reply (.paused p')) :
    Goes writer t s (copying lease p) reply (.paused (copying lease p')) s
  | copied (p : Copy.Place) (reply : Reply) (result : Result Nat)
      (move : Copy.Goes t.backend t.file t.append p reply (.done result)) :
    Goes writer t s (copying none p) reply (.done (outcome t result)) s
  -- a copy with a lease has ended: the lease is given up, whatever the result
  | unlocks (id : LeaseId) (l : Lease) (p : Copy.Place) (reply : Reply) (result : Result Nat)
      (move : Copy.Goes t.backend t.file t.append p reply (.done result))
      (found : s.lease? id = some l) (active : l.state = .active) :
    Goes writer t s (copying (some id) p) reply (.paused (unlocking id l.marker .taking result))
      (s.modifyLease id fun l => { l with state := .released })
  | lost (id : LeaseId) (p : Copy.Place) (reply : Reply) (result : Result Nat)
      (move : Copy.Goes t.backend t.file t.append p reply (.done result))
      (gone : ∀ l, s.lease? id = some l → l.state ≠ .active) :
    Goes writer t s (copying (some id) p) reply (.done (released t result (.ok false))) s
  | unlocking (id : LeaseId) (marker : Path) (p p' : Surrender.Place) (result : Result Nat)
      (reply : Reply) (s' : Shared)
      (move : (LeaseOp.surrender ⟨id, false⟩ p).Moves writer s reply
        (.paused (.surrender ⟨id, false⟩ p')) s') :
    Goes writer t s (unlocking id marker p result) reply
      (.paused (unlocking id marker p' result)) s'
  | unlocked (id : LeaseId) (marker : Path) (p : Surrender.Place) (result : Result Nat)
      (removed : Result Bool) (reply : Reply) (s' : Shared)
      (move : (LeaseOp.surrender ⟨id, false⟩ p).Moves writer s reply
        (.done (.surrendered removed)) s') :
    Goes writer t s (unlocking id marker p result) reply
      (.done (released t result (Release.result marker removed))) s'

theorem goes_next (writer : Diagnostics) (t : Target) (s : Shared) (place : Place)
    (answer : (next t writer place).request.Answer) :
    Goes writer t s place ⟨(next t writer place).request, answer⟩
      ((next t writer place).resume answer s).1 ((next t writer place).resume answer s).2 := by
  cases place with
  | locking a p =>
    have hm := LeaseOp.moves_next writer s (.acquire a p) answer
    revert hm
    simp only [next, LeaseOp.next, Pending.map]
    generalize (a.next writer p).resume answer s = result
    obtain ⟨step, s'⟩ := result
    intro hm
    cases step with
    | paused p' => exact .locks a p p' _ s' hm
    | done result =>
      -- an acquisition ends when it has armed its timer, or given up
      generalize hreply : (⟨(a.next writer p).request, answer⟩ : Reply) = reply at hm ⊢
      cases hm with
      | armed => exact .locked a _ (.armed a)
      | retreated _ error =>
        cases error with
        | none => exact .refused a none _ (.retreated a none)
        | some e => exact .refused a (some e) _ (.retreated a (some e))
  | copying lease p =>
    have hm := Copy.goes_next t.backend t.file t.append p answer
    revert hm
    simp only [next, Pending.map]
    generalize (Copy.next t.backend t.file t.append p).resume answer = step
    intro hm
    cases step with
    | paused p' => exact .copies lease p p' _ hm
    | done result =>
      cases lease with
      | none => exact .copied p _ result hm
      | some id =>
        -- the lease is given up if it is still active, and was lost to its timer otherwise
        simp only [copied, Release.start]
        cases hl : s.lease? id with
        | none => exact .lost id p _ result hm fun l hfound => by simp [hl] at hfound
        | some l =>
          by_cases hactive : l.state = .active
          · simp only [if_pos hactive]
            exact .unlocks id l p _ result hm hl hactive
          · simp only [if_neg hactive]
            refine .lost id p _ result hm fun l' hfound => ?_
            rw [hl] at hfound
            cases hfound
            exact hactive
  | unlocking id marker p result =>
    have hm := LeaseOp.moves_next writer s (.surrender ⟨id, false⟩ p) answer
    revert hm
    simp only [next, LeaseOp.next, Pending.map]
    generalize (Surrender.next ⟨id, false⟩ p).resume answer s = ended
    obtain ⟨step, s'⟩ := ended
    intro hm
    -- the result of the copy is kept until the lease is given up
    cases step with
    | paused p' => exact .unlocking id marker p p' result _ s' hm
    | done removed => exact .unlocked id marker p result removed _ s' hm

/-- The beginnings of a write, and what they make of the leases: a lease is made and its acquisition
begins, or the file is opened at once. -/
inductive Begins (leases : List Lease) : Target → Place → List Lease → Prop where
  | locks (t : Target) (a : Acquire) (lease : Lease) (fresh : Lease.fresh t.file.path = .ok lease)
      (id : a.lease = leases.length) (marker : a.marker = lease.marker)
      (backend : a.backend = t.backend) :
    Begins leases t (.locking a .resolving)
      ((leases ++ [lease]).modify a.lease fun l => { l with state := .acquiring })
  | opens (t : Target) : Begins leases t (.copying none .opening) leases

theorem begins_start (t : Target) (options : Options) (lock : LockConfig) (s : Shared) :
    (∃ result, (start t options lock s).1 = .done result) ∨
      ∃ place, (start t options lock s).1 = .paused place ∧
        Begins s.leases t place (start t options lock s).2.leases := by
  unfold start
  cases lock.scheme with
  | none => exact Or.inr ⟨_, rfl, .opens t⟩
  | marker =>
    cases hf : Lease.fresh t.file.path with
    | error e => exact Or.inl ⟨_, rfl⟩
    | ok lease =>
      right
      simp only
      rw [Acquire.start_fresh hf rfl]
      exact ⟨_, rfl, .locks t _ lease hf rfl rfl rfl⟩

end Write

/-! ## Operations -/

namespace Task

/-- Whether a task is not about a lease on its own account, and never was. -/
def isOperation : Task → Bool
  | acquiring _ _ | releasing _ _ _ _ | expiring _ _ => false
  | finished (.acquired _) | finished (.released _) | finished (.releasedStrictly _)
  | finished (.expired _) => false
  | _ => true

/-- An operation that writes no file has nothing to do with leases. -/
theorem leaseOp?_of_operation {t : Task} (h : t.isOperation = true) (hw : t.write? = none) :
    t.leaseOp? = none := by
  cases t with
  | operating id place =>
    cases place with
    | writing target place => cases hw
    | _ => rfl
  | acquiring a place => cases h
  | releasing lease marker strict place => cases h
  | expiring lease place => cases h
  | _ => rfl

/-- The task of a write is an operation. -/
theorem eq_of_write? {t : Task} {target : Write.Target} {place : Write.Place}
    (h : t.write? = some (target, place)) : ∃ id, t = .operating id (.writing target place) := by
  cases t with
  | operating id place' =>
    cases place' with
    | writing target' place' =>
      cases h
      exact ⟨id, rfl⟩
    | _ => cases h
  | _ => cases h

/-- A resolved path may be that of a file to write. -/
theorem begins_resolved (action : Action) (id : HandleId) (file : FileRef) (s : Shared) :
    (ofOperation id (Operation.resolved action id file s).1
        (Operation.resolved action id file s).2).1.write? = none ∨
      ∃ target place, (ofOperation id (Operation.resolved action id file s).1
          (Operation.resolved action id file s).2).1 = .operating id (.writing target place) ∧
        Write.Begins s.leases target place (ofOperation id
          (Operation.resolved action id file s).1
          (Operation.resolved action id file s).2).2.leases := by
  unfold Operation.resolved
  cases s.handle? id with
  | none => exact Or.inl rfl
  | some h =>
    cases action with
    | write mode =>
      have hstart := Write.begins_start ⟨h.backend, file, mode.append⟩ h.options
        (mode.lock.getD h.lock) s
      simp only
      rcases hstart with ⟨result, hdone⟩ | ⟨place, hpaused, hbegins⟩
      · left
        rw [hdone]
        rfl
      · right
        rw [hpaused]
        exact ⟨_, place, rfl, hbegins⟩
    | _ => exact Or.inl rfl

/-- A task that writes no file goes on without writing one, or begins to write. -/
theorem begins_of_no_write {t : Task} (h : t.write? = none) {s : Shared}
    {p : Pending (Shared → Task × Shared)} (hp : t.next? s = some p) (answer : p.request.Answer) :
    (p.resume answer s).1.write? = none ∨
      ∃ id target place, (p.resume answer s).1 = .operating id (.writing target place) ∧
        Write.Begins s.leases target place (p.resume answer s).2.leases := by
  cases t with
  | operating id place =>
    cases hp
    cases place with
    | writing target place => cases h
    | resolving action resolve =>
      -- only a path that was resolved can be that of a write
      rcases answer with f | file
      · exact Or.inl rfl
      · rcases begins_resolved action id file (resolve.succeed file s).2 with hw | hw
        · exact Or.inl hw
        · exact Or.inr ⟨id, hw⟩
    | probing backend file => exact Or.inl rfl
    | deleting backend file => exact Or.inl rfl
    | reading backend file place =>
      left
      simp only [Operation.next, Pending.map]
      generalize (Read.next backend file place).resume answer = step
      cases step <;> rfl
  | acquiring a place =>
    cases hp
    exact Or.inl (Gateway.write?_ofStep (fun _ => rfl) _)
  | releasing lease marker strict place =>
    cases hp
    exact Or.inl (Gateway.write?_ofStep (fun _ => rfl) _)
  | expiring lease place =>
    cases hp
    exact Or.inl (Gateway.write?_ofStep (fun _ => rfl) _)
  | resolving r =>
    cases hp
    exact Or.inl (Gateway.write?_ofStep (fun _ => rfl) _)
  | closing id background =>
    cases hp
    exact Or.inl rfl
  | evicting id rest count =>
    cases hp
    exact Or.inl (Gateway.write?_ofEvicted count rest)
  | finished result => cases hp

/-- A task that writes a file goes on as its write does. -/
theorem goes_of_write {id : HandleId} {target : Write.Target} {place : Write.Place} {s : Shared}
    {p : Pending (Shared → Task × Shared)}
    (hp : (operating id (.writing target place)).next? s = some p) (answer : p.request.Answer) :
    ∃ step s', Write.Goes s.writer target s place ⟨p.request, answer⟩ step s' ∧
      p.resume answer s = ofOperation id (Operation.writeStep target step) s' := by
  cases hp
  exact ⟨_, _, Write.goes_next s.writer target s place answer, rfl⟩

end Task

end FileGateway

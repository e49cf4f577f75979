import FileGateway.Proofs.Lease.Removal
import FileGateway.Proofs.Operation.Refusal

/-!
# What the history tells of a write

A write goes on from place to place, and the history tells with which answers. This is enough to say
whether it has acquired its lease, what its copy came to, and what became of the marker when it gave
the lease up; and from this follows what the write ends with (`Write.verdict`).

* `Write.Place.Tells` says what has been told of a locked write when it has come to a place, and
  `Write.Explained` what has been told of it in the end;
* `Write.Goes.tells` says that this is kept up by every move.
-/

namespace FileGateway

/-- How many bytes a copy has brought when it has come to a place. -/
def Copy.Place.count : Copy.Place → Nat
  | opening => 0
  | pulling _ count => count
  | writing _ count _ => count
  | finishing _ count => count

namespace Write

/-- Whether a write gives its lease up itself. -/
def Place.isUnlocking : Place → Bool
  | unlocking _ _ _ _ => true
  | _ => false

theorem Place.unlocking_of_leaseOp {place : Place} {r : Surrender} {q : Surrender.Place}
    (h : place.leaseOp? = some (.surrender r q)) : place.isUnlocking = true := by
  cases place with
  | unlocking lease marker q copied => rfl
  | _ => cases h

/-! ## Passes -/

/-- A write has gone on from a place with an answer. -/
structure Pass where
  target : Target
  place : Place
  reply : Reply

/-- Whether the acquisition has ended, and the lease is acquired. -/
def Pass.acquires (p : Pass) : Bool :=
  match p.place with
  | .locking _ .arming => true
  | _ => false

/-- What has ended the copy, if it has ended: a failure, or the target is complete. -/
def Pass.copyEnd? : Pass → Option (Result Unit)
  | ⟨_, .copying _ .opening, ⟨.store _ (.openWrite _ _), .error f⟩⟩ => some (.error f)
  | ⟨_, .copying _ (.pulling _ _), ⟨.pull, .error f⟩⟩ => some (.error f)
  | ⟨_, .copying _ (.writing _ _ _), ⟨.store _ (.write _ _), .error f⟩⟩ => some (.error f)
  | ⟨_, .copying _ (.finishing _ _), ⟨.store _ (.finish _), answer⟩⟩ => some answer
  | _ => none

/-- How many bytes have arrived in the target. -/
def Pass.brought : Pass → Nat
  | ⟨_, .copying _ (.writing _ _ _), ⟨.store _ (.write _ piece), .ok ()⟩⟩ => piece.length
  | _ => 0

/-- What the write was answered while it gave its lease up. -/
def Pass.release? (p : Pass) : Option Reply :=
  match p.place with
  | .unlocking _ _ _ _ => some p.reply
  | _ => none

/-- Whether the lease was acquired. -/
def HasAcquired (passes : List Pass) : Prop :=
  ∃ p ∈ passes, p.acquires = true

/-- How many bytes have arrived in the target, in all. -/
def brought : List Pass → Nat
  | [] => 0
  | p :: earlier => p.brought + brought earlier

/-- What the copy came to, if it has ended: a failure, or so many bytes. -/
def copyResult? : List Pass → Option (Result Nat)
  | [] => none
  | p :: earlier =>
    match p.copyEnd? with
    | some (.ok ()) => some (.ok (brought earlier))
    | some (.error f) => some (.error f)
    | none => copyResult? earlier

/-- What the attempts to remove the marker were answered, the latest first. -/
def removals (passes : List Pass) : List (Result Bool) :=
  deletions (passes.filterMap Pass.release?)

/-- What a locked write ends with: the failure of its copy; or else the failure of the last attempt
to remove the marker; or else the bytes it has copied. -/
def verdict (t : Target) (marker : Path) : Result Nat → Option (Result Bool) → Except Error Nat
  | .error f, _ => .error (.filesystem t.file.path f)
  | .ok _, some (.error f) => .error (.filesystem marker f)
  | .ok count, _ => .ok count

/-! ## What is told of a write -/

/-- What has been told of a locked write that has come to a place. `marker` is the path of its
marker. -/
def Place.Tells (marker : Path) (passes : List Pass) : Place → Prop
  | locking a _ => a.marker = marker ∧ ¬ HasAcquired passes ∧ copyResult? passes = none ∧
      brought passes = 0 ∧ removals passes = []
  | copying none _ => False
  | copying (some _) place => HasAcquired passes ∧ copyResult? passes = none ∧
      brought passes = place.count ∧ removals passes = []
  | unlocking _ path place copied => path = marker ∧ HasAcquired passes ∧
      copyResult? passes = some copied ∧ place.Tried (removals passes)

/-- What has been told of a locked write that has ended. If it is `refused`, it has not got its
lease and has copied nothing.

Otherwise it had its lease when its copy began, and it has removed the marker itself, as far as
that was possible, or has found its lease given up already. -/
inductive Explained (t : Target) (marker : Path) (passes : List Pass) :
    Except Error Nat → Prop where
  | refused (error : Error) (acquired : ¬ HasAcquired passes) (copied : copyResult? passes = none) :
    Explained t marker passes (.error error)
  | settled (copied : Result Nat) (acquired : HasAcquired passes)
      (came : copyResult? passes = some copied)
      (removed : removals passes = [] ∨ ∃ result, Concluded result (removals passes)) :
    Explained t marker passes (verdict t marker copied (removals passes).head?)

/-- What has been told when a write has taken a step. -/
def Told (t : Target) (marker : Path) (passes : List Pass) : Step Place (Except Error Nat) → Prop
  | .paused place => place.Tells marker passes
  | .done result => Explained t marker passes result

/-- What has been told of a copy when it has taken a step. -/
def Brought (passes : List Pass) : Step Copy.Place (Result Nat) → Prop
  | .paused place => copyResult? passes = none ∧ brought passes = place.count
  | .done result => copyResult? passes = some result

section

variable {p : Pass} {passes : List Pass}

theorem hasAcquired_cons : HasAcquired (p :: passes) ↔ p.acquires = true ∨ HasAcquired passes := by
  simp [HasAcquired]

theorem HasAcquired.cons (h : HasAcquired passes) : HasAcquired (p :: passes) :=
  hasAcquired_cons.2 (.inr h)

/-- A release that has ended, seen from what was told of it. -/
theorem released_eq_verdict (passes : List Pass) (t : Target) (marker : Path) (copied : Result Nat)
    {removed : Result Bool} (h : (removals passes).head? = some removed) :
    released t copied (Release.result marker removed) =
      verdict t marker copied (removals passes).head? := by
  rw [h]
  cases removed <;> cases copied <;> rfl

end

/-! ## Moves -/

section

variable {writer : Diagnostics} {t : Target} {s s' : Shared} {marker : Path} {passes : List Pass}

/-- A copy goes on, or comes to its end. -/
theorem Brought.goes (lease : Option LeaseId) {p : Copy.Place} {reply : Reply}
    {step : Step Copy.Place (Result Nat)} (h : Copy.Goes t.backend t.file t.append p reply step)
    (hp : Brought passes (.paused p)) :
    Brought (⟨t, .copying lease p, reply⟩ :: passes) step := by
  obtain ⟨hcopied, hbrought⟩ := hp
  cases h <;>
    simp_all [Brought, copyResult?, Pass.copyEnd?, brought, Pass.brought, Copy.Place.count,
      Nat.add_comm]

/-- What is told of a write is kept up by every move. -/
theorem Goes.tells {place : Place} {reply : Reply} {step : Step Place (Except Error Nat)}
    (h : Goes writer t s place reply step s') (htells : place.Tells marker passes)
    (hmarker : ∀ id l, place.lease? = some id → s.lease? id = some l → l.marker = marker)
    (hheld : ∀ r, place.leaseOp? = some (.surrender r .taking) →
      (s.lease? r.lease).bind Lease.held ≠ none) :
    Told t marker (⟨t, place, reply⟩ :: passes) step := by
  cases h with
  | locks a p p' reply s' move =>
    obtain ⟨hpath, hacquired, hcopied, hbrought, hremovals⟩ := htells
    refine ⟨hpath, ?_, hcopied, ?_, hremovals⟩
    · rw [hasAcquired_cons]
      rintro (hnow | hbefore)
      · cases p with
        | arming => exact not_moves_arming move
        | _ => cases hnow
      · exact hacquired hbefore
    · rw [brought, hbrought]
      rfl
  | locked a s' move =>
    obtain ⟨-, -, hcopied, hbrought, hremovals⟩ := htells
    refine ⟨hasAcquired_cons.2 (.inl rfl), hcopied, ?_, hremovals⟩
    rw [brought, hbrought]
    rfl
  | refused a error s' move =>
    obtain ⟨-, hacquired, hcopied, -, -⟩ := htells
    refine .refused _ ?_ hcopied
    rw [hasAcquired_cons]
    exact fun hor => hor.elim nofun hacquired
  | copies lease p p' reply move =>
    cases lease with
    | none => exact htells.elim
    | some id =>
      obtain ⟨hacquired, hcopied, hbrought, hremovals⟩ := htells
      have hgoes := Brought.goes (some id) move ⟨hcopied, hbrought⟩
      exact ⟨hacquired.cons, hgoes.1, hgoes.2, hremovals⟩
  | copied p reply result move => exact htells.elim
  | unlocks id l p reply result move found active =>
    obtain ⟨hacquired, hcopied, hbrought, hremovals⟩ := htells
    exact ⟨hmarker id l rfl found, hacquired.cons,
      Brought.goes (some id) move ⟨hcopied, hbrought⟩, hremovals⟩
  | lost id p reply result move gone =>
    -- the lease was given up by somebody else, so the copy alone decides
    obtain ⟨hacquired, hcopied, hbrought, hremovals⟩ := htells
    have hnone : removals (⟨t, .copying (some id) p, reply⟩ :: passes) = [] := hremovals
    have hverdict : released t result (.ok false) = verdict t marker result
        (removals (⟨t, .copying (some id) p, reply⟩ :: passes)).head? := by
      rw [hnone]
      cases result <;> rfl
    rw [hverdict]
    exact .settled result hacquired.cons
      (Brought.goes (some id) move ⟨hcopied, hbrought⟩) (.inl hnone)
  | unlocking id path p p' result reply s' move =>
    obtain ⟨hpath, hacquired, hcopied, htried⟩ := htells
    rcases htried.moves move fun htaking => hheld ⟨id, false⟩ (htaking ▸ rfl) with
      ⟨place', hstep, htried'⟩ | ⟨removed, hstep, -⟩
    · cases hstep
      exact ⟨hpath, hacquired.cons, hcopied, htried'⟩
    · cases hstep
  | unlocked id path p result removed reply s' move =>
    obtain ⟨rfl, hacquired, hcopied, htried⟩ := htells
    rcases htried.moves move fun htaking => hheld ⟨id, false⟩ (htaking ▸ rfl) with
      ⟨place', hstep, -⟩ | ⟨removed', hstep, hconcluded⟩
    · cases hstep
    · cases hstep
      have hverdict := released_eq_verdict
        (⟨t, .unlocking id path p result, reply⟩ :: passes) t path result hconcluded.last
      rw [hverdict]
      exact .settled result hacquired.cons hcopied (.inr ⟨_, hconcluded⟩)

/-- Whoever gives its lease up goes on doing so. -/
theorem Goes.still_unlocking {place place' : Place} {reply : Reply}
    (h : Goes writer t s place reply (.paused place') s') (hp : place.isUnlocking = true) :
    place'.isUnlocking = true := by
  cases h with
  | unlocking id path p p' result reply s' move => rfl
  | _ => cases hp

/-- A write with a lease ends in one of three ways: it has not got its lease, or its lease was given
up by somebody else, or it has given it up itself. -/
inductive Ends (s : Shared) (id : LeaseId) (s' : Shared) : Place → Prop where
  | refused (a : Acquire) (error : Option Error)
      (leases : s'.leases = s.leases.modify id fun l => { l with state := .idle }) :
    Ends s id s' (.locking a (.retreating error))
  | lost (p : Copy.Place) (gone : ∀ l, s.lease? id = some l → l.state ≠ .active) :
    Ends s id s' (.copying (some id) p)
  | unlocked (path : Path) (p : Surrender.Place) (copied : Result Nat) :
    Ends s id s' (.unlocking id path p copied)

theorem Goes.ends {place : Place} {reply : Reply} {result : Except Error Nat}
    (h : Goes writer t s place reply (.done result) s') {id : LeaseId}
    (hid : place.lease? = some id) : Ends s id s' place := by
  cases h with
  | refused a error s' move =>
    cases hid
    exact .refused a error move.leases
  | copied p reply result move => cases hid
  | lost n p reply result move gone =>
    cases hid
    exact .lost p gone
  | unlocked n path p result removed reply s' move =>
    cases hid
    exact .unlocked path p result

/-- A write that has ended has tried to remove its marker just if it has given its lease up. -/
theorem Goes.removes {place : Place} {reply : Reply} {result : Except Error Nat}
    (h : Goes writer t s place reply (.done result) s') (htells : place.Tells marker passes)
    (hheld : ∀ r, place.leaseOp? = some (.surrender r .taking) →
      (s.lease? r.lease).bind Lease.held ≠ none) :
    removals (⟨t, place, reply⟩ :: passes) ≠ [] ↔ place.isUnlocking = true := by
  cases h with
  | refused a error s' move =>
    obtain ⟨-, -, -, -, hremovals⟩ := htells
    exact iff_of_false (not_not_intro hremovals) nofun
  | copied p reply result move => exact htells.elim
  | lost id p reply result move gone =>
    obtain ⟨-, -, -, hremovals⟩ := htells
    exact iff_of_false (not_not_intro hremovals) nofun
  | unlocked id path p result removed reply s' move =>
    obtain ⟨-, -, -, htried⟩ := htells
    rcases htried.moves move fun htaking => hheld ⟨id, false⟩ (htaking ▸ rfl) with
      ⟨place', hstep, -⟩ | ⟨removed', -, hconcluded⟩
    · cases hstep
    · refine iff_of_true (fun hnone => ?_) rfl
      have hlast : (removals (⟨t, .unlocking id path p result, reply⟩ :: passes)).head? =
          some removed' := hconcluded.last
      rw [hnone] at hlast
      cases hlast

end

end Write

end FileGateway

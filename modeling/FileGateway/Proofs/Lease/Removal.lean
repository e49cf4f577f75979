import FileGateway.Proofs.Lease.Lifecycle

/-!
# Removing a marker

Whoever gives a lease up tries to delete its marker until a deletion does not fail, but a few times
only. `Surrender.Place.Tried` says what the deletions were answered so far, `Concluded` what they
were answered in the end, and `Surrender.Place.Tried.moves` leads from the one to the other.
-/

namespace FileGateway

/-- What a deletion was answered, if the reply is about one. -/
def Reply.deletion? : Reply → Option (Result Bool)
  | ⟨.store _ (.delete _), answer⟩ => some answer
  | _ => none

/-- What the deletions were answered, the latest first. -/
def deletions (heard : List Reply) : List (Result Bool) :=
  heard.filterMap Reply.deletion?

theorem deletions_slot (heard : List Reply) : deletions (⟨.slot, ()⟩ :: heard) = deletions heard :=
  rfl

theorem deletions_delete (b : Backend) (file : FileRef) (answer : Result Bool)
    (heard : List Reply) :
    deletions (⟨.store b (.delete file), answer⟩ :: heard) = answer :: deletions heard := rfl

/-- The deletions that were tried before a lease's giving up has come to a place have failed, and
some are left. -/
def Surrender.Place.Tried : Surrender.Place → List (Result Bool) → Prop
  | taking, tried => tried = []
  | cancelling _, tried => tried = []
  | removing removal, tried =>
    (∀ r ∈ tried, r.isOk = false) ∧ tried.length + 1 = removal.attempt ∧
      removal.attempt ≤ removalLimit

theorem Surrender.Place.Tried.ofHeld (held : Held) {tried : List (Result Bool)} (h : tried = []) :
    (removing (.ofHeld held)).Tried tried := by
  subst h
  exact ⟨fun r hr => by simp at hr, rfl, (by decide : 1 ≤ removalLimit)⟩

/-- Whoever has not concluded yet has an attempt left. -/
theorem Surrender.Place.Tried.few {place : Surrender.Place} {tried : List (Result Bool)}
    (h : place.Tried tried) : (∀ r ∈ tried, r.isOk = false) ∧ tried.length < removalLimit := by
  cases place with
  | taking =>
    have hnone : tried = [] := h
    subst hnone
    exact ⟨fun r hr => by simp at hr, (by decide : 0 < removalLimit)⟩
  | cancelling held =>
    have hnone : tried = [] := h
    subst hnone
    exact ⟨fun r hr => by simp at hr, (by decide : 0 < removalLimit)⟩
  | removing removal =>
    obtain ⟨hfailed, hlength, hlimit⟩ := h
    exact ⟨hfailed, by omega⟩

/-- A removal ends with the first deletion that does not fail, or with the last one that may be
tried. -/
structure Concluded (result : Result Bool) (tried : List (Result Bool)) : Prop where
  last : tried.head? = some result
  failed : ∀ r ∈ tried.tail, r.isOk = false
  few : tried.length ≤ removalLimit
  all : result.isOk = false → tried.length = removalLimit

/-- Whoever gives a lease up that holds something goes on trying, or has concluded. -/
theorem Surrender.Place.Tried.moves {writer : Diagnostics} {s s' : Shared} {r : Surrender}
    {place : Surrender.Place} {heard : List Reply} {reply : Reply}
    {step : Step LeaseOp LeaseOp.Ending}
    (h : place.Tried (deletions heard))
    (hm : (LeaseOp.surrender r place).Moves writer s reply step s')
    (hheld : place = .taking → (s.lease? r.lease).bind Lease.held ≠ none) :
    (∃ place', step = .paused (.surrender r place') ∧ place'.Tried (deletions (reply :: heard))) ∨
      ∃ result, step = .done (.surrendered result) ∧
        Concluded result (deletions (reply :: heard)) := by
  cases hm with
  | empty r hnone => exact absurd hnone (hheld rfl)
  | taken r held hsome =>
    -- nothing was tried yet, and nothing is deleted by this move
    refine Or.inl ⟨_, rfl, ?_⟩
    rw [deletions_slot]
    split
    · exact .ofHeld held h
    · exact h
  | cancelled r held => exact Or.inl ⟨_, rfl, .ofHeld held h⟩
  | removed r removal deleted =>
    obtain ⟨hfailed, hlength, hlimit⟩ := h
    refine Or.inr ⟨_, rfl, ?_⟩
    rw [deletions_delete]
    constructor
    · rfl
    · exact hfailed
    · simp only [List.length_cons]
      omega
    · intro h
      cases h
  | retried r removal f hattempt =>
    obtain ⟨hfailed, hlength, -⟩ := h
    refine Or.inl ⟨_, rfl, ?_⟩
    rw [deletions_delete]
    refine ⟨List.forall_mem_cons.2 ⟨rfl, hfailed⟩, ?_, hattempt⟩
    simp only [List.length_cons]
    omega
  | abandoned r removal f hattempt =>
    obtain ⟨hfailed, hlength, hlimit⟩ := h
    refine Or.inr ⟨_, rfl, ?_⟩
    rw [deletions_delete]
    constructor
    · rfl
    · exact hfailed
    · simp only [List.length_cons]
      omega
    · -- there is no attempt left
      intro _
      simp only [List.length_cons]
      omega

end FileGateway

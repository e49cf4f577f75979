import FileGateway.Proofs.Lease.Exclusion

/-!
# Nobody touches a marker that is not its own

Whatever an acquisition asks of its store, it was told before that it may: a marker is created
exclusively, or after the store has found none, and it is opened, written, completed and removed
only by the task that was told that it has created it (`Entitled`).

* `Acquire.Told` is what an acquisition was told before it has come to a place, and
  `Acquire.Told.moves` leads from place to place;
* `Acquire.Told.entitled` is what may be asked for there;
* `Scene.Informed` is the invariant of all scenes.
-/

namespace FileGateway

/-! ## What a task was told -/

/-- The answer of the world to a task. -/
def Entry.reply? (i : TaskId) : Entry → Option Reply
  | served j _ reply => if j = i then some reply else none
  | resumed _ _ _ => none

/-- What the world has answered a task so far, the latest first. -/
def replies (i : TaskId) (history : List Entry) : List Reply :=
  history.filterMap (Entry.reply? i)

section

variable {i j : TaskId} {t : Task} {reply : Reply} {history : List Entry}

theorem replies_resumed : replies i (.resumed j t reply :: history) = replies i history :=
  List.filterMap_cons_none rfl

theorem replies_served : replies i (.served i t reply :: history) = reply :: replies i history :=
  List.filterMap_cons_some (if_pos rfl)

theorem replies_served_other (h : j ≠ i) :
    replies i (.served j t reply :: history) = replies i history :=
  List.filterMap_cons_none (if_neg h)

theorem replies_subset (e : Entry) : replies i history ⊆ replies i (e :: history) :=
  ((List.suffix_cons e history).filterMap _).subset

end

/-- Whether a request leaves all files alone: it asks for a turn or a slot, where a path leads, or
whether there is a file. -/
def Request.isQuiet : Request → Bool
  | store _ (.resolve _ _) | store _ (.probe _) | guard _ | slot => true
  | _ => false

/-- Somebody was told that it has created the file at a site. -/
def Made (told : List Reply) (σ : Site) : Prop :=
  ∃ reply ∈ told, reply.created? = some σ

/-- What may be asked for by whoever was told so much. -/
inductive Entitled (told : List Reply) : Request → Prop where
  | quiet (r : Request) (quiet : r.isQuiet = true) : Entitled told r
  | creates (b : Backend) (file : FileRef) : Entitled told (.store b (.createExclusive file))
  | fills (b : Backend) (file : FileRef) (missed : ⟨.store b (.probe file), .ok false⟩ ∈ told) :
    Entitled told (.store b (.createFile file))
  | opens (b : Backend) (file : FileRef) (made : Made told (b.site file)) :
    Entitled told (.store b (.openWrite file false))
  | writes (b : Backend) (file : FileRef) (s : StreamId) (piece : Bytes)
      (made : Made told (b.site file))
      (opened : ⟨.store b (.openWrite file false), .ok s⟩ ∈ told) :
    Entitled told (.store b (.write s piece))
  | finishes (b : Backend) (file : FileRef) (s : StreamId) (made : Made told (b.site file))
      (opened : ⟨.store b (.openWrite file false), .ok s⟩ ∈ told) :
    Entitled told (.store b (.finish s))
  | deletes (b : Backend) (file : FileRef) (made : Made told (b.site file)) :
    Entitled told (.store b (.delete file))

theorem Made.mono {told told' : List Reply} {σ : Site} (h : Made told σ) (hsub : told ⊆ told') :
    Made told' σ :=
  let ⟨reply, hmem, hcreated⟩ := h
  ⟨reply, hsub hmem, hcreated⟩

/-! ## What an acquisition was told -/

/-- Why the diagnostics could not be written, if the reply tells so. -/
def Reply.unwritten? : Reply → Option Failure
  | ⟨.store _ (.openWrite _ _), .error f⟩ => some f
  | ⟨.store _ (.write _ _), .error f⟩ => some f
  | ⟨.store _ (.finish _), .error f⟩ => some f
  | _ => none

namespace Acquire

/-- The store has resolved the path of the marker that is bid for. -/
def Located (a : Acquire) (told : List Reply) (bid : Bid) : Prop :=
  ⟨.store a.backend (.resolve a.marker a.options), .ok bid.marker⟩ ∈ told

/-- The store has opened the marker that is bid for. -/
def Opened (a : Acquire) (told : List Reply) (bid : Bid) (s : StreamId) : Prop :=
  ⟨.store a.backend (.openWrite bid.marker false), .ok s⟩ ∈ told

/-- What an acquisition was told before it has come to a place. -/
def Told (a : Acquire) (told : List Reply) : Place → Prop
  | .queued bid | .creating bid | .probing bid => a.Located told bid
  | .filling bid =>
    a.Located told bid ∧ ⟨.store a.backend (.probe bid.marker), .ok false⟩ ∈ told
  | .opening bid => a.Located told bid ∧ Made told (a.site bid)
  | .writing bid s | .finishing bid s =>
    a.Located told bid ∧ Made told (a.site bid) ∧ a.Opened told bid s
  | .cleaning bid f =>
    a.Located told bid ∧ Made told (a.site bid) ∧ ∃ reply ∈ told, reply.unwritten? = some f
  | .resolving | .holding _ | .activating _ | .arming | .retreating _ => True

namespace Told

variable {a a' : Acquire} {told told' : List Reply} {place place' : Place}

theorem mono (h : a.Told told place) (hsub : told ⊆ told') : a.Told told' place := by
  have hunwritten : ∀ {f}, (∃ reply ∈ told, reply.unwritten? = some f) →
      ∃ reply ∈ told', reply.unwritten? = some f := fun ⟨reply, hmem, hf⟩ => ⟨reply, hsub hmem, hf⟩
  cases place with
  | queued bid | creating bid | probing bid => exact hsub h
  | filling bid => exact ⟨hsub h.1, hsub h.2⟩
  | opening bid => exact ⟨hsub h.1, h.2.mono hsub⟩
  | writing bid s | finishing bid s => exact ⟨hsub h.1, h.2.1.mono hsub, hsub h.2.2⟩
  | cleaning bid f => exact ⟨hsub h.1, h.2.1.mono hsub, hunwritten h.2.2⟩
  | _ => trivial

/-- Whoever bids for a marker was told which one it is. -/
theorem located (h : a.Told told place) {bid : Bid} (hbid : place.bid? = some bid) :
    a.Located told bid := by
  cases place with
  | queued bid' | creating bid' | probing bid' =>
    cases hbid
    exact h
  | filling bid' | opening bid' | writing bid' _ | finishing bid' _ | cleaning bid' _ =>
    cases hbid
    exact h.1
  | _ => cases hbid

/-- With what it is told now an acquisition comes to the next place. -/
theorem moves {writer : Diagnostics} {s s' : Shared} {reply : Reply} (h : a.Told told place)
    (hreply : reply ∈ told)
    (hm : (LeaseOp.acquire a place).Moves writer s reply (.paused (.acquire a' place')) s') :
    a'.Told told place' := by
  cases hm with
  | resolved a marker => exact hreply
  | granted a bid => split <;> exact h
  | missed a bid => exact ⟨h, hreply⟩
  | created a bid => exact ⟨h, _, hreply, rfl⟩
  | filled a bid => exact ⟨h.1, _, hreply, rfl⟩
  | opened a bid stream => exact ⟨h.1, h.2, hreply⟩
  | unopened a bid f => exact ⟨h.1, h.2, _, hreply, rfl⟩
  | written a bid stream => exact h
  | unwritten a bid stream f => exact ⟨h.1, h.2.1, _, hreply, rfl⟩
  | unfinished a bid stream f => exact ⟨h.1, h.2.1, _, hreply, rfl⟩
  | _ => trivial

/-- What an acquisition asks for it may ask for. -/
theorem entitled (h : a.Told told place) (writer : Diagnostics) :
    Entitled told (a.next writer place).request := by
  cases place with
  | creating bid => exact .creates _ _
  | filling bid => exact .fills _ _ h.2
  | opening bid => exact .opens _ _ h.2
  | writing bid s => exact .writes _ bid.marker _ _ h.2.1 h.2.2
  | finishing bid s => exact .finishes _ bid.marker _ h.2.1 h.2.2
  | cleaning bid f => exact .deletes _ _ h.2.1
  | _ => exact .quiet _ rfl

end Told

end Acquire

/-! ## Scenes -/

namespace Scene

variable {ε : Type} {w : World ε} {c c' : Scene ε}

/-- Every acquisition was told what it has to know, and none has asked for anything that it might
not ask for by then. -/
structure Informed (c : Scene ε) : Prop where
  told : ∀ i a place, c.gateway.leaseOps i = some (.acquire a place) →
    a.Told (replies i c.history) place
  heard : ∀ i reply, c.inbox i = some reply → reply ∈ replies i c.history
  rightful : ∀ i t a place reply earlier, .served i t reply :: earlier <:+ c.history →
    t.leaseOp? = some (.acquire a place) → Entitled (replies i earlier) reply.1

theorem informed_start (writer : Diagnostics) (world : ε) : (start writer world).Informed where
  told := fun i a place h => by cases h
  heard := fun i reply h => by cases h
  rightful := fun i t a place reply earlier h => by cases List.suffix_nil.1 h

/-- Whoever begins to acquire a lease need not know anything. -/
theorem told_of_begins {s s' : Shared} {a : Acquire} {place : Acquire.Place}
    (hb : Begins s (some (.acquire a place)) s') (told : List Reply) : a.Told told place := by
  cases hb <;> trivial

theorem Informed.changes (h : c.Informed) (hc : Changes w c c') : c'.Informed := by
  have hstarts : ∀ {j new g} {history : List Entry}, c.gateway.Starts j new g →
      (∀ i, replies i c.history ⊆ replies i history) → ∀ i a place,
        g.leaseOps i = some (.acquire a place) → a.Told (replies i history) place := by
    intro j new g history hs hsub i a place hd
    rw [hs.leaseOps] at hd
    by_cases hi : i = j
    · subst hi
      rw [Function.update_self] at hd
      subst hd
      exact told_of_begins hs.begins _
    · rw [Function.update_of_ne hi] at hd
      exact (h.told i a place hd).mono (hsub i)
  cases hc with
  | nothing => exact h
  | starts d g starts grows =>
    exact ⟨hstarts starts fun _ _ hmem => hmem, h.heard, h.rightful⟩
  | serves j t p task pending inbox =>
    refine ⟨fun i a place hd => (h.told i a place hd).mono (replies_subset _), ?_, ?_⟩
    · intro i reply hreply
      by_cases hi : i = j
      · subst hi
        simp only [Function.update_self] at hreply
        cases hreply
        rw [replies_served]
        exact List.mem_cons_self
      · simp only [Function.update_of_ne hi] at hreply
        exact replies_subset _ (h.heard i reply hreply)
    · intro i t' a place reply earlier hsuffix hd
      rcases List.suffix_cons_iff.1 hsuffix with heq | hbefore
      · -- it asks for what its lease operation asks for
        cases heq
        have hleaseOp := (Gateway.leaseOps_eq task).trans hd
        rw [Gateway.request_of_leaseOp hleaseOp pending]
        exact (h.told j a place hleaseOp).entitled _
      · exact h.rightful i t' a place reply earlier hbefore hd
  | resumes j t p answer task pending inbox =>
    refine ⟨?_, ?_, ?_⟩
    · cases hd : c.gateway.leaseOps j with
      | none =>
        obtain ⟨new, starts⟩ := Gateway.starts_resume hd pending answer
        exact hstarts starts fun _ => replies_subset _
      | some d =>
        obtain ⟨step, s, hm, ha, hleaseOps⟩ := (Gateway.goes_resume hd pending answer).moves
        intro i a place hd'
        rw [replies_resumed]
        rw [hleaseOps] at hd'
        by_cases hi : i = j
        · subst hi
          rw [Function.update_self] at hd'
          cases step with
          | done ending => cases hd'
          | paused next =>
            cases hd'
            cases d with
            | acquire a₀ place₀ => exact (h.told i a₀ place₀ hd).moves (h.heard i _ inbox) hm
            | surrender r q => cases hm.lease.2
        · rw [Function.update_of_ne hi] at hd'
          exact h.told i a place hd'
    · intro i reply hreply
      rw [replies_resumed]
      by_cases hi : i = j
      · subst hi
        simp only [Function.update_self] at hreply
        cases hreply
      · simp only [Function.update_of_ne hi] at hreply
        exact h.heard i reply hreply
    · intro i t' a place reply earlier hsuffix hd
      rcases List.suffix_cons_iff.1 hsuffix with heq | hbefore
      · cases heq
      · exact h.rightful i t' a place reply earlier hbefore hd

theorem informed_run (w : World ε) (writer : Diagnostics) (world : ε) (events : List Event) :
    ((start writer world).run w events).Informed :=
  run_induction (informed_start writer world) (fun _ _ => Informed.changes) events

/-- What somebody was told stays told. -/
theorem replies_run {i : TaskId} (w : World ε) (c : Scene ε) (events : List Event) :
    replies i c.history ⊆ replies i (c.run w events).history := by
  refine run_induction (P := fun c' => replies i c.history ⊆ replies i c'.history)
    (List.Subset.refl _) ?_ events
  intro c₁ c₂ h hc
  cases hc with
  | nothing => exact h
  | starts => exact h
  | serves => exact List.Subset.trans h (replies_subset _)
  | resumes => exact List.Subset.trans h (replies_subset _)

end Scene

end FileGateway

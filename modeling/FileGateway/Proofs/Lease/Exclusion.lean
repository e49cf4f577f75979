import FileGateway.Proofs.Gateway.Memory
import FileGateway.Proofs.Gateway.Scene
import FileGateway.Proofs.Lease.Turns

/-!
# Exclusion

At most one lease at a time holds the marker at a site, whatever the gateway is asked to do,
however its tasks interleave, and whether or not the stores can create a file exclusively. The site
has to be left alone by everything but leases.

The reason is a stake that leases have in the site:

* a lease owns the site from the moment its marker is created to the moment it is removed; there is
  a file all the time, and the lease has created it;
* a lease awaits the site between finding no file and creating one; there is no file all the time.

While a lease owns the site, nobody else removes the file, since every deletion is about a file that
the deleting lease owns. While a lease awaits the site, nobody else creates a file, since it would
have to hold the same guard.
-/

namespace FileGateway

/-! ## Who created a file -/

/-- The site at which a file was created, if the reply tells so. -/
def Reply.created? : Reply → Option Site
  | ⟨.store b (.createFile file), .ok ()⟩ => some (b.site file)
  | ⟨.store b (.createExclusive file), .ok true⟩ => some (b.site file)
  | _ => none

/-- The lease that has created the latest file at a site. -/
def makerOf (σ : Site) : List Entry → Option LeaseId
  | [] => none
  | .served _ t reply :: rest =>
    if Reply.created? reply = some σ then t.leaseOp?.map LeaseOp.lease else makerOf σ rest
  | .resumed _ _ _ :: rest => makerOf σ rest

/-- Whether something other than a lease has created, changed or removed a file at a site. -/
def Entry.strays (σ : Site) : Entry → Bool
  | served _ t reply => t.leaseOp?.isNone && reply.1.altered? == some σ
  | resumed _ _ _ => false

/-- Nothing but leases has created, changed or removed a file at a site. -/
def LeftAlone (σ : Site) (history : List Entry) : Prop :=
  ∀ e ∈ history, e.strays σ = false

instance (σ : Site) (history : List Entry) : Decidable (LeftAlone σ history) :=
  inferInstanceAs (Decidable (∀ e ∈ history, e.strays σ = false))

theorem Reply.altered_of_created {reply : Reply} {σ : Site} (h : reply.created? = some σ) :
    reply.1.altered? = some σ := by
  unfold created? at h
  split at h
  · exact h
  · exact h
  · cases h

theorem LeftAlone.of_cons {σ : Site} {e : Entry} {history : List Entry}
    (h : LeftAlone σ (e :: history)) : LeftAlone σ history :=
  fun e' hmem => h e' (List.mem_cons_of_mem e hmem)

/-- A task without a lease operation has not touched a site that is left alone. -/
theorem LeftAlone.unaltered {σ : Site} {id : TaskId} {t : Task} {reply : Reply}
    {history : List Entry} (h : LeftAlone σ (.served id t reply :: history))
    (hd : t.leaseOp? = none) : reply.1.altered? ≠ some σ := by
  have hstrays := h _ List.mem_cons_self
  simpa [Entry.strays, hd] using hstrays

/-! ## Stakes -/

/-- The site of what a lease holds. -/
def Held.site (h : Held) : Site := h.backend.site h.marker

/-- The site of the file that a removal removes. -/
def Removal.site (r : Removal) : Site := r.backend.site r.marker

/-- The site of the marker that an acquisition bids for. -/
def Acquire.site (a : Acquire) (bid : Acquire.Bid) : Site := a.backend.site bid.marker

namespace LeaseOp

/-- The site whose file the lease of a lease operation has created and not removed yet, unless the
lease itself has noted that it holds it. The answer in the inbox is what has come of the lease
operation's last request. -/
def owned? : LeaseOp → Option Reply → Option Site
  -- from the answer that tells that the marker is created
  | acquire a (.creating bid), some ⟨.store _ (.createExclusive _), .ok true⟩ => some (a.site bid)
  | acquire a (.filling bid), some ⟨.store _ (.createFile _), .ok _⟩ => some (a.site bid)
  | acquire a (.opening bid), _ => some (a.site bid)
  | acquire a (.writing bid _), _ => some (a.site bid)
  | acquire a (.finishing bid _), _ => some (a.site bid)
  | acquire a (.holding bid), _ => some (a.site bid)
  | acquire a (.cleaning bid _), none => some (a.site bid)
  -- to the answer that tells that it is removed
  | surrender _ (.cancelling held), _ => some held.site
  | surrender _ (.removing _), some ⟨.store _ (.delete _), .ok _⟩ => none
  | surrender _ (.removing removal), _ => some removal.site
  | _, _ => none

/-- The site at which a lease operation knows that there is no file, and is about to create one. -/
def awaited? : LeaseOp → Option Reply → Option Site
  | acquire a (.probing bid), some ⟨.store _ (.probe _), .ok false⟩ => some (a.site bid)
  | acquire a (.filling bid), none => some (a.site bid)
  | _, _ => none

/-- Whether a lease operation is past the queue of the guard of a site. -/
def HasTurn (d : LeaseOp) (σ : Site) : Prop :=
  d.isQueued = false ∧ ∃ t, d.ticket? = some (t, σ.identity ++ σ.file.path.text)

theorem hasTurn_of_awaited {d : LeaseOp} {inbox : Option Reply} {σ : Site}
    (h : d.awaited? inbox = some σ) : d.HasTurn σ := by
  unfold awaited? at h
  split at h
  · cases h
    exact ⟨rfl, _, rfl⟩
  · cases h
    exact ⟨rfl, _, rfl⟩
  · cases h

/-! ## What the moves of a lease operation make of its stake -/

/-- Whoever owns a site after a move has owned it before, or takes over what the lease held. -/
theorem Moves.owned {writer : Diagnostics} {s s' : Shared} {d e : LeaseOp} {reply : Reply}
    {σ : Site}
    (h : d.Moves writer s reply (.paused e) s') (he : e.owned? none = some σ) :
    d.owned? (some reply) = some σ ∨
      ∃ held, (s.lease? d.lease).bind Lease.held = some held ∧ held.site = σ := by
  cases h with
  | granted a bid => split at he <;> cases he
  | taken r held h =>
    -- only here the site comes from the lease
    refine Or.inr ⟨held, h, ?_⟩
    split at he <;> exact Option.some.inj he
  | created a bid => exact Or.inl he
  | filled a bid => exact Or.inl he
  | opened a bid stream => exact Or.inl he
  | unopened a bid f => exact Or.inl he
  | written a bid stream => exact Or.inl he
  | unwritten a bid stream f => exact Or.inl he
  | finished a bid stream => exact Or.inl he
  | unfinished a bid stream f => exact Or.inl he
  | cancelled r held => exact Or.inl he
  | retried r removal f h => exact Or.inl he
  | _ => cases he

/-- Whoever awaits a site after a move has awaited it before. -/
theorem Moves.awaited {writer : Diagnostics} {s s' : Shared} {d e : LeaseOp} {reply : Reply}
    {σ : Site}
    (h : d.Moves writer s reply (.paused e) s') (he : e.awaited? none = some σ) :
    d.awaited? (some reply) = some σ := by
  cases h with
  | granted a bid => split at he <;> cases he
  | taken r held h => split at he <;> cases he
  | missed a bid => exact he
  | _ => cases he

/-- What a lease holds after a move it has held before, or its lease operation has owned it. -/
theorem change_held {d : LeaseOp} {now : Instant} {l : Lease} {h : Held} {inbox : Option Reply}
    (hh : (d.change now l).held = some h) :
    l.held = some h ∨ d.owned? inbox = some h.site := by
  cases d with
  | acquire a place =>
    cases place with
    | holding bid =>
      right
      cases hh
      rfl
    | _ => exact Or.inl hh
  | surrender r place =>
    cases place with
    | taking => cases hh
    | _ => exact Or.inl hh

/-- A lease whose lease operation owns a site holds nothing itself. -/
theorem Fits.held_of_owned {d : LeaseOp} {l : Lease} {inbox : Option Reply} {σ : Site}
    (h : d.Fits l) (ho : d.owned? inbox = some σ) : l.held = none := by
  cases d with
  | acquire a place =>
    cases place with
    | activating bid => cases ho
    | arming => cases ho
    | _ => exact h.2
  | surrender r place =>
    cases place with
    | taking => cases ho
    | _ => exact h.2

/-- Of the lease operations about one lease only one can own a site: it is either acquired or given
up. -/
theorem Fits.owned_kind {d e : LeaseOp} {l : Lease} {inbox inbox' : Option Reply} {σ τ : Site}
    (hd : d.Fits l) (he : e.Fits l) (hdo : d.owned? inbox = some σ)
    (heo : e.owned? inbox' = some τ) : d.isAcquire = e.isAcquire := by
  cases d with
  | acquire a place =>
    cases e with
    | acquire b place' => rfl
    | surrender r place' =>
      -- an acquisition that has only its timer to start owns nothing any more
      have hplace := hd.arming he.released
      subst hplace
      cases hdo
  | surrender r place =>
    cases e with
    | surrender r' place' => rfl
    | acquire a place' =>
      have hplace := he.arming hd.released
      subst hplace
      cases heo

/-! ## What the requests of a lease operation do at a site -/

/-- What a lease operation's request has done at a site: nothing, except that the lease operation
may have seen that there is no file; it has created the file, or done something else to it, in its
turn; or it was about deleting a file that the lease operation owned. -/
inductive Effect (σ : Site) (d : LeaseOp) (reply : Reply) (before after : Bool) : Prop where
  | aside (present : after = before) (created : reply.created? ≠ some σ)
      (owned : d.owned? (some reply) = some σ → d.owned? none = some σ)
      (awaited : d.awaited? (some reply) = some σ → before = false)
  | creates (turn : d.HasTurn σ) (created : reply.created? = some σ)
      (vacant : before = false ∨ d.awaited? none = some σ) (present : after = true)
      (awaited : d.awaited? (some reply) = none)
  | changes (turn : d.HasTurn σ) (created : reply.created? ≠ some σ)
      (kept : before = true → after = true)
      (owned : d.owned? (some reply) = some σ → d.owned? none = some σ)
      (awaited : d.awaited? (some reply) = none)
  | deletes (owner : d.owned? none = some σ) (created : reply.created? ≠ some σ)
      (owned : d.owned? (some reply) = some σ → after = before)
      (awaited : d.awaited? (some reply) = none)

variable {ε : Type} (w : Realm ε) (i : TaskId) (e : ε) (σ : Site)

/-- A request that is about no file at the site leaves the file there alone. -/
theorem effect_untouched {d : LeaseOp} {request : Request} (h : request.altered? ≠ some σ)
    (howned : ∀ answer, d.owned? (some ⟨request, answer⟩) = some σ → d.owned? none = some σ)
    (hawaited : d.awaited? (some ⟨request, (w.answer i request e).1⟩) = some σ →
      w.present e σ = false) :
    Effect σ d ⟨request, (w.answer i request e).1⟩ (w.present e σ)
      (w.present (w.answer i request e).2 σ) :=
  .aside (w.untouched i request e σ h) (fun hc => h (Reply.altered_of_created hc)) (howned _)
    hawaited

theorem altered_ne {b : Backend} {call : StoreCall} {file : FileRef} (h : call.altered? = some file)
    (hσ : b.site file ≠ σ) : (Request.store b call).altered? ≠ some σ := by
  intro ha
  simp only [Request.altered?, h, Option.map_some, Option.some.injEq] at ha
  exact hσ ha

theorem deleted_ne {b : Backend} {call : StoreCall} (h : call.deleted? = none) :
    (Request.store b call).deleted? ≠ some σ := by
  simp [Request.deleted?, h]

theorem effect_probing (a : Acquire) (bid : Acquire.Bid) (request : Request)
    (h : request = .store a.backend (.probe bid.marker)) :
    Effect σ (acquire a (.probing bid)) ⟨request, (w.answer i request e).1⟩ (w.present e σ)
      (w.present (w.answer i request e).2 σ) := by
  subst h
  refine effect_untouched w i e σ (fun ha => by cases ha) (fun _ => id) fun ha => ?_
  have hprobed := w.probed i a.backend bid.marker e
  generalize w.answer i (.store a.backend (.probe bid.marker)) e = result at *
  obtain ⟨answer, e'⟩ := result
  -- what the lease operation knows from now on is what the store has told
  rcases answer with f | (_ | _)
  · cases ha
  · cases ha
    exact (hprobed false rfl).symm
  · cases ha

theorem effect_creating (a : Acquire) (bid : Acquire.Bid) (request : Request)
    (h : request = .store a.backend (.createExclusive bid.marker)) :
    Effect σ (acquire a (.creating bid)) ⟨request, (w.answer i request e).1⟩ (w.present e σ)
      (w.present (w.answer i request e).2 σ) := by
  subst h
  by_cases hσ : a.site bid = σ
  · subst hσ
    have hvacant := w.vacant i a.backend bid.marker e
    have hpresent := w.createdExclusively i a.backend bid.marker e
    have hkept := w.kept i (.store a.backend (.createExclusive bid.marker)) e (a.site bid)
      (deleted_ne _ rfl)
    generalize w.answer i (.store a.backend (.createExclusive bid.marker)) e = result at *
    obtain ⟨answer, e'⟩ := result
    -- a creation that has failed may have done something, but has removed nothing
    rcases answer with f | (_ | _)
    · exact .changes ⟨rfl, _, rfl⟩ (fun hc => by cases hc) hkept (fun ho => by cases ho) rfl
    · exact .changes ⟨rfl, _, rfl⟩ (fun hc => by cases hc) hkept (fun ho => by cases ho) rfl
    · exact .creates ⟨rfl, _, rfl⟩ rfl (Or.inl (hvacant rfl)) (hpresent rfl) rfl
  · refine effect_untouched w i e σ (altered_ne σ rfl hσ) (fun answer ho => ?_)
      fun ha => by cases ha
    rcases answer with f | (_ | _)
    · cases ho
    · cases ho
    · exact absurd (Option.some.inj ho) hσ

theorem effect_filling (a : Acquire) (bid : Acquire.Bid) (request : Request)
    (h : request = .store a.backend (.createFile bid.marker)) :
    Effect σ (acquire a (.filling bid)) ⟨request, (w.answer i request e).1⟩ (w.present e σ)
      (w.present (w.answer i request e).2 σ) := by
  subst h
  by_cases hσ : a.site bid = σ
  · subst hσ
    have hpresent := w.created i a.backend bid.marker e
    have hkept := w.kept i (.store a.backend (.createFile bid.marker)) e (a.site bid)
      (deleted_ne _ rfl)
    generalize w.answer i (.store a.backend (.createFile bid.marker)) e = result at *
    obtain ⟨answer, e'⟩ := result
    rcases answer with f | _
    · exact .changes ⟨rfl, _, rfl⟩ (fun hc => by cases hc) hkept (fun ho => by cases ho) rfl
    · exact .creates ⟨rfl, _, rfl⟩ rfl (Or.inr rfl) (hpresent rfl) rfl
  · refine effect_untouched w i e σ (altered_ne σ rfl hσ) (fun answer ho => ?_)
      fun ha => by cases ha
    rcases answer with f | _
    · cases ho
    · exact absurd (Option.some.inj ho) hσ

theorem effect_opening (a : Acquire) (bid : Acquire.Bid) (request : Request)
    (h : request = .store a.backend (.openWrite bid.marker false)) :
    Effect σ (acquire a (.opening bid)) ⟨request, (w.answer i request e).1⟩ (w.present e σ)
      (w.present (w.answer i request e).2 σ) := by
  subst h
  by_cases hσ : a.site bid = σ
  · subst hσ
    exact .changes ⟨rfl, _, rfl⟩ (fun hc => by cases hc)
      (w.kept i _ e (a.site bid) (deleted_ne _ rfl)) id rfl
  · exact effect_untouched w i e σ (altered_ne σ rfl hσ) (fun answer => id) fun ha => by cases ha

theorem effect_cleaning (a : Acquire) (bid : Acquire.Bid) (f : Failure) (request : Request)
    (h : request = .store a.backend (.delete bid.marker)) :
    Effect σ (acquire a (.cleaning bid f)) ⟨request, (w.answer i request e).1⟩ (w.present e σ)
      (w.present (w.answer i request e).2 σ) := by
  subst h
  by_cases hσ : a.site bid = σ
  · subst hσ
    exact .deletes rfl (fun hc => by cases hc) (fun ho => by cases ho) rfl
  · exact effect_untouched w i e σ (altered_ne σ rfl hσ) (fun answer ho => by cases ho)
      fun ha => by cases ha

theorem effect_removing (r : Surrender) (removal : Removal) (request : Request)
    (h : request = .store removal.backend (.delete removal.marker)) :
    Effect σ (surrender r (.removing removal)) ⟨request, (w.answer i request e).1⟩ (w.present e σ)
      (w.present (w.answer i request e).2 σ) := by
  subst h
  by_cases hσ : removal.site = σ
  · subst hσ
    have hundeleted := w.undeleted i removal.backend removal.marker e
    generalize w.answer i (.store removal.backend (.delete removal.marker)) e = result at *
    obtain ⟨answer, e'⟩ := result
    -- after a deletion that has failed the file is still there, and owned
    rcases answer with f | deleted
    · exact .deletes rfl (fun hc => by cases hc) (fun _ => hundeleted f rfl) rfl
    · exact .deletes rfl (fun hc => by cases hc) (fun ho => by cases ho) rfl
  · refine effect_untouched w i e σ (altered_ne σ rfl hσ) (fun answer ho => ?_)
      fun ha => by cases ha
    rcases answer with f | deleted
    · exact absurd (Option.some.inj ho) hσ
    · cases ho

/-- Whatever a lease operation asks for, its effect on the site is one of the four. -/
theorem effect (writer : Diagnostics) (d : LeaseOp) (request : Request)
    (h : request = (d.next writer).request) :
    Effect σ d ⟨request, (w.answer i request e).1⟩ (w.present e σ)
      (w.present (w.answer i request e).2 σ) := by
  cases d with
  | acquire a place =>
    cases place with
    | creating bid => exact effect_creating w i e σ a bid request h
    | filling bid => exact effect_filling w i e σ a bid request h
    | opening bid => exact effect_opening w i e σ a bid request h
    | cleaning bid f => exact effect_cleaning w i e σ a bid f request h
    | probing bid => exact effect_probing w i e σ a bid request h
    | _ =>
      -- all other requests are about no file that could be at the site
      subst h
      exact effect_untouched w i e σ (fun ha => by cases ha) (fun _ => id) fun ha => by cases ha
  | surrender r place =>
    cases place with
    | removing removal => exact effect_removing w i e σ r removal request h
    | _ =>
      subst h
      exact effect_untouched w i e σ (fun ha => by cases ha) (fun _ => id) fun ha => by cases ha

end LeaseOp

/-! ## Scenes -/

/-- What a lease holds when something begins it has held before. -/
theorem Begins.held {s s' : Shared} {d : Option LeaseOp} (h : Begins s d s') {id : LeaseId}
    {l : Lease}
    {held : Held} (hl : s'.lease? id = some l) (hh : l.held = some held) :
    ∃ l', s.lease? id = some l' ∧ l'.held = some held := by
  -- a change that leaves alone what the leases hold
  have hmodify : ∀ {t : Shared} {n : LeaseId} {f : Lease → Lease},
      (t.modifyLease n f).Agrees s' → (∀ l, (f l).held = l.held) →
        ∃ l', t.lease? id = some l' ∧ l'.held = some held := by
    intro t n f ha hf
    rw [ha.lease?, Shared.lease?_modifyLease] at hl
    split at hl
    · obtain ⟨l', hl', heq⟩ := Option.map_eq_some_iff.1 hl
      refine ⟨l', hl', ?_⟩
      rw [← hf l', heq]
      exact hh
    · exact ⟨l, hl, hh⟩
  -- a new lease holds nothing
  have hadd : ∀ {target : Path} {lease l' : Lease}, Lease.fresh target = .ok lease →
      (s.addLease lease).2.lease? id = some l' → l'.held = some held →
        s.lease? id = some l' := by
    intro target lease l' hfresh hl' hh'
    rcases Shared.lease?_addLease hl' with h | rfl
    · exact h
    · rw [(Lease.state_fresh hfresh).2] at hh'
      cases hh'
  cases h with
  | nothing agrees => exact ⟨l, (agrees.lease? id).symm.trans hl, hh⟩
  | lease target lease fresh agrees =>
    exact ⟨l, hadd fresh ((agrees.lease? id).symm.trans hl) hh, hh⟩
  | attempt a l found idle marker agrees => exact hmodify agrees fun l => rfl
  | acquisition target lease a fresh id marker agrees =>
    obtain ⟨l', hl', hh'⟩ := hmodify agrees fun l => rfl
    exact ⟨l', hadd fresh hl' hh', hh'⟩
  | surrender r l timer found active agrees => exact hmodify agrees fun l => rfl
  | late n l found inactive agrees => exact hmodify agrees fun l => rfl

/-- Whatever begins has no stake yet. -/
theorem Begins.stakeless {s s' : Shared} {d : LeaseOp} (h : Begins s (some d) s')
    (inbox : Option Reply) : d.owned? inbox = none ∧ d.awaited? inbox = none := by
  cases h <;> exact ⟨rfl, rfl⟩

namespace Scene

variable {ε : Type} {w : Realm ε} {c c' : Scene ε} {σ : Site}

/-- The leases of a scene are in order, and so are the turns at its guards. -/
structure InOrder (c : Scene ε) : Prop where
  leases : Orderly c.gateway.shared c.gateway.leaseOps
  turns : Guarded c.gateway.shared.guards c.gateway.leaseOps

theorem inOrder_start (writer : Diagnostics) (world : ε) : (start writer world).InOrder := by
  have hleaseOps : (start writer world).gateway.leaseOps = fun _ => none := rfl
  constructor
  · rw [hleaseOps]
    exact .start writer
  · rw [hleaseOps]
    exact .start

theorem InOrder.changes {w : World ε} (h : c.InOrder) (hc : Changes w c c') : c'.InOrder := by
  have hstarts : ∀ {id d g}, c.gateway.Starts id d g →
      Orderly g.shared g.leaseOps ∧ Guarded g.shared.guards g.leaseOps := by
    intro id d g hs
    rw [hs.leaseOps]
    exact ⟨h.leases.begins hs.idle hs.begins, h.turns.begins hs.begins⟩
  cases hc with
  | nothing => exact h
  | starts d g starts grows => exact ⟨(hstarts starts).1, (hstarts starts).2⟩
  | serves id t p task pending inbox => exact ⟨h.leases, h.turns⟩
  | resumes id t p answer task pending inbox =>
    cases hd : c.gateway.leaseOps id with
    | none =>
      obtain ⟨d, starts⟩ := Gateway.starts_resume hd pending answer
      exact ⟨(hstarts starts).1, (hstarts starts).2⟩
    | some d =>
      have hgoes := Gateway.goes_resume hd pending answer
      obtain ⟨step, s, hm, ha, hleaseOps⟩ := hgoes.moves
      constructor
      · rw [hleaseOps]
        exact h.leases.moves hd hm ha
      · rw [hleaseOps, ha.guards]
        exact h.turns.moves hd hm hgoes.turn

theorem inOrder_run {w : World ε} (writer : Diagnostics) (world : ε) (events : List Event) :
    ((start writer world).run w events).InOrder :=
  run_induction (inOrder_start writer world) (fun _ _ => InOrder.changes) events

/-- There is a file at the site, and the lease has created it. -/
def Owns (w : Realm ε) (c : Scene ε) (σ : Site) (id : LeaseId) : Prop :=
  w.present c.world σ = true ∧ makerOf σ c.history = some id

/-- Whoever thinks that it owns the site does so, and whoever awaits it is right. -/
structure Staked (w : Realm ε) (c : Scene ε) (σ : Site) : Prop where
  held : ∀ id l held, c.gateway.shared.lease? id = some l → l.held = some held → held.site = σ →
    c.Owns w σ id
  owned : ∀ i d, c.gateway.leaseOps i = some d → d.owned? (c.inbox i) = some σ → c.Owns w σ d.lease
  awaited : ∀ i d, c.gateway.leaseOps i = some d → d.awaited? (c.inbox i) = some σ →
    w.present c.world σ = false

theorem staked_start (writer : Diagnostics) (world : ε) : Staked w (start writer world) σ where
  held := fun id l held h => by simp [start, Gateway.start, Shared.start, Shared.lease?] at h
  owned := fun i d h => by cases h
  awaited := fun i d h => by cases h

theorem Owns.of_eq {id : LeaseId} (h : c.Owns w σ id) (hworld : c'.world = c.world)
    (hmaker : makerOf σ c'.history = makerOf σ c.history) : c'.Owns w σ id := by
  rw [Owns, hworld, hmaker]
  exact h

/-- A site is owned by one lease at most: the one that has created the file there. -/
theorem Owns.unique {id id' : LeaseId} (h : c.Owns w σ id) (h' : c.Owns w σ id') : id = id' :=
  Option.some.inj (h.2.symm.trans h'.2)

/-- What begins has no stake, and all others keep theirs. -/
theorem Staked.starts (h : Staked w c σ) {id : TaskId} {d : Option LeaseOp}
    (hs : c.gateway.Starts id d c'.gateway) (hworld : c'.world = c.world)
    (hmaker : makerOf σ c'.history = makerOf σ c.history)
    (hinbox : ∀ j, j ≠ id → c'.inbox j = c.inbox j) : Staked w c' σ := by
  have hold : ∀ j e, c'.gateway.leaseOps j = some e →
      (c.gateway.leaseOps j = some e ∧ c'.inbox j = c.inbox j) ∨
        (e.owned? (c'.inbox j) = none ∧ e.awaited? (c'.inbox j) = none) := by
    intro j e he
    rw [hs.leaseOps] at he
    by_cases hj : j = id
    · subst hj
      rw [Function.update_self] at he
      subst he
      exact Or.inr (hs.begins.stakeless _)
    · rw [Function.update_of_ne hj] at he
      exact Or.inl ⟨he, hinbox j hj⟩
  constructor
  · intro n l held hl hh hσ
    obtain ⟨l', hl', hh'⟩ := hs.begins.held hl hh
    exact (h.held n l' held hl' hh' hσ).of_eq hworld hmaker
  · intro j e he ho
    rcases hold j e he with ⟨he', hin⟩ | ⟨hnone, -⟩
    · rw [hin] at ho
      exact (h.owned j e he' ho).of_eq hworld hmaker
    · rw [hnone] at ho
      cases ho
  · intro j e he ha
    rcases hold j e he with ⟨he', hin⟩ | ⟨-, hnone⟩
    · rw [hin] at ha
      rw [hworld]
      exact h.awaited j e he' ha
    · rw [hnone] at ha
      cases ha

/-- A lease operation that goes on passes its stake on, to its next place or to its lease. -/
theorem Staked.goes (h : Staked w c σ) {id : TaskId} {d : LeaseOp} {reply : Reply}
    (hin : c.inbox id = some reply) (hg : c.gateway.Goes id d reply c'.gateway)
    (hworld : c'.world = c.world) (hmaker : makerOf σ c'.history = makerOf σ c.history)
    (hinbox : c'.inbox = Function.update c.inbox id none) : Staked w c' σ := by
  obtain ⟨step, s, hm, ha, hleaseOps⟩ := hg.moves
  have howned : d.owned? (some reply) = some σ → c.Owns w σ d.lease := by
    intro ho
    rw [← hin] at ho
    exact h.owned id d hg.leaseOp ho
  constructor
  · intro n l held hl hh hσ
    refine Owns.of_eq ?_ hworld hmaker
    rw [hm.lease? ha.leases] at hl
    split at hl
    · next hn =>
      -- the lease of the lease operation holds what it has held, or what the lease operation has
      -- handed over
      obtain ⟨l', hl', rfl⟩ := Option.map_eq_some_iff.1 hl
      rcases LeaseOp.change_held hh with hh' | ho
      · exact h.held n l' held hl' hh' hσ
      · rw [hσ] at ho
        exact hn ▸ howned ho
    · exact h.held n l held hl hh hσ
  · intro j e he ho
    refine Owns.of_eq ?_ hworld hmaker
    rw [hleaseOps] at he
    rw [hinbox] at ho
    by_cases hj : j = id
    · subst hj
      rw [Function.update_self] at he ho
      cases step with
      | done result => cases he
      | paused e' =>
        cases he
        rw [hm.lease.1]
        rcases hm.owned ho with ho' | ⟨held, hheld, hσ⟩
        · exact howned ho'
        · obtain ⟨l, hl, hh⟩ := Option.bind_eq_some_iff.1 hheld
          exact h.held d.lease l held hl hh hσ
    · rw [Function.update_of_ne hj] at he ho
      exact h.owned j e he ho
  · intro j e he ha
    rw [hworld]
    rw [hleaseOps] at he
    rw [hinbox] at ha
    by_cases hj : j = id
    · subst hj
      rw [Function.update_self] at he ha
      cases step with
      | done result => cases he
      | paused e' =>
        cases he
        have ha' := hm.awaited ha
        rw [← hin] at ha'
        exact h.awaited j d hg.leaseOp ha'
    · rw [Function.update_of_ne hj] at he ha
      exact h.awaited j e he ha

/-- The realm acts on the request of one task: what has to be known of this task and of all
others. -/
theorem Staked.acts (h : Staked w c σ) {id : TaskId} {d : LeaseOp} {reply : Reply}
    (hd : c.gateway.leaseOps id = some d) (hgateway : c'.gateway = c.gateway)
    (hinbox : c'.inbox = Function.update c.inbox id (some reply))
    (hheld : ∀ n l held, c.gateway.shared.lease? n = some l → l.held = some held →
      c.Owns w σ n → c'.Owns w σ n)
    (howned : d.owned? (some reply) = some σ → c'.Owns w σ d.lease)
    (howners : ∀ j e, j ≠ id → c.gateway.leaseOps j = some e → e.owned? (c.inbox j) = some σ →
      c.Owns w σ e.lease → c'.Owns w σ e.lease)
    (hawaited : d.awaited? (some reply) = some σ → w.present c'.world σ = false)
    (hwaiters : ∀ j e, j ≠ id → c.gateway.leaseOps j = some e → e.awaited? (c.inbox j) = some σ →
      w.present c.world σ = false → w.present c'.world σ = false) : Staked w c' σ := by
  constructor
  · intro n l held hl hh hσ
    rw [hgateway] at hl
    exact hheld n l held hl hh (h.held n l held hl hh hσ)
  · intro j e he ho
    rw [hgateway] at he
    rw [hinbox] at ho
    by_cases hj : j = id
    · subst hj
      rw [Function.update_self] at ho
      rw [hd] at he
      cases he
      exact howned ho
    · rw [Function.update_of_ne hj] at ho
      exact howners j e hj he ho (h.owned j e he ho)
  · intro j e he ha
    rw [hgateway] at he
    rw [hinbox] at ha
    by_cases hj : j = id
    · subst hj
      rw [Function.update_self] at ha
      rw [hd] at he
      cases he
      exact hawaited ha
    · rw [Function.update_of_ne hj] at ha
      exact hwaiters j e hj he ha (h.awaited j e he ha)

/-- Whoever has its turn at the site is the only one, so nobody else awaits the site. -/
theorem InOrder.alone (ho : c.InOrder) {i j : TaskId} {d e : LeaseOp} {inbox : Option Reply}
    (hd : c.gateway.leaseOps i = some d) (he : c.gateway.leaseOps j = some e) (hturn : d.HasTurn σ)
    (ha : e.awaited? inbox = some σ) : j = i := by
  obtain ⟨hq, t, ht⟩ := hturn
  obtain ⟨hq', t', ht'⟩ := LeaseOp.hasTurn_of_awaited ha
  exact ho.turns.exclusive he hd ht' ht hq' hq

/-- The realm acts on the request of a lease operation. -/
theorem Staked.serves (h : Staked w c σ) (ho : c.InOrder) {id : TaskId} {d : LeaseOp}
    {reply : Reply}
    (hd : c.gateway.leaseOps id = some d) (hin : c.inbox id = none)
    (heffect : LeaseOp.Effect σ d reply (w.present c.world σ) (w.present c'.world σ))
    (hgateway : c'.gateway = c.gateway)
    (hinbox : c'.inbox = Function.update c.inbox id (some reply))
    (hmaker : makerOf σ c'.history =
      if reply.created? = some σ then some d.lease else makerOf σ c.history) : Staked w c' σ := by
  have howned : d.owned? none = some σ → c.Owns w σ d.lease := by
    intro h'
    rw [← hin] at h'
    exact h.owned id d hd h'
  cases heffect with
  | aside present created owned awaited =>
    rw [if_neg created] at hmaker
    have hkeeps : ∀ n, c.Owns w σ n → c'.Owns w σ n := by
      intro n hn
      exact ⟨present.trans hn.1, hmaker.trans hn.2⟩
    exact h.acts hd hgateway hinbox (fun n _ _ _ _ => hkeeps n)
      (fun ho' => hkeeps _ (howned (owned ho'))) (fun _ _ _ _ _ => hkeeps _)
      (fun ha => present.trans (awaited ha)) (fun _ _ _ _ _ hfalse => present.trans hfalse)
  | creates turn created vacant present awaited =>
    rw [if_pos created] at hmaker
    -- there was no file, so nobody owned the site
    have hvacant : w.present c.world σ = false := by
      rcases vacant with hv | ha
      · exact hv
      · exact h.awaited id d hd (hin.symm ▸ ha)
    have hnobody : ∀ n, ¬ c.Owns w σ n := by
      intro n hn
      have hpresent := hn.1
      rw [hvacant] at hpresent
      cases hpresent
    refine h.acts hd hgateway hinbox (fun n _ _ _ _ hn => absurd hn (hnobody n))
      (fun _ => ⟨present, hmaker⟩) (fun _ e _ _ _ hn => absurd hn (hnobody e.lease))
      (fun ha => ?_) (fun j e hj he ha _ => absurd (ho.alone hd he turn ha) hj)
    rw [awaited] at ha
    cases ha
  | changes turn created kept owned awaited =>
    rw [if_neg created] at hmaker
    have hkeeps : ∀ n, c.Owns w σ n → c'.Owns w σ n := by
      intro n hn
      exact ⟨kept hn.1, hmaker.trans hn.2⟩
    -- nobody else can await the site, since the lease operation has its turn there
    refine h.acts hd hgateway hinbox (fun n _ _ _ _ => hkeeps n)
      (fun ho' => hkeeps _ (howned (owned ho'))) (fun _ _ _ _ _ => hkeeps _)
      (fun ha => ?_) (fun j e hj he ha _ => absurd (ho.alone hd he turn ha) hj)
    rw [awaited] at ha
    cases ha
  | deletes owner created owned awaited =>
    rw [if_neg created] at hmaker
    obtain ⟨hpresent, hmade⟩ := howned owner
    obtain ⟨l, hl, hfits⟩ := ho.leases.fits id d hd
    have hlease : ∀ n, c.Owns w σ n → n = d.lease := by
      intro n hn
      exact hn.unique ⟨hpresent, hmade⟩
    refine h.acts hd hgateway hinbox (fun n l' held hl' hh hn => ?_)
      (fun ho' => ⟨(owned ho').trans hpresent, hmaker.trans hmade⟩) (fun j e hj he ho' hn => ?_)
      (fun ha => ?_) (fun _ _ _ _ _ hfalse => ?_)
    · -- the lease of a lease operation that deletes holds nothing
      rw [hlease n hn, hl] at hl'
      cases hl'
      rw [hfits.held_of_owned owner] at hh
      cases hh
    · -- another lease operation about the same lease would own the site too
      obtain ⟨l', hl', hfits'⟩ := ho.leases.fits j e he
      have hsame := hlease e.lease hn
      rw [hsame, hl] at hl'
      cases hl'
      exact absurd (ho.leases.single j id e d he hd hsame (hfits'.owned_kind hfits ho' owner)) hj
    · rw [awaited] at ha
      cases ha
    · rw [hpresent] at hfalse
      cases hfalse

/-- The realm acts on the request of a task without a lease operation, and leaves the site alone. -/
theorem Staked.passes (h : Staked w c σ) {id : TaskId} {inbox : Option Reply}
    (hd : c.gateway.leaseOps id = none) (hgateway : c'.gateway = c.gateway)
    (hinbox : c'.inbox = Function.update c.inbox id inbox)
    (hpresent : w.present c'.world σ = w.present c.world σ)
    (hmaker : makerOf σ c'.history = makerOf σ c.history) : Staked w c' σ := by
  have hkeeps : ∀ {n}, c.Owns w σ n → c'.Owns w σ n := fun hn =>
    ⟨hpresent.trans hn.1, hmaker.trans hn.2⟩
  have hold : ∀ j e, c'.gateway.leaseOps j = some e →
      c.gateway.leaseOps j = some e ∧ c'.inbox j = c.inbox j := by
    intro j e he
    rw [hgateway] at he
    have hj : j ≠ id := by
      intro hj
      rw [hj, hd] at he
      cases he
    rw [hinbox]
    exact ⟨he, Function.update_of_ne hj _ _⟩
  constructor
  · intro n l held hl hh hσ
    rw [hgateway] at hl
    exact hkeeps (h.held n l held hl hh hσ)
  · intro j e he ho
    obtain ⟨he', hin⟩ := hold j e he
    rw [hin] at ho
    exact hkeeps (h.owned j e he' ho)
  · intro j e he ha
    obtain ⟨he', hin⟩ := hold j e he
    rw [hin] at ha
    exact hpresent.trans (h.awaited j e he' ha)

theorem makerOf_served {id : TaskId} {t : Task} {reply : Reply} {history : List Entry} :
    makerOf σ (.served id t reply :: history) =
      if reply.created? = some σ then t.leaseOp?.map LeaseOp.lease else makerOf σ history := rfl

/-- Every change of a scene keeps the stakes, if the site is left alone. -/
theorem Staked.changes (h : Staked w c σ) (ho : c.InOrder) (hc : Changes w.toWorld c c')
    (halone : LeftAlone σ c'.history) : Staked w c' σ := by
  cases hc with
  | nothing => exact h
  | starts d g starts grows => exact h.starts starts rfl rfl fun _ _ => rfl
  | resumes id t p answer task pending inbox =>
    cases hd : c.gateway.leaseOps id with
    | none =>
      obtain ⟨d, starts⟩ := Gateway.starts_resume hd pending answer
      exact h.starts starts rfl rfl fun j hj => Function.update_of_ne hj _ _
    | some d => exact h.goes inbox (Gateway.goes_resume hd pending answer) rfl rfl rfl
  | serves id t p task pending inbox =>
    have htask := Gateway.leaseOps_eq task
    cases hd : t.leaseOp? with
    | some d =>
      rw [hd] at htask
      have hrequest := Gateway.request_of_leaseOp htask pending
      refine h.serves ho htask inbox (LeaseOp.effect w id c.world σ _ d p.request hrequest)
        rfl rfl ?_
      rw [makerOf_served, hd]
      rfl
    | none =>
      -- a task without a lease operation has nothing to do with the site
      have haltered := halone.unaltered hd
      rw [hd] at htask
      refine h.passes htask rfl rfl (w.untouched id p.request c.world σ haltered) ?_
      rw [makerOf_served, if_neg fun hcreated => haltered (Reply.altered_of_created hcreated)]

theorem LeftAlone.of_changes (hc : Changes w.toWorld c c') (h : LeftAlone σ c'.history) :
    LeftAlone σ c.history := by
  cases hc with
  | nothing => exact h
  | starts => exact h
  | serves => exact h.of_cons
  | resumes => exact h.of_cons

/-- The leases know how they stand to the site at all times. -/
theorem staked_run (writer : Diagnostics) (world : ε) (events : List Event)
    (halone : LeftAlone σ ((start writer world).run w.toWorld events).history) :
    Staked w ((start writer world).run w.toWorld events) σ := by
  -- the stakes need the order of the leases, which needs no assumption about the site
  refine (run_induction (P := fun c => c.InOrder ∧ (LeftAlone σ c.history → Staked w c σ))
    ⟨inOrder_start writer world, fun _ => staked_start writer world⟩ ?_ events).2 halone
  intro c c' h hc
  exact ⟨h.1.changes hc, fun ha => (h.2 (LeftAlone.of_changes hc ha)).changes h.1 hc ha⟩

/-! ## Exclusion -/

/-- What makes a lease worth having. An active lease holds a marker, and of the leases that hold
the marker at a site at most one is active.

Whoever is about to delete the file there deletes the marker of its own lease: a deletion that has
not taken place yet will find the marker that its lease has created (`own`). -/
structure Exclusive (w : Realm ε) (c : Scene ε) (σ : Site) : Prop where
  holds : ∀ id l, c.gateway.shared.lease? id = some l → l.state = .active → l.held ≠ none
  single : ∀ id id' l l' held held', c.gateway.shared.lease? id = some l →
    c.gateway.shared.lease? id' = some l' → l.state = .active → l'.state = .active →
    l.held = some held → l'.held = some held' → held.site = σ → held'.site = σ → id = id'
  own : ∀ i d p, c.gateway.leaseOps i = some d → c.gateway.pending? i = some p → c.inbox i = none →
    p.request.deleted? = some σ → c.Owns w σ d.lease

/-- A lease operation that is about to delete a file owns it. -/
theorem owned_of_deleted {writer : Diagnostics} {d : LeaseOp}
    (h : (d.next writer).request.deleted? = some σ) : d.owned? none = some σ := by
  cases d with
  | acquire a place =>
    cases place with
    | cleaning bid f => exact h
    | _ => cases h
  | surrender r place =>
    cases place with
    | removing removal => exact h
    | _ => cases h

theorem exclusive_run (w : Realm ε) (writer : Diagnostics) (world : ε) (events : List Event)
    (σ : Site) (halone : LeftAlone σ ((start writer world).run w.toWorld events).history) :
    Exclusive w ((start writer world).run w.toWorld events) σ := by
  have horder := inOrder_run (w := w.toWorld) writer world events
  have hstaked := staked_run (w := w) writer world events halone
  constructor
  · intro id l hl hactive
    exact (horder.leases.sound id l hl).active hactive
  · intro id id' l l' held held' hl hl' _ _ hh hh' hσ hσ'
    have howns := hstaked.held id l held hl hh hσ
    have howns' := hstaked.held id' l' held' hl' hh' hσ'
    exact howns.unique howns'
  · -- a lease operation only ever deletes what it owns
    intro i d p hd hp hin hdelete
    rw [Gateway.request_of_leaseOp hd hp] at hdelete
    refine hstaked.owned i d hd ?_
    rw [hin]
    exact owned_of_deleted hdelete

/-- Two leases on one target, acquired through a store that creates exclusively and through one that
does not. The second one finds the marker of the first one, which is released and removed. -/
def rivals : List Event :=
  let goOn (id : TaskId) (times : Nat) : List Event :=
    (List.replicate times [.serve id, .deliver id]).flatten
  [.call (.addLease ⟨"/out"⟩), .call (.addLease ⟨"/out"⟩),
    .call (.acquire 0 ⟨0, "file://", true⟩ .empty .zero),
    .call (.acquire 1 ⟨1, "file://", false⟩ .empty .zero)] ++
    goOn 0 1 ++ goOn 1 1 ++ goOn 0 9 ++ goOn 1 9 ++ [.call (.release 0 false)] ++ goOn 2 3

theorem exclusive_run_rivals :
    LeftAlone ⟨"file://", ⟨⟨"/out.lock"⟩⟩⟩
      ((start ⟨"host", "10.0.0.1", 7⟩ (Memory.empty fun _ => [])).run Memory.realm.toWorld
        rivals).history ∧
    Exclusive Memory.realm
      ((start ⟨"host", "10.0.0.1", 7⟩ (Memory.empty fun _ => [])).run Memory.realm.toWorld rivals)
      ⟨"file://", ⟨⟨"/out.lock"⟩⟩⟩ :=
  ⟨by decide +kernel, exclusive_run Memory.realm _ _ rivals _ (by decide +kernel)⟩

end Scene

end FileGateway

import FileGateway.Proofs.Operation.Streams

/-!
# What markers hold

A marker that a lease holds is complete: it holds the diagnostics of the process, and nothing else.
The lease operation that has created the marker opens it, writes all of it at once and completes it,
and while it does so nobody else touches the file: nobody else owns it, and whoever tries to create
it exclusively leaves what is there alone.

* `LeaseOp.progress?` tells how far a marker is written where its lease operation stands, and
  `Progress.Shows` what there is to be seen of it. `LeaseOp.Moves.progress` and
  `Progress.Shows.acts` are the steps of the lease operation itself, `Progress.Shows.apart` those of
  everybody else;
* `Scene.Inscribed` is the invariant.
-/

namespace FileGateway

variable {ε : Type}

/-! ## The progress of a marker -/

/-- How far a marker is written: a stream was opened and nothing was written to it, everything was
written to the stream, or the marker is complete. -/
inductive Progress where
  | blank (stream : StreamId)
  | full (stream : StreamId)
  | complete

/-- How far the marker of a lease operation is written, and the site of the marker. The answer in
the inbox is what has come of the last request. -/
def LeaseOp.progress? : LeaseOp → Option Reply → Option (Site × Progress)
  | acquire a (.opening bid), some ⟨.store _ (.openWrite _ _), .ok s⟩ => some (a.site bid, .blank s)
  | acquire a (.writing bid s), none => some (a.site bid, .blank s)
  | acquire a (.writing bid s), some ⟨.store _ (.write _ _), .ok _⟩ => some (a.site bid, .full s)
  | acquire a (.finishing bid s), none => some (a.site bid, .full s)
  | acquire a (.finishing bid _), some ⟨.store _ (.finish _), .ok _⟩ => some (a.site bid, .complete)
  | acquire a (.holding bid), _ => some (a.site bid, .complete)
  | _, _ => none

/-- What is to be seen of a marker that is written so far and will hold a text. -/
def Progress.Shows (w : Archive ε) (e : ε) (σ : Site) (text : Bytes) : Progress → Prop
  | blank s => w.Drafts e σ s []
  | full s => w.Drafts e σ s text
  | complete => w.content e σ = text

namespace LeaseOp

/-- Whoever writes a marker owns it. -/
theorem owned_of_progress {d : LeaseOp} {inbox : Option Reply} {σ : Site} {progress : Progress}
    (h : d.progress? inbox = some (σ, progress)) : d.owned? inbox = some σ := by
  unfold progress? at h
  split at h
  all_goals cases h
  all_goals rfl

/-- Whoever has not completed its marker has its turn there. -/
theorem hasTurn_of_progress {d : LeaseOp} {inbox : Option Reply} {σ : Site} {progress : Progress}
    (h : d.progress? inbox = some (σ, progress)) (hc : progress ≠ .complete) : d.HasTurn σ := by
  unfold progress? at h
  split at h
  all_goals cases h
  all_goals first | exact absurd rfl hc | exact ⟨rfl, _, rfl⟩

/-- The marker is as far after a move as it was before. -/
theorem Moves.progress {writer : Diagnostics} {s s' : Shared} {d e : LeaseOp} {reply : Reply}
    (h : d.Moves writer s reply (.paused e) s') {progress : Site × Progress}
    (he : e.progress? none = some progress) : d.progress? (some reply) = some progress := by
  cases h with
  | granted a bid => split at he <;> cases he
  | taken r held h => split at he <;> cases he
  | opened a bid stream => exact he
  | written a bid stream => exact he
  | finished a bid stream => exact he
  | _ => cases he

/-- What a lease holds after a move it has held before, or its marker is complete. -/
theorem held_of_change {d : LeaseOp} {now : Instant} {l : Lease} {held : Held}
    (inbox : Option Reply)
    (h : (d.change now l).held = some held) :
    l.held = some held ∨ d.progress? inbox = some (held.site, .complete) := by
  cases d with
  | acquire a place =>
    cases place with
    | holding bid =>
      cases h
      exact Or.inr rfl
    | _ => exact Or.inl h
  | surrender r place =>
    cases place with
    | taking => cases h
    | _ => exact Or.inl h

end LeaseOp

namespace Progress.Shows

variable {w : Archive ε} {i : TaskId} {e : ε} {σ : Site} {text : Bytes} {progress : Progress}

/-- A step of the world that does not touch the marker. -/
theorem apart (h : progress.Shows w e σ text) {r : Request}
    (hr : r.touched? (w.site? e) ≠ some σ) : progress.Shows w (w.answer i r e).2 σ text := by
  obtain ⟨hcontent, hdraft⟩ := w.apart i r e σ hr
  have hdrafts : ∀ {s draft}, w.Drafts e σ s draft → w.Drafts (w.answer i r e).2 σ s draft := by
    intro s draft hs
    exact ⟨w.steady i r e s σ hs.1, (hdraft s hs.1).trans hs.2⟩
  cases progress with
  | blank s => exact hdrafts h
  | full s => exact hdrafts h
  | complete => exact hcontent.trans h

/-- The archive acts on the request of the lease operation that writes the marker. -/
theorem acts {writer : Diagnostics} {d : LeaseOp} {request : Request}
    (hr : request = (d.next writer).request) (htext : writer.text.toUTF8.toList = text)
    (h : d.progress? (some ⟨request, (w.answer i request e).1⟩) = some (σ, progress))
    (hbefore : ∀ before, d.progress? none = some (σ, before) → before.Shows w e σ text) :
    progress.Shows w (w.answer i request e).2 σ text := by
  cases d with
  | acquire a place =>
    cases place with
    | opening bid =>
      have hopen : request = .store a.backend (.openWrite bid.marker false) := hr
      subst hopen
      have hopened := w.opened i a.backend bid.marker false e
      generalize w.answer i (.store a.backend (.openWrite bid.marker false)) e = result at *
      obtain ⟨f | s, e'⟩ := result
      · cases h
      · cases h
        exact (hopened s rfl).2
    | writing bid s =>
      have hwrite : request = .store a.backend (.write s writer.text.toUTF8.toList) := hr
      subst hwrite
      have hsite := w.steady i (.store a.backend (.write s writer.text.toUTF8.toList)) e s
      have hwritten := w.written i a.backend s writer.text.toUTF8.toList e []
      generalize w.answer i (.store a.backend (.write s writer.text.toUTF8.toList)) e = result at *
      obtain ⟨f | _, e'⟩ := result
      · cases h
      · cases h
        -- nothing was written before, so the draft is the text
        have hblank := hbefore (.blank s) rfl
        exact ⟨hsite _ hblank.1, htext ▸ hwritten rfl hblank.2⟩
    | finishing bid s =>
      have hfinish : request = .store a.backend (.finish s) := hr
      subst hfinish
      have hfinished := w.finished i a.backend s e (a.site bid) text
      generalize w.answer i (.store a.backend (.finish s)) e = result at *
      obtain ⟨f | _, e'⟩ := result
      · cases h
      · cases h
        have hfull := hbefore (.full s) rfl
        exact hfinished rfl hfull.1 hfull.2
    | holding bid =>
      cases h
      subst hr
      exact (hbefore .complete rfl).apart fun htouched => by cases htouched
    | _ => cases h
  | surrender r place => cases h

end Progress.Shows

/-! ## Scenes -/

namespace Scene

variable {w : Archive ε} {c c' : Scene ε} {σ : Site} {text : Bytes}

/-- A marker at the site that a lease holds is complete, and one that is being written is as far as
its lease operation. -/
structure Inscribed (w : Archive ε) (σ : Site) (text : Bytes) (c : Scene ε) : Prop where
  held : ∀ n l held, c.gateway.shared.lease? n = some l → l.held = some held → held.site = σ →
    w.content c.world σ = text
  written : ∀ i d progress, c.gateway.leaseOps i = some d →
    d.progress? (c.inbox i) = some (σ, progress) → progress.Shows w c.world σ text

theorem inscribed_start (writer : Diagnostics) (world : ε) :
    Inscribed w σ text (start writer world) where
  held := fun n l held h => by simp [start, Gateway.start, Shared.start, Shared.lease?] at h
  written := fun i d progress h => by cases h

theorem Inscribed.starts (h : Inscribed w σ text c) {id : TaskId} {d : Option LeaseOp}
    (hs : c.gateway.Starts id d c'.gateway) (hworld : c'.world = c.world)
    (hinbox : ∀ j, j ≠ id → c'.inbox j = c.inbox j) : Inscribed w σ text c' := by
  constructor
  · intro n l held hl hh hσ
    rw [hworld]
    obtain ⟨l', hl', hh'⟩ := hs.begins.held hl hh
    exact h.held n l' held hl' hh' hσ
  · intro j e progress he hprogress
    rw [hworld]
    rw [hs.leaseOps] at he
    by_cases hj : j = id
    · -- whatever begins has not created its marker yet
      subst hj
      rw [Function.update_self] at he
      subst he
      have howned := LeaseOp.owned_of_progress hprogress
      rw [(hs.begins.stakeless _).1] at howned
      cases howned
    · rw [Function.update_of_ne hj] at he
      rw [hinbox j hj] at hprogress
      exact h.written j e progress he hprogress

theorem Inscribed.goes (h : Inscribed w σ text c) {id : TaskId} {d : LeaseOp} {reply : Reply}
    (hin : c.inbox id = some reply) (hg : c.gateway.Goes id d reply c'.gateway)
    (hworld : c'.world = c.world) (hinbox : c'.inbox = Function.update c.inbox id none) :
    Inscribed w σ text c' := by
  obtain ⟨step, s, hm, ha, hleaseOps⟩ := hg.moves
  have hwritten : ∀ progress, d.progress? (some reply) = some (σ, progress) →
      progress.Shows w c.world σ text := by
    intro progress hprogress
    rw [← hin] at hprogress
    exact h.written id d progress hg.leaseOp hprogress
  constructor
  · intro n l held hl hh hσ
    rw [hworld]
    rw [hm.lease? ha.leases] at hl
    split at hl
    · obtain ⟨l', hl', rfl⟩ := Option.map_eq_some_iff.1 hl
      rcases LeaseOp.held_of_change (some reply) hh with hheld | hprogress
      · exact h.held n l' held hl' hheld hσ
      · rw [hσ] at hprogress
        exact hwritten .complete hprogress
    · exact h.held n l held hl hh hσ
  · intro j e progress he hprogress
    rw [hworld]
    rw [hleaseOps] at he
    rw [hinbox] at hprogress
    by_cases hj : j = id
    · subst hj
      rw [Function.update_self] at he hprogress
      cases step with
      | done result => cases he
      | paused e' =>
        cases he
        exact hwritten progress (hm.progress hprogress)
    · rw [Function.update_of_ne hj] at he hprogress
      exact h.written j e progress he hprogress

/-- What a request that is about to be acted on can do to a site that a lease owns: it does not
touch the file; or it is that of the owner; or it tries to create the file exclusively. -/
theorem Led.spares (h : Led w σ c) (hs : Staked w.toRealm c σ) {id : TaskId} {t : Task}
    {p : Pending Gateway} (task : c.gateway.task? id = some t)
    (pending : c.gateway.pending? id = some p) (inbox : c.inbox id = none)
    (halone : t.leaseOp? = none → p.request.altered? ≠ some σ) {n : LeaseId}
    (hn : c.Owns w.toRealm σ n) :
    p.request.touched? (w.site? c.world) ≠ some σ ∨
      (∃ d, c.gateway.leaseOps id = some d ∧ d.owned? none = some σ ∧ d.lease = n) ∨
      ∃ a bid, c.gateway.leaseOps id = some (.acquire a (.creating bid)) ∧ a.site bid = σ := by
  by_cases htouched : p.request.touched? (w.site? c.world) = some σ
  · obtain ⟨d, hd, htouches⟩ := h.touched task pending inbox halone htouched
    right
    cases htouches with
    | owner owned =>
      have howns : c.Owns w.toRealm σ d.lease := by
        rw [← inbox] at owned
        exact hs.owned id d hd owned
      exact Or.inl ⟨d, hd, owned, howns.unique hn⟩
    | waiter awaited =>
      -- nobody awaits a site where there is a file
      rw [← inbox] at awaited
      have habsent := hs.awaited id d hd awaited
      rw [hn.1] at habsent
      cases habsent
    | rival a bid leaseOp site =>
      subst leaseOp
      exact Or.inr ⟨a, bid, hd, site⟩
  · exact Or.inl htouched

theorem Inscribed.serves (h : Inscribed w σ text c) (hw : w.Reliable) (hl : Led w σ c)
    (hs : Staked w.toRealm c σ) (ho : c.InOrder)
    (htext : c.gateway.shared.writer.text.toUTF8.toList = text) {id : TaskId} {t : Task}
    {p : Pending Gateway} (task : c.gateway.task? id = some t)
    (pending : c.gateway.pending? id = some p) (inbox : c.inbox id = none)
    (halone : t.leaseOp? = none → p.request.altered? ≠ some σ)
    (hgateway : c'.gateway = c.gateway) (hworld : c'.world = (w.answer id p.request c.world).2)
    (hinbox : c'.inbox =
      Function.update c.inbox id (some ⟨p.request, (w.answer id p.request c.world).1⟩)) :
    Inscribed w σ text c' := by
  -- a rival creates nothing where there is a file
  have hrival : ∀ {a bid n}, c.gateway.leaseOps id = some (.acquire a (.creating bid)) →
      a.site bid = σ → c.Owns w.toRealm σ n →
        w.content (w.answer id p.request c.world).2 σ = w.content c.world σ := by
    intro a bid n hd hσ hn
    rw [Gateway.request_of_leaseOp hd pending]
    subst hσ
    exact hw.spared id a.backend bid.marker c.world hn.1
  constructor
  · intro n l held hlease hh hσ
    rw [hgateway] at hlease
    rw [hworld]
    have hn := hs.held n l held hlease hh hσ
    have hcontent := h.held n l held hlease hh hσ
    rcases hl.spares hs task pending inbox halone hn with
      hapart | ⟨d, hd, howned, hsame⟩ | ⟨a, bid, hd, hσ'⟩
    · exact (w.apart id p.request c.world σ hapart).1.trans hcontent
    · -- a lease operation that owns the site has a lease that holds nothing
      obtain ⟨l', hl', hfits⟩ := ho.leases.fits id d hd
      rw [hsame, hlease] at hl'
      cases hl'
      rw [hfits.held_of_owned howned] at hh
      cases hh
    · exact (hrival hd hσ' hn).trans hcontent
  · intro j e progress he hprogress
    rw [hgateway] at he
    rw [hinbox] at hprogress
    rw [hworld]
    by_cases hj : j = id
    · subst hj
      rw [Function.update_self] at hprogress
      refine Progress.Shows.acts (Gateway.request_of_leaseOp he pending) htext hprogress ?_
      intro before hbefore
      rw [← inbox] at hbefore
      exact h.written j e before he hbefore
    · rw [Function.update_of_ne hj] at hprogress
      have howned := LeaseOp.owned_of_progress hprogress
      have hn := hs.owned j e he howned
      have hshows := h.written j e progress he hprogress
      rcases hl.spares hs task pending inbox halone hn with
        hapart | ⟨d, hd, howned', hsame⟩ | ⟨a, bid, hd, hσ⟩
      · exact hshows.apart hapart
      · -- the owner of the site is the lease operation that writes the marker
        obtain ⟨l, hl, hfits⟩ := ho.leases.fits id d hd
        obtain ⟨l', hl', hfits'⟩ := ho.leases.fits j e he
        rw [← hsame, hl] at hl'
        cases hl'
        have hkind := hfits'.owned_kind hfits howned howned'
        exact absurd (ho.leases.single j id e d he hd hsame.symm hkind) hj
      · by_cases hcomplete : progress = .complete
        · subst hcomplete
          exact (hrival hd hσ hn).trans hshows
        · -- whoever has its turn is alone
          obtain ⟨hqueued, ticket, hticket⟩ := LeaseOp.hasTurn_of_progress hprogress hcomplete
          subst hσ
          exact absurd (ho.turns.exclusive he hd hticket rfl hqueued rfl) hj

/-- Every change of a scene leaves the markers as far as they should be. -/
theorem Inscribed.changes (h : Inscribed w σ text c) (hw : w.Reliable) (hl : Led w σ c)
    (hs : Staked w.toRealm c σ) (ho : c.InOrder)
    (htext : c.gateway.shared.writer.text.toUTF8.toList = text) (hc : Changes w.toWorld c c')
    (halone : LeftAlone σ c'.history) : Inscribed w σ text c' := by
  cases hc with
  | nothing => exact h
  | starts d g starts grows => exact h.starts starts rfl fun _ _ => rfl
  | resumes id t p answer task pending inbox =>
    cases hd : c.gateway.leaseOps id with
    | none =>
      obtain ⟨d, starts⟩ := Gateway.starts_resume hd pending answer
      exact h.starts starts rfl fun j hj => Function.update_of_ne hj _ _
    | some d => exact h.goes inbox (Gateway.goes_resume hd pending answer) rfl rfl
  | serves id t p task pending inbox =>
    exact h.serves hw hl hs ho htext task pending inbox (fun hd => halone.unaltered hd) rfl rfl rfl

end Scene

end FileGateway

import FileGateway.Proofs.Lease.Abandonment

/-!
# Markers and who owns them

In a reliable realm no marker is lost sight of: as long as there is one, a lease holds it, or a
lease operation owns it, or a lease has given up on it. And a lease that holds a marker is active,
or somebody is about to make it so or to take the marker from it.

* `Attended` is the invariant of what the leases hold, with a lemma for what begins and one for the
  moves of lease operations;
* `Scene.MarkerOwned` is the invariant of the marker at a site. A move passes the marker on
  (`LeaseOp.Moves.passes_on`), and a request that leaves a file leaves somebody who owns it
  (`LeaseOp.leaves_of_present`).
-/

namespace FileGateway

/-! ## What leases hold -/

/-- Whether a lease operation is about to make its lease active, or to take what it holds. -/
def LeaseOp.Attends : LeaseOp → Prop
  | acquire _ (.activating _) => True
  | surrender _ .taking => True
  | _ => False

/-- A lease that holds something is active, or somebody attends to it. -/
def Attended (s : Shared) (leaseOps : TaskId → Option LeaseOp) : Prop :=
  ∀ n l, s.lease? n = some l → l.held ≠ none →
    l.state = .active ∨ ∃ i d, leaseOps i = some d ∧ d.lease = n ∧ d.Attends

namespace Attended

variable {s s₁ s' : Shared} {leaseOps : TaskId → Option LeaseOp} {i : TaskId}

theorem start (writer : Diagnostics) : Attended (.start writer) fun _ => none := by
  intro n l hl
  simp [Shared.start, Shared.lease?] at hl

theorem begins (h : Attended s leaseOps) (hi : leaseOps i = none) {d : Option LeaseOp}
    (hb : Begins s d s') : Attended s' (Function.update leaseOps i d) := by
  intro n l hl hheld
  obtain ⟨held, hh⟩ := Option.ne_none_iff_exists'.1 hheld
  obtain ⟨l', hl', hh'⟩ := hb.held hl hh
  have hheld' : l'.held ≠ none := by
    rw [hh']
    exact Option.some_ne_none held
  rcases h n l' hl' hheld' with hactive | ⟨j, e, he, hlease, hattends⟩
  · -- an active lease stays so, unless what begins gives it up
    have hbefore : s.stage? n = some .active := by
      rw [Shared.stage?, hl', ← hactive]
      rfl
    have hafter : s'.stage? n = some l.state := by
      rw [Shared.stage?, hl]
      rfl
    have hstage := hb.stage n
    rw [hbefore, hafter] at hstage
    generalize l.state = stage at hstage
    cases hstage with
    | same => exact Or.inl rfl
    | givenUp r leaseOp lease =>
      subst leaseOp
      exact Or.inr ⟨i, _, Function.update_self _ _ _, lease, trivial⟩
  · have hj : j ≠ i := by
      rintro rfl
      rw [hi] at he
      cases he
    exact Or.inr ⟨j, e, (Function.update_of_ne hj _ _).trans he, hlease, hattends⟩

theorem moves (h : Attended s leaseOps) (ho : Orderly s leaseOps) {d : LeaseOp}
    (hi : leaseOps i = some d)
    {writer : Diagnostics} {reply : Reply} {step : Step LeaseOp LeaseOp.Ending}
    (hm : d.Moves writer s reply step s₁) (ha : s'.leases = s₁.leases) :
    Attended s' (Function.update leaseOps i step.place?) := by
  intro n l hl hheld
  -- whoever attends to a lease goes on doing so, unless it makes this move
  have hothers : ∀ l₀, s.lease? n = some l₀ → l₀.held ≠ none → ¬ (d.lease = n ∧ d.Attends) →
      l₀.state = .active ∨ ∃ j e, Function.update leaseOps i step.place? j = some e ∧
        e.lease = n ∧ e.Attends := by
    intro l₀ hl₀ hheld₀ hnot
    rcases h n l₀ hl₀ hheld₀ with hactive | ⟨j, e, he, hlease, hattends⟩
    · exact Or.inl hactive
    · have hj : j ≠ i := by
        rintro rfl
        rw [hi] at he
        cases he
        exact hnot ⟨hlease, hattends⟩
      exact Or.inr ⟨j, e, (Function.update_of_ne hj _ _).trans he, hlease, hattends⟩
  rw [hm.lease? ha] at hl
  split at hl
  · next hn =>
    obtain ⟨l₀, hl₀, rfl⟩ := Option.map_eq_some_iff.1 hl
    obtain ⟨l₁, hl₁, hfits⟩ := ho.fits i d hi
    rw [hn, hl₀] at hl₁
    cases hl₁
    cases hm with
    | held a bid => exact Or.inr ⟨i, _, Function.update_self _ _ _, hn, trivial⟩
    | activated a bid => exact Or.inl rfl
    | armed a => exact hothers l₀ hl₀ hheld fun hnot => hnot.2
    | taken r held hsome => exact absurd rfl hheld
    | empty r hnone => exact absurd rfl hheld
    -- at all other places the lease of the lease operation holds nothing
    | _ => exact absurd hfits.2 hheld
  · next hn => exact hothers l hl hheld fun hnot => hn hnot.1

end Attended

/-! ## What becomes of a marker -/

namespace LeaseOp

/-- Whoever owns a site goes on owning it, hands it over to its lease, or has failed to remove the
file for the last time. -/
theorem Moves.passes_on {writer : Diagnostics} {s s' : Shared} {d : LeaseOp} {reply : Reply}
    {step : Step LeaseOp Ending} {σ : Site} (h : d.Moves writer s reply step s')
    (ho : d.owned? (some reply) = some σ) :
    (∃ e, step.place? = some e ∧ e.owned? none = some σ) ∨
      (∃ held : Held, held.site = σ ∧ ∀ now l, (d.change now l).held = some held) ∨
      d.Doomed (some reply) := by
  cases h with
  | created a bid => exact Or.inl ⟨_, rfl, ho⟩
  | filled a bid => exact Or.inl ⟨_, rfl, ho⟩
  | opened a bid stream => exact Or.inl ⟨_, rfl, ho⟩
  | unopened a bid f => exact Or.inl ⟨_, rfl, ho⟩
  | written a bid stream => exact Or.inl ⟨_, rfl, ho⟩
  | unwritten a bid stream f => exact Or.inl ⟨_, rfl, ho⟩
  | finished a bid stream => exact Or.inl ⟨_, rfl, ho⟩
  | unfinished a bid stream f => exact Or.inl ⟨_, rfl, ho⟩
  | cancelled r held => exact Or.inl ⟨_, rfl, ho⟩
  | retried r removal f hattempt => exact Or.inl ⟨_, rfl, ho⟩
  | held a bid =>
    exact Or.inr (Or.inl ⟨⟨a.backend, bid.marker⟩, Option.some.inj ho, fun _ _ => rfl⟩)
  | abandoned r removal f hattempt => exact Or.inr (Or.inr hattempt)
  | _ => cases ho

/-- A lease goes on holding what it holds, or its lease operation owns it from now on. -/
theorem Moves.keeps_or_takes {writer : Diagnostics} {s s' : Shared} {d : LeaseOp} {reply : Reply}
    {step : Step LeaseOp Ending} (h : d.Moves writer s reply step s') {l : Lease} {held : Held}
    (hl : s.lease? d.lease = some l) (hfits : d.Fits l) (hh : l.held = some held) :
    (d.change s.now l).held = some held ∨
      ∃ e, step.place? = some e ∧ e.owned? none = some held.site := by
  cases h with
  | held a bid =>
    -- a lease that is about to note what it holds holds nothing yet
    rw [hfits.2] at hh
    cases hh
  | empty r hnone =>
    have hbind : (s.lease? r.lease).bind Lease.held = l.held := congrArg (Option.bind · _) hl
    rw [hbind, hh] at hnone
    cases hnone
  | taken r held' hsome =>
    have hbind : (s.lease? r.lease).bind Lease.held = l.held := congrArg (Option.bind · _) hl
    rw [hbind, hh] at hsome
    cases hsome
    refine Or.inr ⟨_, rfl, ?_⟩
    split <;> rfl
  | _ => exact Or.inl hh

variable {ε : Type} {w : Realm ε} {i : TaskId} {e : ε} {σ : Site}

/-- What is left of a file after a lease operation's request: it was there before and is not the
lease operation's; or the lease operation owns it; or the lease operation has just left it
behind. -/
inductive Leaves (w : Realm ε) (σ : Site) (i : TaskId) (t : Task) (d : LeaseOp) (e : ε)
    (request : Request) : Prop where
  | others (present : w.present e σ = true) (owned : d.owned? none ≠ some σ)
  | owns (owned : d.owned? (some ⟨request, (w.answer i request e).1⟩) = some σ)
  | behind (leaves :
      (Entry.served i t ⟨request, (w.answer i request e).1⟩).leaves σ d.lease = true)

/-- A request that is about no file at the site leaves a file that was there before. -/
theorem leaves_untouched {t : Task} {d : LeaseOp} {request : Request}
    (h : request.altered? ≠ some σ) (howned : d.owned? none ≠ some σ)
    (hpresent : w.present (w.answer i request e).2 σ = true) : Leaves w σ i t d e request :=
  .others ((w.untouched i request e σ h).symm.trans hpresent) howned

/-- A creation that does not succeed leaves a file that was there before. -/
theorem leaves_uncreated {t : Task} {d : LeaseOp} {request : Request}
    (h : w.present e σ = false → w.present (w.answer i request e).2 σ = false)
    (howned : d.owned? none ≠ some σ)
    (hpresent : w.present (w.answer i request e).2 σ = true) : Leaves w σ i t d e request := by
  refine .others ?_ howned
  by_contra habsent
  rw [h (Bool.eq_false_iff.2 habsent)] at hpresent
  cases hpresent

theorem leaves_creating (hw : w.Reliable) {t : Task} (a : Acquire) (bid : Acquire.Bid)
    (hpresent : w.present
      (w.answer i (.store a.backend (.createExclusive bid.marker)) e).2 σ = true) :
    Leaves w σ i t (acquire a (.creating bid)) e
      (.store a.backend (.createExclusive bid.marker)) := by
  by_cases hσ : a.site bid = σ
  · subst hσ
    by_cases hanswer :
        (w.answer i (.store a.backend (.createExclusive bid.marker)) e).1 = .ok true
    · refine .owns ?_
      rw [hanswer]
      rfl
    · exact leaves_uncreated (hw.beaten i a.backend bid.marker e hanswer) (fun ho => by cases ho)
        hpresent
  · exact leaves_untouched (altered_ne σ rfl hσ) (fun ho => by cases ho) hpresent

theorem leaves_filling (hw : w.Reliable) {t : Task} (a : Acquire) (bid : Acquire.Bid)
    (hpresent : w.present (w.answer i (.store a.backend (.createFile bid.marker)) e).2 σ = true) :
    Leaves w σ i t (acquire a (.filling bid)) e (.store a.backend (.createFile bid.marker)) := by
  by_cases hσ : a.site bid = σ
  · subst hσ
    cases hanswer : (w.answer i (.store a.backend (.createFile bid.marker)) e).1 with
    | ok created =>
      refine .owns ?_
      rw [hanswer]
      rfl
    | error f =>
      exact leaves_uncreated (hw.uncreated i a.backend bid.marker e f hanswer)
        (fun ho => by cases ho) hpresent
  · exact leaves_untouched (altered_ne σ rfl hσ) (fun ho => by cases ho) hpresent

theorem leaves_cleaning (hw : w.Reliable) {t : Task} (a : Acquire) (bid : Acquire.Bid)
    (failure : Failure) (hd : t.leaseOp? = some (acquire a (.cleaning bid failure)))
    (hpresent : w.present (w.answer i (.store a.backend (.delete bid.marker)) e).2 σ = true) :
    Leaves w σ i t (acquire a (.cleaning bid failure)) e
      (.store a.backend (.delete bid.marker)) := by
  by_cases hσ : a.site bid = σ
  · subst hσ
    cases hanswer : (w.answer i (.store a.backend (.delete bid.marker)) e).1 with
    | ok existed =>
      have hdeleted := hw.deleted i a.backend bid.marker e existed hanswer
      exact absurd (hdeleted.symm.trans hpresent) Bool.false_ne_true
    | error f =>
      refine .behind ?_
      rw [hanswer]
      simp only [Entry.leaves, hd]
      exact decide_eq_true ⟨rfl, rfl⟩
  · exact leaves_untouched (altered_ne σ rfl hσ) (fun ho => hσ (Option.some.inj ho)) hpresent

theorem leaves_removing (hw : w.Reliable) {t : Task} (r : Surrender) (removal : Removal)
    (hpresent : w.present
      (w.answer i (.store removal.backend (.delete removal.marker)) e).2 σ = true) :
    Leaves w σ i t (surrender r (.removing removal)) e
      (.store removal.backend (.delete removal.marker)) := by
  by_cases hσ : removal.site = σ
  · subst hσ
    cases hanswer : (w.answer i (.store removal.backend (.delete removal.marker)) e).1 with
    | ok existed =>
      have hdeleted := hw.deleted i removal.backend removal.marker e existed hanswer
      exact absurd (hdeleted.symm.trans hpresent) Bool.false_ne_true
    | error f =>
      refine .owns ?_
      rw [hanswer]
      rfl
  · exact leaves_untouched (altered_ne σ rfl hσ) (fun ho => hσ (Option.some.inj ho)) hpresent

/-- A lease operation that owns a file whatever it is answered goes on doing so, and leaves a file
that was there before if it owns none. -/
theorem leaves_kept {t : Task} {d : LeaseOp} {request : Request}
    (howned : ∀ reply, d.owned? (some reply) = d.owned? none)
    (hpresent : w.present (w.answer i request e).2 σ = true)
    (haltered : d.owned? none ≠ some σ → request.altered? ≠ some σ) :
    Leaves w σ i t d e request := by
  by_cases ho : d.owned? none = some σ
  · exact .owns ((howned _).trans ho)
  · exact leaves_untouched (haltered ho) ho hpresent

/-- If there is a file at the site after a lease operation's request, it is accounted for. -/
theorem leaves_of_present (hw : w.Reliable) {t : Task} {writer : Diagnostics} {d : LeaseOp}
    {request : Request} (hd : t.leaseOp? = some d) (h : request = (d.next writer).request)
    (hpresent : w.present (w.answer i request e).2 σ = true) : Leaves w σ i t d e request := by
  subst h
  cases d with
  | acquire a place =>
    cases place with
    | creating bid => exact leaves_creating hw a bid hpresent
    | filling bid => exact leaves_filling hw a bid hpresent
    | cleaning bid failure => exact leaves_cleaning hw a bid failure hd hpresent
    | opening bid =>
      refine leaves_kept (fun _ => rfl) hpresent fun ho => ?_
      exact altered_ne σ rfl fun hσ => ho (congrArg some hσ)
    | probing bid =>
      exact leaves_untouched (fun ha => by cases ha) (fun ho => by cases ho) hpresent
    | _ =>
      exact leaves_kept (fun _ => rfl) hpresent fun _ ha => by cases ha
  | surrender r place =>
    cases place with
    | removing removal => exact leaves_removing hw r removal hpresent
    | _ =>
      exact leaves_kept (fun _ => rfl) hpresent fun _ ha => by cases ha

end LeaseOp

/-! ## Scenes -/

namespace Scene

variable {ε : Type} {w : Realm ε} {c c' : Scene ε} {σ : Site}

/-- A lease holds the marker at a site. -/
def IsHeld (c : Scene ε) (σ : Site) : Prop :=
  ∃ n l held, c.gateway.shared.lease? n = some l ∧ l.held = some held ∧ held.site = σ

/-- A lease operation owns the marker at a site. -/
def IsOwned (c : Scene ε) (σ : Site) : Prop :=
  ∃ i d, c.gateway.leaseOps i = some d ∧ d.owned? (c.inbox i) = some σ

/-- If there is a file at a site, a lease holds it, a lease operation owns it, or a lease has given
up on it. -/
def MarkerOwned (w : Realm ε) (σ : Site) (c : Scene ε) : Prop :=
  w.present c.world σ = true → c.IsHeld σ ∨ c.IsOwned σ ∨ ∃ n, GaveUp σ n c.history

theorem markerOwned_start (writer : Diagnostics) {world : ε} (h : w.present world σ = false) :
    MarkerOwned w σ (start writer world) := by
  intro hpresent
  exact absurd (h.symm.trans hpresent) Bool.false_ne_true

theorem MarkerOwned.starts (h : MarkerOwned w σ c) {id : TaskId} {d : Option LeaseOp}
    (hs : c.gateway.Starts id d c'.gateway) (hworld : c'.world = c.world)
    (hhistory : ∀ n, GaveUp σ n c.history → GaveUp σ n c'.history)
    (hinbox : ∀ j, j ≠ id → c'.inbox j = c.inbox j) : MarkerOwned w σ c' := by
  intro hpresent
  rw [hworld] at hpresent
  rcases h hpresent with ⟨n, l, held, hl, hh, hσ⟩ | ⟨j, e, he, ho⟩ | ⟨n, hn⟩
  · obtain ⟨l', hl', hh'⟩ := hs.begins.still_held hl hh
    exact Or.inl ⟨n, l', held, hl', hh', hσ⟩
  · have hj : j ≠ id := by
      rintro rfl
      rw [hs.idle] at he
      cases he
    refine Or.inr (Or.inl ⟨j, e, ?_, ?_⟩)
    · rw [hs.leaseOps, Function.update_of_ne hj]
      exact he
    · rw [hinbox j hj]
      exact ho
  · exact Or.inr (Or.inr ⟨n, hhistory n hn⟩)

/-- Whoever has failed to remove the file for the last time has given up. -/
theorem Tracked.gaveUp_of_doomed (h : Tracked σ c) {i : TaskId} {d : LeaseOp}
    (hd : c.gateway.leaseOps i = some d) (ho : d.owned? (c.inbox i) = some σ)
    (hdoomed : d.Doomed (c.inbox i)) : GaveUp σ d.lease c.history := by
  have htried := h.tried i d hd
  generalize c.inbox i = inbox at ho hdoomed htried
  unfold LeaseOp.Doomed at hdoomed
  split at hdoomed
  · next r removal b file f =>
    obtain ⟨rest, htries, hfailed, hlength, hlimit⟩ := htried (Option.some.inj ho)
    left
    rw [htries]
    refine ⟨?_, List.forall_mem_cons.2 ⟨rfl, hfailed⟩⟩
    rw [List.length_cons]
    omega
  · cases hdoomed

theorem MarkerOwned.goes (h : MarkerOwned w σ c) (ht : Tracked σ c) (ho : c.InOrder) {id : TaskId}
    {d : LeaseOp}
    {reply : Reply} (hin : c.inbox id = some reply) (hg : c.gateway.Goes id d reply c'.gateway)
    (hworld : c'.world = c.world) (hhistory : ∀ n, GaveUp σ n c.history → GaveUp σ n c'.history)
    (hinbox : c'.inbox = Function.update c.inbox id none) : MarkerOwned w σ c' := by
  intro hpresent
  rw [hworld] at hpresent
  obtain ⟨step, s, hm, ha, hleaseOps⟩ := hg.moves
  obtain ⟨l₀, hl₀, hfits⟩ := ho.leases.fits id d hg.leaseOp
  -- what the lease operation owns or takes over after its move
  have howns : ∀ e, step.place? = some e → e.owned? none = some σ → c'.IsOwned σ := by
    intro e he howned
    refine ⟨id, e, ?_, ?_⟩
    · rw [hleaseOps, Function.update_self]
      exact he
    · rw [hinbox, Function.update_self]
      exact howned
  rcases h hpresent with ⟨n, l, held, hl, hh, hσ⟩ | ⟨j, e, he, howned⟩ | ⟨n, hn⟩
  · by_cases hn : d.lease = n
    · subst hn
      rw [hl₀] at hl
      cases hl
      rcases hm.keeps_or_takes hl₀ hfits hh with hkeeps | ⟨e, he, howned⟩
      · refine Or.inl ⟨d.lease, d.change c.gateway.shared.now l₀, held, ?_, hkeeps, hσ⟩
        rw [hm.lease? ha.leases, if_pos rfl, hl₀]
        rfl
      · exact Or.inr (Or.inl (howns e he (howned.trans (congrArg some hσ))))
    · refine Or.inl ⟨n, l, held, ?_, hh, hσ⟩
      rw [hm.lease? ha.leases, if_neg hn]
      exact hl
  · by_cases hj : j = id
    · subst hj
      rw [hg.leaseOp] at he
      cases he
      rw [hin] at howned
      rcases hm.passes_on howned with ⟨e, he, ho'⟩ | ⟨held, hσ, hchange⟩ | hdoomed
      · exact Or.inr (Or.inl (howns e he ho'))
      · refine Or.inl ⟨d.lease, d.change c.gateway.shared.now l₀, held, ?_, hchange _ _, hσ⟩
        rw [hm.lease? ha.leases, if_pos rfl, hl₀]
        rfl
      · rw [← hin] at howned hdoomed
        exact Or.inr (Or.inr ⟨d.lease, hhistory _ (ht.gaveUp_of_doomed hg.leaseOp howned hdoomed)⟩)
    · refine Or.inr (Or.inl ⟨j, e, ?_, ?_⟩)
      · rw [hleaseOps, Function.update_of_ne hj]
        exact he
      · rw [hinbox, Function.update_of_ne hj]
        exact howned
  · exact Or.inr (Or.inr ⟨n, hhistory n hn⟩)

/-- Whoever accounts for the file goes on doing so, whatever the realm does for another task. -/
theorem MarkerOwned.others (h : MarkerOwned w σ c) {id : TaskId} {inbox : Option Reply}
    (hgateway : c'.gateway = c.gateway) (hinbox : c'.inbox = Function.update c.inbox id inbox)
    (hhistory : ∀ n, GaveUp σ n c.history → GaveUp σ n c'.history)
    (hpresent : w.present c.world σ = true)
    (howned : ∀ d, c.gateway.leaseOps id = some d → d.owned? (c.inbox id) ≠ some σ) :
    c'.IsHeld σ ∨ c'.IsOwned σ ∨ ∃ n, GaveUp σ n c'.history := by
  rcases h hpresent with hheld | ⟨j, e, he, ho⟩ | ⟨n, hn⟩
  · left
    rw [IsHeld, hgateway]
    exact hheld
  · have hj : j ≠ id := by
      rintro rfl
      exact howned e he ho
    refine Or.inr (Or.inl ⟨j, e, ?_, ?_⟩)
    · rw [hgateway]
      exact he
    · rw [hinbox, Function.update_of_ne hj]
      exact ho
  · exact Or.inr (Or.inr ⟨n, hhistory n hn⟩)

/-- Every change of a scene leaves somebody who accounts for the file. -/
theorem MarkerOwned.changes (h : MarkerOwned w σ c) (hw : w.Reliable) (ht : Tracked σ c)
    (ho : c.InOrder)
    (hc : Changes w.toWorld c c') (halone : LeftAlone σ c'.history) : MarkerOwned w σ c' := by
  have hgaveUp : ∀ n, GaveUp σ n c.history → GaveUp σ n c'.history := fun n => ht.gaveUp hc
  cases hc with
  | nothing => exact h
  | starts d g starts grows => exact h.starts starts rfl hgaveUp fun _ _ => rfl
  | resumes id t p answer task pending inbox =>
    cases hd : c.gateway.leaseOps id with
    | none =>
      obtain ⟨d, starts⟩ := Gateway.starts_resume hd pending answer
      exact h.starts starts rfl hgaveUp fun j hj => Function.update_of_ne hj _ _
    | some d => exact h.goes ht ho inbox (Gateway.goes_resume hd pending answer) rfl hgaveUp rfl
  | serves id t p task pending inbox =>
    intro hpresent
    have htask := Gateway.leaseOps_eq task
    cases hd : t.leaseOp? with
    | none =>
      rw [hd] at htask
      have haltered := halone.unaltered hd
      refine h.others rfl rfl hgaveUp
        ((w.untouched id p.request c.world σ haltered).symm.trans hpresent) ?_
      intro d hd'
      rw [htask] at hd'
      cases hd'
    | some d =>
      rw [hd] at htask
      have hrequest := Gateway.request_of_leaseOp htask pending
      have hleaves : LeaseOp.Leaves w σ id t d c.world p.request :=
        LeaseOp.leaves_of_present hw hd hrequest hpresent
      cases hleaves with
      | others present owned =>
        refine h.others rfl rfl hgaveUp present ?_
        intro d' hd'
        rw [htask] at hd'
        cases hd'
        rw [inbox]
        exact owned
      | owns owned =>
        refine Or.inr (Or.inl ⟨id, d, htask, ?_⟩)
        simp only [Function.update_self]
        exact owned
      | behind leaves => exact Or.inr (Or.inr ⟨d.lease, Or.inr ⟨_, List.mem_cons_self, leaves⟩⟩)

end Scene

end FileGateway

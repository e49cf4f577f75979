import FileGateway.Proofs.Lease.Exclusion
import FileGateway.Proofs.Lease.Removal

/-!
# Markers that are left behind

A lease gives up on its marker in one of two ways: every attempt of its release or expiry to remove
the marker has failed, or its acquisition could not write the diagnostics and failed to remove the
marker again. The history tells (`GaveUp`), and from that moment on the file is nobody's:

* `Scene.Tracked` ties the attempts that the history tells of to the places of the lease operations;
* `Scene.Orphaned` says that there is a file at the site and that nobody owns it;
* `Scene.Orphaned.changes` says that it stays so for ever, since nobody deletes a file that it does
  not own, and nobody creates one where there is a file.
-/

namespace FileGateway

/-- A deletion that was answered with a failure has left the file. -/
theorem Realm.undeleted_of_reply {ε : Type} (w : Realm ε) {i : TaskId} {request : Request} {e : ε}
    {b : Backend} {file : FileRef} {f : Failure}
    (h : (⟨request, (w.answer i request e).1⟩ : Reply) = ⟨.store b (.delete file), .error f⟩) :
    w.present (w.answer i request e).2 (b.site file) = w.present e (b.site file) := by
  obtain rfl : request = .store b (.delete file) := congrArg Sigma.fst h
  exact w.undeleted i b file e f (eq_of_heq (Sigma.mk.inj h).2)

/-! ## Giving up -/

/-- What a lease was answered when its release or expiry tried to remove the marker at a site, if
the entry is about such an attempt. -/
def Entry.attempt? (σ : Site) (n : LeaseId) : Entry → Option (Result Bool)
  | served _ t ⟨.store b (.delete file), answer⟩ =>
    match t.leaseOp? with
    | some (.surrender r _) => if r.lease = n ∧ b.site file = σ then some answer else none
    | _ => none
  | _ => none

/-- Whether the acquisition of a lease has failed to clean the marker at a site up. -/
def Entry.leaves (σ : Site) (n : LeaseId) : Entry → Bool
  | served _ t ⟨.store b (.delete file), .error _⟩ =>
    match t.leaseOp? with
    | some (.acquire a (.cleaning _ _)) => a.lease = n ∧ b.site file = σ
    | _ => false
  | _ => false

/-- The answers to a lease's attempts to remove the marker at a site, the latest first. -/
def tries (σ : Site) (n : LeaseId) (history : List Entry) : List (Result Bool) :=
  history.filterMap (Entry.attempt? σ n)

/-- All attempts were made, and all have failed. -/
def Exhausted (tried : List (Result Bool)) : Prop :=
  tried.length = removalLimit ∧ ∀ r ∈ tried, r.isOk = false

/-- A lease has given up on the marker at a site. -/
def GaveUp (σ : Site) (n : LeaseId) (history : List Entry) : Prop :=
  Exhausted (tries σ n history) ∨ ∃ e ∈ history, e.leaves σ n = true

instance (tried : List (Result Bool)) : Decidable (Exhausted tried) :=
  inferInstanceAs (Decidable (_ ∧ _))

instance (σ : Site) (n : LeaseId) (history : List Entry) : Decidable (GaveUp σ n history) :=
  inferInstanceAs (Decidable (_ ∨ _))

theorem tries_resumed (σ : Site) (n : LeaseId) (id : TaskId) (t : Task) (reply : Reply)
    (history : List Entry) : tries σ n (.resumed id t reply :: history) = tries σ n history :=
  rfl

theorem tries_cons (σ : Site) (n : LeaseId) (e : Entry) (history : List Entry) :
    tries σ n (e :: history) = (e.attempt? σ n).toList ++ tries σ n history := by
  rw [tries, List.filterMap_cons]
  cases e.attempt? σ n <;> rfl

/-- Whoever tries to remove a marker gives its lease up. -/
theorem Entry.surrenders_of_attempt {σ : Site} {n : LeaseId} {id : TaskId} {t : Task}
    {reply : Reply} {answer : Result Bool}
    (h : (Entry.served id t reply).attempt? σ n = some answer) :
    ∃ b file r place, reply = ⟨.store b (.delete file), answer⟩ ∧ b.site file = σ ∧
      t.leaseOp? = some (.surrender r place) ∧ r.lease = n := by
  unfold Entry.attempt? at h
  split at h
  · next heq =>
    cases heq
    split at h
    · next r place hd =>
      split at h
      · next hn =>
        cases h
        exact ⟨_, _, r, place, rfl, hn.2, hd, hn.1⟩
      · cases h
    · cases h
  · cases h

/-- Whoever leaves a marker behind has acquired its lease. -/
theorem Entry.acquires_of_leaves {σ : Site} {n : LeaseId} {id : TaskId} {t : Task} {reply : Reply}
    (h : (Entry.served id t reply).leaves σ n = true) :
    ∃ b file f a bid failure, reply = ⟨.store b (.delete file), .error f⟩ ∧ b.site file = σ ∧
      t.leaseOp? = some (.acquire a (.cleaning bid failure)) ∧ a.lease = n := by
  unfold Entry.leaves at h
  split at h
  · next heq =>
    cases heq
    split at h
    · next a bid failure hd =>
      obtain ⟨hlease, hσ⟩ := of_decide_eq_true h
      exact ⟨_, _, _, a, bid, failure, rfl, hσ, hd, hlease⟩
    · cases h
  · cases h

namespace LeaseOp

/-- What is known of the attempts of a lease operation's lease where the lease operation stands. -/
def Tried (σ : Site) (tried : List (Result Bool)) : LeaseOp → Option Reply → Prop
  | surrender _ (.removing removal), none =>
    removal.site = σ → (Surrender.Place.removing removal).Tried tried
  | surrender _ (.removing removal), some ⟨.store _ (.delete _), answer⟩ =>
    removal.site = σ → ∃ rest, tried = answer :: rest ∧
      (Surrender.Place.removing removal).Tried rest
  | surrender _ (.removing _), some _ => True
  | surrender _ _, _ => tried = []
  | acquire _ _, _ => True

/-- Where a lease operation stands when its request has been answered, it knows of its attempts. -/
theorem Tried.acts {σ : Site} {tried : List (Result Bool)} {d : LeaseOp} {writer : Diagnostics}
    {id : TaskId} {t : Task} {request : Request} {answer : request.Answer}
    (h : d.Tried σ tried none) (hd : t.leaseOp? = some d)
    (hr : request = (d.next writer).request) :
    d.Tried σ (((Entry.served id t ⟨request, answer⟩).attempt? σ d.lease).toList ++ tried)
      (some ⟨request, answer⟩) := by
  subst hr
  cases d with
  | acquire a place => trivial
  | surrender r place =>
    cases place with
    | taking => exact h
    | cancelling held => exact h
    | removing removal =>
      intro hσ
      refine ⟨tried, ?_, h hσ⟩
      have hattempt : (Entry.served id t
          ⟨.store removal.backend (.delete removal.marker), answer⟩).attempt? σ r.lease =
          some answer := by
        simp only [Entry.attempt?, hd]
        exact if_pos ⟨trivial, hσ⟩
      exact congrArg (fun found => found.toList ++ tried) hattempt

/-- A removal has failed for the last time. -/
def Doomed : LeaseOp → Option Reply → Prop
  | surrender _ (.removing removal), some ⟨.store _ (.delete _), .error _⟩ =>
    ¬ removal.attempt < removalLimit
  | _, _ => False

theorem not_doomed (d : LeaseOp) : ¬ d.Doomed none := by
  intro h
  unfold Doomed at h
  split at h
  · next heq => cases heq
  · exact h

/-- Whoever has failed for the last time changes its lease no more. -/
theorem Doomed.change {d : LeaseOp} {inbox : Option Reply} (h : d.Doomed inbox) (now : Instant)
    (l : Lease) : d.change now l = l := by
  unfold Doomed at h
  split at h
  · rfl
  · cases h

/-- Whoever has failed for the last time is at its end. -/
theorem Doomed.ends {d : LeaseOp} {reply : Reply} (h : d.Doomed (some reply)) {writer : Diagnostics}
    {s s' : Shared} {step : Step LeaseOp Ending} (hm : d.Moves writer s reply step s') :
    step.place? = none := by
  cases hm with
  | retried r removal f hattempt => exact absurd hattempt h
  | abandoned r removal f hattempt => rfl
  | _ => cases h

end LeaseOp

namespace Scene

variable {ε : Type} {w : Realm ε} {c c' : Scene ε} {σ : Site}

/-- Whoever has not given its lease up has tried nothing, and whoever is about to do so has tried as
often as its place tells. -/
structure Tracked (σ : Site) (c : Scene ε) : Prop where
  untried : ∀ n, c.gateway.shared.stage? n ≠ some .released → tries σ n c.history = []
  tried : ∀ i d, c.gateway.leaseOps i = some d → d.Tried σ (tries σ d.lease c.history) (c.inbox i)

theorem tracked_start (writer : Diagnostics) (world : ε) : Tracked σ (start writer world) where
  untried := fun _ _ => rfl
  tried := fun i d h => by cases h

theorem Tracked.starts (h : Tracked σ c) {id : TaskId} {d : Option LeaseOp}
    (hs : c.gateway.Starts id d c'.gateway)
    (hhistory : ∀ n, tries σ n c'.history = tries σ n c.history)
    (hinbox : ∀ j, j ≠ id → c'.inbox j = c.inbox j) : Tracked σ c' := by
  constructor
  · intro n hn
    rw [hhistory]
    refine h.untried n fun hreleased => ?_
    by_cases hgives : GivesUp d n
    · exact hn (hs.begins.gives_up hgives).2
    · exact hn ((hs.begins.late_stage hgives (Or.inr rfl)).2 hreleased)
  · intro j e he
    rw [hhistory]
    rw [hs.leaseOps] at he
    by_cases hj : j = id
    · subst hj
      rw [Function.update_self] at he
      subst he
      cases e with
      | acquire a place => trivial
      | surrender r place =>
        -- the lease was active just now, so nothing was tried yet
        have hactive := (hs.begins.gives_up ⟨r, place, rfl, rfl⟩).1
        have hnone : tries σ r.lease c.history = [] := by
          refine h.untried r.lease fun hreleased => ?_
          rw [hactive] at hreleased
          cases hreleased
        have hplace : place = .taking := by
          have hbegins := hs.begins
          cases hbegins
          rfl
        subst hplace
        exact hnone
    · rw [Function.update_of_ne hj] at he
      rw [hinbox j hj]
      exact h.tried j e he

theorem Tracked.goes (h : Tracked σ c) (ho : c.InOrder) {id : TaskId} {d : LeaseOp} {reply : Reply}
    (hin : c.inbox id = some reply) (hg : c.gateway.Goes id d reply c'.gateway)
    (hhistory : ∀ n, tries σ n c'.history = tries σ n c.history)
    (hinbox : c'.inbox = Function.update c.inbox id none) : Tracked σ c' := by
  obtain ⟨step, s, hm, ha, hleaseOps⟩ := hg.moves
  obtain ⟨l, hl, hfits⟩ := ho.leases.fits id d hg.leaseOp
  constructor
  · intro n hn
    rw [hhistory]
    refine h.untried n fun hreleased => hn ?_
    rw [ha.stage?]
    exact (hm.stage hl hfits n).released.2 hreleased
  · intro j e he
    rw [hhistory, hinbox]
    rw [hleaseOps] at he
    by_cases hj : j = id
    · subst hj
      rw [Function.update_self] at he ⊢
      have htried := h.tried j d hg.leaseOp
      rw [hin] at htried
      cases step with
      | done result => cases he
      | paused e' =>
        cases he
        rw [hm.lease.1]
        cases hm with
        | taken r held hheld =>
          -- nothing was tried before the first attempt
          have hnone : tries σ r.lease c.history = [] := htried
          split
          · exact fun _ => .ofHeld held hnone
          · exact hnone
        | cancelled r held => exact fun _ => .ofHeld held htried
        | retried r removal f hattempt =>
          intro hσ
          obtain ⟨rest, htries, hfailed, hlength, hlimit⟩ := htried hσ
          have htries' : tries σ r.lease c.history = .error f :: rest := htries
          change (Surrender.Place.removing _).Tried (tries σ r.lease c.history)
          rw [htries']
          refine ⟨List.forall_mem_cons.2 ⟨rfl, hfailed⟩, ?_, hattempt⟩
          rw [List.length_cons, hlength]
        | _ => trivial
    · rw [Function.update_of_ne hj] at he ⊢
      exact h.tried j e he

theorem Tracked.serves (h : Tracked σ c) (ho : c.InOrder) {id : TaskId} {t : Task}
    {p : Pending Gateway} {answer : p.request.Answer} (task : c.gateway.task? id = some t)
    (pending : c.gateway.pending? id = some p) (inbox : c.inbox id = none)
    (hgateway : c'.gateway = c.gateway)
    (hinbox : c'.inbox = Function.update c.inbox id (some ⟨p.request, answer⟩))
    (hhistory : c'.history = .served id t ⟨p.request, answer⟩ :: c.history) : Tracked σ c' := by
  have htask := Gateway.leaseOps_eq task
  -- whoever has just tried gives its lease up
  have hgives : ∀ n, (Entry.served id t ⟨p.request, answer⟩).attempt? σ n ≠ none →
      ∃ r place, c.gateway.leaseOps id = some (.surrender r place) ∧ r.lease = n := by
    intro n hn
    obtain ⟨result, hresult⟩ := Option.ne_none_iff_exists'.1 hn
    obtain ⟨b, file, r, place, -, -, hd, hlease⟩ := Entry.surrenders_of_attempt hresult
    exact ⟨r, place, htask.trans hd, hlease⟩
  constructor
  · intro n hn
    rw [hgateway] at hn
    rw [hhistory, tries_cons, h.untried n hn, List.append_nil]
    have hnone : (Entry.served id t ⟨p.request, answer⟩).attempt? σ n = none := by
      by_contra hsome
      obtain ⟨r, place, hd, rfl⟩ := hgives n hsome
      obtain ⟨l, hl, hfits⟩ := ho.leases.fits id _ hd
      refine hn ?_
      rw [Shared.stage?, show r.lease = (LeaseOp.surrender r place).lease from rfl, hl]
      exact congrArg some hfits.released
    rw [hnone]
    rfl
  · intro j e he
    rw [hgateway] at he
    rw [hhistory, hinbox, tries_cons]
    by_cases hj : j = id
    · subst hj
      rw [Function.update_self]
      have hbefore := h.tried j e he
      rw [inbox] at hbefore
      exact hbefore.acts (htask.symm.trans he) (Gateway.request_of_leaseOp he pending)
    · rw [Function.update_of_ne hj]
      cases e with
      | acquire a place => trivial
      | surrender r place =>
        -- of those that give a lease up there is one only
        have hnone : (Entry.served id t ⟨p.request, answer⟩).attempt? σ r.lease = none := by
          by_contra hsome
          obtain ⟨r', place', hd, hlease⟩ := hgives r.lease hsome
          exact hj (ho.leases.single j id _ _ he hd hlease.symm rfl)
        change LeaseOp.Tried σ
          (Option.toList (Entry.attempt? σ r.lease _) ++ tries σ r.lease c.history) _ _
        rw [hnone]
        exact h.tried j _ he

/-- Every change of a scene keeps track of the attempts. -/
theorem Tracked.changes (h : Tracked σ c) (ho : c.InOrder) (hc : Changes w.toWorld c c') :
    Tracked σ c' := by
  cases hc with
  | nothing => exact h
  | starts d g starts grows => exact h.starts starts (fun _ => rfl) fun _ _ => rfl
  | serves id t p task pending inbox => exact h.serves ho task pending inbox rfl rfl rfl
  | resumes id t p answer task pending inbox =>
    cases hd : c.gateway.leaseOps id with
    | none =>
      obtain ⟨d, starts⟩ := Gateway.starts_resume hd pending answer
      exact h.starts starts (fun n => tries_resumed σ n id t _ _)
        fun j hj => Function.update_of_ne hj _ _
    | some d =>
      exact h.goes ho inbox (Gateway.goes_resume hd pending answer)
        (fun n => tries_resumed σ n id t _ _) rfl

/-! ## Files that are nobody's -/

/-- There is a file at the site, no lease holds it, and whoever owns it has just failed to remove it
for the last time. -/
structure Orphaned (w : Realm ε) (σ : Site) (c : Scene ε) : Prop where
  present : w.present c.world σ = true
  unheld : ∀ n l held, c.gateway.shared.lease? n = some l → l.held = some held → held.site ≠ σ
  unowned : ∀ i d, c.gateway.leaseOps i = some d → d.owned? (c.inbox i) = some σ →
    d.Doomed (c.inbox i)

theorem Orphaned.starts (h : Orphaned w σ c) {id : TaskId} {d : Option LeaseOp}
    (hs : c.gateway.Starts id d c'.gateway) (hworld : c'.world = c.world)
    (hinbox : ∀ j, j ≠ id → c'.inbox j = c.inbox j) : Orphaned w σ c' := by
  constructor
  · rw [hworld]
    exact h.present
  · intro n l held hl hh
    obtain ⟨l', hl', hh'⟩ := hs.begins.held hl hh
    exact h.unheld n l' held hl' hh'
  · intro j e he howned
    rw [hs.leaseOps] at he
    by_cases hj : j = id
    · subst hj
      rw [Function.update_self] at he
      subst he
      rw [(hs.begins.stakeless _).1] at howned
      cases howned
    · rw [Function.update_of_ne hj] at he
      rw [hinbox j hj] at howned ⊢
      exact h.unowned j e he howned

theorem Orphaned.goes (h : Orphaned w σ c) {id : TaskId} {d : LeaseOp} {reply : Reply}
    (hin : c.inbox id = some reply) (hg : c.gateway.Goes id d reply c'.gateway)
    (hworld : c'.world = c.world) (hinbox : c'.inbox = Function.update c.inbox id none) :
    Orphaned w σ c' := by
  obtain ⟨step, s, hm, ha, hleaseOps⟩ := hg.moves
  have hdoomed : d.owned? (some reply) = some σ → d.Doomed (some reply) := by
    intro howned
    rw [← hin] at howned ⊢
    exact h.unowned id d hg.leaseOp howned
  constructor
  · rw [hworld]
    exact h.present
  · intro n l held hl hh hσ
    rw [hm.lease? ha.leases] at hl
    split at hl
    · obtain ⟨l', hl', rfl⟩ := Option.map_eq_some_iff.1 hl
      have hbefore : l'.held = some held ∨ d.owned? (some reply) = some held.site :=
        LeaseOp.change_held hh
      have hheld : l'.held = some held := by
        rcases hbefore with hh' | howned
        · exact hh'
        · -- a removal that has failed hands nothing over to its lease
          rw [hσ] at howned
          rw [(hdoomed howned).change] at hh
          exact hh
      exact h.unheld n l' held hl' hheld hσ
    · exact h.unheld n l held hl hh hσ
  · intro j e he howned
    rw [hleaseOps] at he
    rw [hinbox] at howned ⊢
    by_cases hj : j = id
    · subst hj
      rw [Function.update_self] at he howned
      cases step with
      | done result => cases he
      | paused e' =>
        cases he
        rcases hm.owned howned with hbefore | ⟨held, hheld, hσ⟩
        · cases (hdoomed hbefore).ends hm
        · obtain ⟨l, hl, hh⟩ := Option.bind_eq_some_iff.1 hheld
          exact absurd hσ (h.unheld d.lease l held hl hh)
    · rw [Function.update_of_ne hj] at he howned ⊢
      exact h.unowned j e he howned

/-- Whatever the realm does for one task, the file stays where it is and nobody's. -/
theorem Orphaned.acts (h : Orphaned w σ c) {id : TaskId} {reply : Reply}
    (hgateway : c'.gateway = c.gateway)
    (hinbox : c'.inbox = Function.update c.inbox id (some reply))
    (hpresent : w.present c'.world σ = true)
    (howned : ∀ d, c.gateway.leaseOps id = some d → d.owned? (some reply) ≠ some σ) :
    Orphaned w σ c' := by
  constructor
  · exact hpresent
  · rw [hgateway]
    exact h.unheld
  · intro j e he ho
    rw [hgateway] at he
    rw [hinbox] at ho ⊢
    by_cases hj : j = id
    · subst hj
      rw [Function.update_self] at ho
      exact absurd ho (howned e he)
    · rw [Function.update_of_ne hj] at ho ⊢
      exact h.unowned j e he ho

theorem Orphaned.serves (h : Orphaned w σ c) (hs : Staked w c σ) {id : TaskId} {d : LeaseOp}
    {reply : Reply} (hd : c.gateway.leaseOps id = some d) (hin : c.inbox id = none)
    (heffect : LeaseOp.Effect σ d reply (w.present c.world σ) (w.present c'.world σ))
    (hgateway : c'.gateway = c.gateway)
    (hinbox : c'.inbox = Function.update c.inbox id (some reply)) : Orphaned w σ c' := by
  -- a lease operation that waits for its answer owns nothing here, and awaits nothing since there
  -- is a file
  have hnone : d.owned? none ≠ some σ := by
    intro howned
    rw [← hin] at howned
    have hdoomed := h.unowned id d hd howned
    rw [hin] at hdoomed
    exact d.not_doomed hdoomed
  have hpresent := h.present
  have hothers : (d.owned? (some reply) = some σ → d.owned? none = some σ) →
      ∀ d', c.gateway.leaseOps id = some d' → d'.owned? (some reply) ≠ some σ := by
    intro hkeeps d' hd' ho
    rw [hd] at hd'
    cases hd'
    exact hnone (hkeeps ho)
  cases heffect with
  | aside present created owned awaited =>
    exact h.acts hgateway hinbox (present.trans hpresent) (hothers owned)
  | creates turn created vacant present awaited =>
    have hvacant : w.present c.world σ = false := by
      rcases vacant with hv | ha
      · exact hv
      · exact hs.awaited id d hd (hin.symm ▸ ha)
    rw [hpresent] at hvacant
    cases hvacant
  | changes turn created kept owned awaited =>
    exact h.acts hgateway hinbox (kept hpresent) (hothers owned)
  | deletes owner created owned awaited => exact absurd owner hnone

/-- A file that is nobody's stays so for ever. -/
theorem Orphaned.changes (h : Orphaned w σ c) (hs : Staked w c σ) (hc : Changes w.toWorld c c')
    (halone : LeftAlone σ c'.history) : Orphaned w σ c' := by
  cases hc with
  | nothing => exact h
  | starts d g starts grows => exact h.starts starts rfl fun _ _ => rfl
  | resumes id t p answer task pending inbox =>
    cases hd : c.gateway.leaseOps id with
    | none =>
      obtain ⟨d, starts⟩ := Gateway.starts_resume hd pending answer
      exact h.starts starts rfl fun j hj => Function.update_of_ne hj _ _
    | some d => exact h.goes inbox (Gateway.goes_resume hd pending answer) rfl rfl
  | serves id t p task pending inbox =>
    have htask := Gateway.leaseOps_eq task
    cases hd : t.leaseOp? with
    | some d =>
      rw [hd] at htask
      have hrequest := Gateway.request_of_leaseOp htask pending
      exact h.serves hs htask inbox (LeaseOp.effect w id c.world σ _ d p.request hrequest) rfl rfl
    | none =>
      rw [hd] at htask
      have haltered := halone.unaltered hd
      refine h.acts rfl rfl ((w.untouched id p.request c.world σ haltered).trans h.present) ?_
      intro d hd'
      rw [htask] at hd'
      cases hd'

/-! ## Whoever gives up leaves an orphan -/

theorem gaveUp_resumed {n : LeaseId} {id : TaskId} {t : Task} {reply : Reply}
    {history : List Entry} :
    GaveUp σ n (.resumed id t reply :: history) ↔ GaveUp σ n history := by
  have hleaves : (Entry.resumed id t reply).leaves σ n = false := rfl
  simp [GaveUp, tries_resumed, hleaves]

/-- A lease operation that gives a lease up and deletes a file removes the marker there. -/
theorem removing_of_request {writer : Diagnostics} {r : Surrender} {place : Surrender.Place}
    {b : Backend} {file : FileRef}
    (h : ((LeaseOp.surrender r place).next writer).request = .store b (.delete file)) :
    ∃ removal, place = .removing removal ∧ removal.site = b.site file := by
  cases place with
  | removing removal =>
    cases h
    exact ⟨removal, rfl, rfl⟩
  | _ => cases h

/-- An acquisition that cleans up deletes the marker that it has bid for. -/
theorem cleaning_of_request {writer : Diagnostics} {a : Acquire} {bid : Acquire.Bid}
    {failure : Failure} {b : Backend} {file : FileRef}
    (h : ((LeaseOp.acquire a (.cleaning bid failure)).next writer).request =
      .store b (.delete file)) :
    a.site bid = b.site file := by
  cases h
  rfl

/-- The attempts that were made before a lease operation makes another one. -/
theorem Tracked.before (h : Tracked σ c) {id : TaskId} {t : Task} {p : Pending Gateway}
    {answer : p.request.Answer} (task : c.gateway.task? id = some t)
    (pending : c.gateway.pending? id = some p) (inbox : c.inbox id = none) {n : LeaseId}
    {result : Result Bool}
    (hn : (Entry.served id t ⟨p.request, answer⟩).attempt? σ n = some result) :
    ∃ r removal b file, c.gateway.leaseOps id = some (.surrender r (.removing removal)) ∧
      removal.site = σ ∧ (⟨p.request, answer⟩ : Reply) = ⟨.store b (.delete file), result⟩ ∧
      b.site file = σ ∧ (Surrender.Place.removing removal).Tried (tries σ n c.history) := by
  obtain ⟨b, file, r, place, hreply, hσ, hd, rfl⟩ := Entry.surrenders_of_attempt hn
  have hd' := (Gateway.leaseOps_eq task).trans hd
  have hrequest : p.request = .store b (.delete file) := congrArg Sigma.fst hreply
  obtain ⟨removal, rfl, hsite⟩ :=
    removing_of_request ((Gateway.request_of_leaseOp hd' pending).symm.trans hrequest)
  have htried := h.tried id _ hd'
  rw [inbox] at htried
  exact ⟨r, removal, b, file, hd', hsite.trans hσ, hreply, hσ, htried (hsite.trans hσ)⟩

/-- Whoever gives up by what it is answered has owned the site, and owns it no more or is at its
end. -/
theorem Tracked.gives_up (h : Tracked σ c) {id : TaskId} {t : Task} {p : Pending Gateway}
    {answer : p.request.Answer} (task : c.gateway.task? id = some t)
    (pending : c.gateway.pending? id = some p) (inbox : c.inbox id = none) {n : LeaseId}
    (hn : GaveUp σ n (.served id t ⟨p.request, answer⟩ :: c.history))
    (hbefore : ¬ GaveUp σ n c.history) :
    ∃ d b file f, c.gateway.leaseOps id = some d ∧ d.owned? none = some σ ∧
      (⟨p.request, answer⟩ : Reply) = ⟨.store b (.delete file), .error f⟩ ∧ b.site file = σ ∧
      (d.owned? (some ⟨.store b (.delete file), .error f⟩) = some σ →
        d.Doomed (some ⟨.store b (.delete file), .error f⟩)) := by
  rcases hn with ⟨hlength, hfailed⟩ | ⟨e, he, hleaves⟩
  · rw [tries_cons] at hlength hfailed
    cases hattempt : (Entry.served id t ⟨p.request, answer⟩).attempt? σ n with
    | none =>
      rw [hattempt] at hlength hfailed
      exact absurd (Or.inl ⟨hlength, hfailed⟩) hbefore
    | some result =>
      rw [hattempt] at hlength hfailed
      obtain ⟨r, removal, b, file, hd, hsite, hreply, hσ, htried⟩ :=
        h.before task pending inbox hattempt
      cases result with
      | ok deleted => cases hfailed _ List.mem_cons_self
      | error f =>
        refine ⟨_, b, file, f, hd, congrArg some hsite, hreply, hσ, fun _ => ?_⟩
        -- it was the last attempt, since all of them have been made
        have hlast : removal.attempt = removalLimit := htried.2.1.symm.trans hlength
        exact Nat.not_lt_of_le (Nat.le_of_eq hlast.symm)
  · rcases List.mem_cons.1 he with rfl | hmem
    · obtain ⟨b, file, f, a, bid, failure, hreply, hσ, hd, -⟩ := Entry.acquires_of_leaves hleaves
      have hd' := (Gateway.leaseOps_eq task).trans hd
      have hrequest : p.request = .store b (.delete file) := congrArg Sigma.fst hreply
      have hsite :=
        cleaning_of_request ((Gateway.request_of_leaseOp hd' pending).symm.trans hrequest)
      exact ⟨_, b, file, f, hd', congrArg some (hsite.trans hσ), hreply, hσ, fun ho => by cases ho⟩
    · exact absurd (Or.inr ⟨e, hmem, hleaves⟩) hbefore

/-- Whoever has given up has done so for ever: it makes no further attempt. -/
theorem Tracked.gaveUp (h : Tracked σ c) (hc : Changes w.toWorld c c') {n : LeaseId}
    (hn : GaveUp σ n c.history) : GaveUp σ n c'.history := by
  cases hc with
  | nothing => exact hn
  | starts => exact hn
  | resumes => exact gaveUp_resumed.2 hn
  | serves id t p task pending inbox =>
    rcases hn with hexhausted | ⟨e, he, hleaves⟩
    · left
      rw [tries_cons]
      cases hattempt : Entry.attempt? σ n _ with
      | none => exact hexhausted
      | some result =>
        -- whoever makes an attempt has made fewer than all
        obtain ⟨r, removal, b, file, hd, hsite, hreply, hσ, htried⟩ :=
          h.before task pending inbox hattempt
        have hfew := htried.few.2
        rw [hexhausted.1] at hfew
        exact absurd hfew (Nat.lt_irrefl _)
    · exact Or.inr ⟨e, List.mem_cons_of_mem _ he, hleaves⟩

/-- The only owner of a site fails to remove the file there, and gives up. -/
theorem Staked.orphans (h : Staked w c σ) (ho : c.InOrder) {id : TaskId} {d : LeaseOp}
    {reply : Reply}
    (hd : c.gateway.leaseOps id = some d) (hin : c.inbox id = none)
    (howner : d.owned? none = some σ)
    (hgateway : c'.gateway = c.gateway)
    (hinbox : c'.inbox = Function.update c.inbox id (some reply))
    (hpresent : w.present c'.world σ = w.present c.world σ)
    (hdoomed : d.owned? (some reply) = some σ → d.Doomed (some reply)) : Orphaned w σ c' := by
  have howns : c.Owns w σ d.lease := by
    rw [← hin] at howner
    exact h.owned id d hd howner
  obtain ⟨l, hl, hfits⟩ := ho.leases.fits id d hd
  constructor
  · exact hpresent.trans howns.1
  · intro n l' held hl' hh hσ
    rw [hgateway] at hl'
    -- a lease that holds the site is the one of the lease operation, and that holds nothing itself
    have hn : n = d.lease := (h.held n l' held hl' hh hσ).unique howns
    rw [hn, hl] at hl'
    cases hl'
    rw [hfits.held_of_owned howner] at hh
    cases hh
  · intro j e he howned
    rw [hgateway] at he
    rw [hinbox] at howned ⊢
    by_cases hj : j = id
    · subst hj
      rw [hd] at he
      cases he
      rw [Function.update_self] at howned ⊢
      exact hdoomed howned
    · rw [Function.update_of_ne hj] at howned
      -- another owner would be about the same lease, with the same purpose
      have hsame : e.lease = d.lease := (h.owned j e he howned).unique howns
      obtain ⟨l', hl', hfits'⟩ := ho.leases.fits j e he
      rw [hsame, hl] at hl'
      cases hl'
      have hkind := hfits'.owned_kind hfits howned howner
      exact absurd (ho.leases.single j id e d he hd hsame hkind) hj

/-- Every marker that a lease has given up on is nobody's. -/
def Forsaken (w : Realm ε) (σ : Site) (c : Scene ε) : Prop :=
  ∀ n, GaveUp σ n c.history → Orphaned w σ c

theorem forsaken_start (writer : Diagnostics) (world : ε) : Forsaken w σ (start writer world) := by
  rintro n (⟨hlength, -⟩ | ⟨e, he, -⟩)
  · cases hlength
  · cases he

theorem Forsaken.changes (h : Forsaken w σ c) (ht : Tracked σ c) (hs : Staked w c σ)
    (ho : c.InOrder) (hc : Changes w.toWorld c c') (halone : LeftAlone σ c'.history) :
    Forsaken w σ c' := by
  intro n hn
  by_cases hbefore : GaveUp σ n c.history
  · exact (h n hbefore).changes hs hc halone
  · cases hc with
    | nothing => exact absurd hn hbefore
    | starts => exact absurd hn hbefore
    | resumes => exact absurd (gaveUp_resumed.1 hn) hbefore
    | serves id t p task pending inbox =>
      obtain ⟨d, b, file, f, hd, howner, hreply, hσ, hdoomed⟩ :=
        ht.gives_up task pending inbox hn hbefore
      refine hs.orphans ho hd inbox howner rfl rfl ?_ ?_
      · subst hσ
        exact w.undeleted_of_reply hreply
      · rw [hreply]
        exact hdoomed

end Scene

end FileGateway

import FileGateway.Proofs.Operation.Writers

/-!
# Writes that hold their lease

In a scene in which only operations run, every locked write has a lease of its own, and whoever is
past the acquisition holds the marker of its target until it gives the lease up. Since the site of
the marker is a function of the target, and at most one lease owns a site, at most one write of a
target holds its lease at a time.

* `Write.Place.Proper` says what a write knows of its lease at each place, and `Write.Goes.proper`
  that it goes on knowing it;
* `Scene.Leased` is the invariant, and `Scene.Leased.exclusive` what it is for.
-/

namespace FileGateway

variable {ε : Type}

/-! ## What a write knows of its lease -/

/-- The site of the file that a write writes. -/
def Write.Target.site (t : Write.Target) : Site := t.backend.site t.file

/-- The site of the marker of a file. -/
def Archive.marker? (w : Archive ε) (σ : Site) : Option Site :=
  σ.file.path.marker?.map fun marker => ⟨σ.identity, w.locate σ.identity marker⟩

/-- The file that an acquisition has found its marker's path to lead to. -/
def Acquire.Place.marker? : Acquire.Place → Option FileRef
  | queued bid | creating bid | probing bid | filling bid => some bid.marker
  | opening bid | writing bid _ | finishing bid _ | cleaning bid _ => some bid.marker
  | holding bid | activating bid => some bid.marker
  | resolving | arming | retreating _ => none

/-- The lease of a write. -/
def Write.Place.lease? : Write.Place → Option LeaseId
  | locking a _ => some a.lease
  | copying lease _ => lease
  | unlocking lease _ _ _ => some lease

/-- A lease is active and holds the marker at a site. -/
def Shared.Grips (s : Shared) (id : LeaseId) (marker : Option Site) : Prop :=
  ∃ l held, s.lease? id = some l ∧ l.state = .active ∧ l.held = some held ∧ marker = some held.site

/-- What a write knows of its lease. -/
def Write.Place.Proper (w : Archive ε) (s : Shared) (t : Target) : Place → Prop
  | locking a place =>
    a.backend = t.backend ∧ t.file.path.marker? = some a.marker ∧
      (∀ file, place.marker? = some file → file = w.locate a.backend.identity a.marker) ∧
      (place = .arming → s.Grips a.lease (w.marker? t.site))
  | copying none _ => True
  | copying (some lease) _ => s.Grips lease (w.marker? t.site)
  | unlocking lease _ .taking _ =>
    ∃ l held, s.lease? lease = some l ∧ l.held = some held ∧ w.marker? t.site = some held.site
  | unlocking _ _ (.cancelling held) _ => w.marker? t.site = some held.site
  | unlocking _ _ (.removing removal) _ => w.marker? t.site = some removal.site

theorem Shared.Grips.keep {s s' : Shared} {id : LeaseId} {marker : Option Site}
    (h : s.Grips id marker) (hk : s.Keeps s' id) : s'.Grips id marker := by
  obtain ⟨l, held, hl, hactive, hheld, hmarker⟩ := h
  obtain ⟨l', hl', hstate', hheld'⟩ := hk l hl
  exact ⟨l', held, hl', hstate'.trans hactive, hheld'.trans hheld, hmarker⟩

namespace Write

/-- What a write knows depends on its own lease only. -/
theorem Place.Proper.keep {w : Archive ε} {s s' : Shared} {t : Target} {place : Place}
    (h : place.Proper w s t) (hk : ∀ id, place.lease? = some id → s.Keeps s' id) :
    place.Proper w s' t := by
  cases place with
  | locking a place =>
    obtain ⟨hbackend, hmarker, hbid, hgrips⟩ := h
    exact ⟨hbackend, hmarker, hbid, fun harming => (hgrips harming).keep (hk a.lease rfl)⟩
  | copying lease place =>
    cases lease with
    | none => trivial
    | some lease => exact Shared.Grips.keep h (hk lease rfl)
  | unlocking lease marker place copied =>
    cases place with
    | taking =>
      obtain ⟨l, held, hl, hheld, hmarker⟩ := h
      obtain ⟨l', hl', -, hheld'⟩ := hk lease rfl l hl
      exact ⟨l', held, hl', hheld'.trans hheld, hmarker⟩
    | cancelling held => exact h
    | removing removal => exact h

/-- A write stays with its lease. -/
theorem Goes.lease {writer : Diagnostics} {t : Target} {s s' : Shared} {place place' : Place}
    {reply : Reply} (h : Goes writer t s place reply (.paused place') s') :
    place'.lease? = place.lease? := by
  cases h with
  | locks a p p' reply s' move => rfl
  | _ => rfl

/-- A write changes no other lease than its own. -/
theorem Goes.keeps {writer : Diagnostics} {t : Target} {s s' : Shared} {place : Place}
    {reply : Reply} {step : Step Place (Except Error Nat)} (h : Goes writer t s place reply step s')
    {id : LeaseId} (hid : place.lease? ≠ some id) : s.Keeps s' id := by
  have hother : ∀ {n : LeaseId}, place.lease? = some n → n ≠ id := by
    intro n hn heq
    exact hid (heq ▸ hn)
  -- every move changes one lease at most, which is the one of the write
  cases h with
  | locks a p p' reply s' move =>
    exact .modify move.leases fun hn => absurd hn (hother rfl)
  | locked a s' move => exact .modify move.leases fun hn => absurd hn (hother rfl)
  | refused a error s' move => exact .modify move.leases fun hn => absurd hn (hother rfl)
  | copies lease p p' reply move => exact .of_leases rfl id
  | copied p reply result move => exact .of_leases rfl id
  | unlocks n l p reply result move found active =>
    have hleases : (s.modifyLease n fun l => { l with state := .released }).leases =
        s.leases.modify n fun l => { l with state := .released } := rfl
    exact .modify hleases fun hn => absurd hn (hother rfl)
  | lost n p reply result move gone => exact .of_leases rfl id
  | unlocking n marker p p' result reply s' move =>
    exact .modify move.leases fun hn => absurd hn (hother rfl)
  | unlocked n marker p result removed reply s' move =>
    exact .modify move.leases fun hn => absurd hn (hother rfl)

/-- An acquisition goes on with the file that its marker's path was resolved to. -/
theorem marker_of_moves {writer : Diagnostics} {s s' : Shared} {a : Acquire} {p p' : Acquire.Place}
    {reply : Reply} (h : (LeaseOp.acquire a p).Moves writer s reply (.paused (.acquire a p')) s')
    {file : FileRef} (hfile : p'.marker? = some file) :
    p.marker? = some file ∨ reply = ⟨.store a.backend (.resolve a.marker a.options), .ok file⟩ := by
  generalize hstep :
      (Step.paused (LeaseOp.acquire a p') : Step LeaseOp LeaseOp.Ending) = step at h
  cases h with
  -- only here the file comes from an answer
  | resolved _ marker =>
    cases hstep
    cases hfile
    exact Or.inr rfl
  | granted _ bid =>
    left
    cases hstep
    split at hfile <;> exact hfile
  | created | missed | filled | opened | unopened | written | unwritten | finished | unfinished
  | held =>
    cases hstep
    exact Or.inl hfile
  | armed | retreated => cases hstep
  | _ =>
    cases hstep
    cases hfile

/-- Only a lease that becomes active is armed next. -/
theorem activating_of_moves {writer : Diagnostics} {s s' : Shared} {a : Acquire}
    {p : Acquire.Place} {reply : Reply}
    (h : (LeaseOp.acquire a p).Moves writer s reply (.paused (.acquire a .arming)) s') :
    ∃ bid, p = .activating bid := by
  generalize hstep :
      (Step.paused (LeaseOp.acquire a .arming) : Step LeaseOp LeaseOp.Ending) = step at h
  cases h with
  | activated _ bid => exact ⟨bid, rfl⟩
  | granted _ bid => split at hstep <;> cases hstep
  | _ => cases hstep

theorem lease?_of_leases {s s' : Shared} {id : LeaseId} {f : Lease → Lease} {l : Lease}
    (h : s'.leases = s.leases.modify id f) (hl : s.lease? id = some l) :
    s'.lease? id = some (f l) := by
  have hmodify := Shared.lease?_modifyLease s id id f
  rw [if_pos rfl, hl] at hmodify
  rw [Shared.lease?, h]
  exact hmodify

/-- A write that goes on knows of its lease what it has to know at its next place. -/
theorem Goes.proper {w : Archive ε} {writer : Diagnostics} {t : Target} {s s' : Shared}
    {place place' : Place} {reply : Reply} (h : Goes writer t s place reply (.paused place') s')
    (hp : place.Proper w s t)
    (told : ∀ b path options file, reply = ⟨.store b (.resolve path options), .ok file⟩ →
      file = w.locate b.identity path)
    (fits : ∀ d, place.leaseOp? = some d → ∃ l, s.lease? d.lease = some l ∧ d.Fits l) :
    place'.Proper w s' t := by
  cases h with
  | locks a p p' reply s' move =>
    obtain ⟨hbackend, hmarker, hfile, -⟩ := hp
    refine ⟨hbackend, hmarker, fun file hfile' => ?_, fun harming => ?_⟩
    · -- the file of the marker is known from before, or was just told
      rcases marker_of_moves move hfile' with hbefore | hresolved
      · exact hfile file hbefore
      · exact told _ _ _ _ hresolved
    · -- the lease becomes active, and holds the marker that was bid for
      subst harming
      obtain ⟨bid, rfl⟩ := activating_of_moves move
      obtain ⟨l, hl, -, hheld⟩ := fits _ rfl
      refine ⟨_, ⟨a.backend, bid.marker⟩, lease?_of_leases move.leases hl, rfl, hheld, ?_⟩
      have hsite : bid.marker = w.locate t.backend.identity a.marker := by
        rw [← hbackend]
        exact hfile _ rfl
      simp [Archive.marker?, Write.Target.site, Held.site, Backend.site, hmarker, hbackend, hsite]
  | locked a s' move =>
    obtain ⟨l, held, hl, hactive, hheld, hsite⟩ := hp.2.2.2 rfl
    exact ⟨_, held, lease?_of_leases move.leases hl, hactive, hheld, hsite⟩
  | copies lease p p' reply move =>
    cases lease with
    | none => trivial
    | some lease => exact hp
  | unlocks id l p reply result move found active =>
    obtain ⟨l', held, hl', -, hheld, hsite⟩ := hp
    exact ⟨_, held, lease?_of_leases rfl hl', hheld, hsite⟩
  | unlocking id marker p p' result reply s' move =>
    generalize hstep :
      (Step.paused (LeaseOp.surrender ⟨id, false⟩ p') : Step LeaseOp LeaseOp.Ending) = step
      at move
    cases move with
    | taken r held hfound =>
      -- what the lease has held is what is removed
      cases hstep
      obtain ⟨l, held', hl, hheld', hsite⟩ := hp
      rw [hl] at hfound
      have heq : held' = held := Option.some.inj (hheld'.symm.trans hfound)
      exact heq ▸ hsite
    | cancelled r held =>
      cases hstep
      exact hp
    | retried r removal f hattempt =>
      cases hstep
      exact hp
    | _ => cases hstep

/-- The lease of a write that begins is a new one. -/
theorem Begins.lease {leases leases' : List Lease} {t : Target} {place : Place} {id : LeaseId}
    (h : Begins leases t place leases') (hid : place.lease? = some id) : id = leases.length := by
  cases h with
  | locks a lease fresh hlength marker backend =>
    cases hid
    exact hlength
  | opens => cases hid

/-- The leases that there were stay as they are. -/
theorem Begins.keeps {s s' : Shared} {t : Target} {place : Place} {id : LeaseId}
    (h : Begins s.leases t place s'.leases) (hid : id < s.leases.length) : s.Keeps s' id := by
  generalize hleases : s'.leases = leases at h
  cases h with
  | locks a lease fresh hlength marker backend =>
    have hne : a.lease ≠ id := by
      rw [hlength]
      exact Nat.ne_of_gt hid
    -- the new lease is made, and then changed
    have hmade : s.Keeps (s.addLease lease).2 id := .append rfl id
    have hkept : (s.addLease lease).2.Keeps s' id := .modify hleases fun heq => absurd heq hne
    intro l hl
    obtain ⟨l₁, hl₁, hstate₁, hheld₁⟩ := hmade l hl
    obtain ⟨l₂, hl₂, hstate₂, hheld₂⟩ := hkept l₁ hl₁
    exact ⟨l₂, hl₂, hstate₂.trans hstate₁, hheld₂.trans hheld₁⟩
  | opens => exact .of_leases hleases id

theorem Begins.proper {w : Archive ε} {leases leases' : List Lease} {t : Target} {place : Place}
    (h : Begins leases t place leases') (s : Shared) : place.Proper w s t := by
  cases h with
  | locks a lease fresh hlength marker backend =>
    have hmarker : t.file.path.marker? = some a.marker := by
      rw [marker]
      exact Lease.marker?_of_fresh fresh
    exact ⟨backend, hmarker, fun _ hfile => (by cases hfile), fun harming => (by cases harming)⟩
  | opens => trivial

end Write

/-! ## Scenes -/

namespace Scene

variable {w : Archive ε} {c c' : Scene ε}

/-- Every write knows what it has to know of its lease, and no two writes have the same one. Whoever
is about to be told where a path leads will be told so truly. -/
structure Leased (w : Archive ε) (c : Scene ε) : Prop where
  told : ∀ i b path options file,
    c.inbox i = some ⟨.store b (.resolve path options), .ok file⟩ → file = w.locate b.identity path
  proper : ∀ i t place, c.gateway.write? i = some (t, place) → place.Proper w c.gateway.shared t
  single : ∀ i j t t' place place' id, c.gateway.write? i = some (t, place) →
    c.gateway.write? j = some (t', place') → place.lease? = some id →
    place'.lease? = some id → i = j

theorem leased_start (writer : Diagnostics) (world : ε) : Leased w (start writer world) where
  told := fun i b path options file h => by cases h
  proper := fun i t place h => by cases h
  single := fun i j t t' place place' id h => by cases h

/-- The lease of a write was made. -/
theorem Leased.made (h : Leased w c) (ho : c.InOrder) {i : TaskId} {t : Write.Target}
    {place : Write.Place} {id : LeaseId} (hw : c.gateway.write? i = some (t, place))
    (hid : place.lease? = some id) : ∃ l, c.gateway.shared.lease? id = some l := by
  cases place with
  | copying lease place =>
    cases hid
    obtain ⟨l, held, hl, -⟩ := h.proper i t _ hw
    exact ⟨l, hl⟩
  | locking a place =>
    cases hid
    obtain ⟨l, hl, -⟩ := ho.leases.fits i _ (Gateway.leaseOps_of_write hw)
    exact ⟨l, hl⟩
  | unlocking lease marker place copied =>
    cases hid
    obtain ⟨l, hl, -⟩ := ho.leases.fits i _ (Gateway.leaseOps_of_write hw)
    exact ⟨l, hl⟩

theorem Leased.rests (h : Leased w c) (hr : c.Rests c') : Leased w c' := by
  constructor
  · intro i b path options file hin
    rcases hr.inbox i with hsame | ⟨-, hnone⟩
    · rw [hsame] at hin
      exact h.told i b path options file hin
    · rw [hnone] at hin
      cases hin
  · intro i t place hw
    rw [hr.write?] at hw
    exact (h.proper i t place hw).keep fun id _ => hr.kept id
  · rw [hr.write?]
    exact h.single

/-- Whoever is given an answer waits for no other one. -/
theorem Leased.told_of_deliver (h : Leased w c) {id : TaskId}
    (hinbox : c'.inbox = Function.update c.inbox id none) (i : TaskId) (b : Backend) (path : Path)
    (options : Options) (file : FileRef)
    (hin : c'.inbox i = some ⟨.store b (.resolve path options), .ok file⟩) :
    file = w.locate b.identity path := by
  rw [hinbox] at hin
  by_cases hid : i = id
  · rw [hid, Function.update_self] at hin
    cases hin
  · rw [Function.update_of_ne hid] at hin
    exact h.told i b path options file hin

/-- A write goes on: it keeps its lease, and the leases of all others are left alone. -/
theorem Leased.goes (h : Leased w c) (ho : c.InOrder) {id : TaskId} {handle : HandleId}
    {target : Write.Target} {place : Write.Place} {reply : Reply}
    {step : Step Write.Place (Except Error Nat)} {s : Shared}
    (task : c.gateway.task? id = some (.operating handle (.writing target place)))
    (inbox : c.inbox id = some reply)
    (move : Write.Goes c.gateway.shared.writer target c.gateway.shared place reply step s)
    (agrees : s.Agrees c'.gateway.shared)
    (hwrite : c'.gateway.write? = Function.update c.gateway.write? id
      (step.place?.map fun place => (target, place)))
    (hinbox : c'.inbox = Function.update c.inbox id none) : Leased w c' := by
  have hw : c.gateway.write? id = some (target, place) :=
    Gateway.write?_eq task
  -- what a write has after the change it has had before
  have hlease : ∀ i t p, c'.gateway.write? i = some (t, p) →
      ∃ p', c.gateway.write? i = some (t, p') ∧ p'.lease? = p.lease? := by
    intro i t p hi
    rw [hwrite] at hi
    by_cases hid : i = id
    · subst hid
      rw [Function.update_self] at hi
      cases step with
      | done result => cases hi
      | paused place' =>
        cases hi
        exact ⟨place, hw, move.lease.symm⟩
    · rw [Function.update_of_ne hid] at hi
      exact ⟨p, hi, rfl⟩
  constructor
  · exact h.told_of_deliver hinbox
  · intro i t p hi
    refine Write.Place.Proper.keep (s := s) ?_ fun n _ => .of_agrees agrees n
    rw [hwrite] at hi
    by_cases hid : i = id
    · -- the write that goes on
      subst hid
      rw [Function.update_self] at hi
      cases step with
      | done result => cases hi
      | paused place' =>
        cases hi
        refine move.proper (h.proper i target place hw) (fun b path options file hreply => ?_)
          fun d hd => ?_
        · exact h.told i b path options file (hreply ▸ inbox)
        · exact ho.leases.fits i d ((Gateway.leaseOps_of_write hw).trans hd)
    · -- another write has another lease
      rw [Function.update_of_ne hid] at hi
      refine (h.proper i t p hi).keep fun n hn => move.keeps fun hn' => ?_
      exact hid (h.single i id t target p place n hi hw hn hn')
  · intro i j t t' p p' n hi hj hn hn'
    obtain ⟨q, hq, hqn⟩ := hlease i t p hi
    obtain ⟨q', hq', hqn'⟩ := hlease j t' p' hj
    exact h.single i j t t' q q' n hq hq' (hqn.trans hn) (hqn'.trans hn')

/-- A write begins: if it has a lease, it is a new one. -/
theorem Leased.begins (h : Leased w c) (ho : c.InOrder) {id : TaskId} {target : Write.Target}
    {place : Write.Place}
    (begins : Write.Begins c.gateway.shared.leases target place c'.gateway.shared.leases)
    (hwrite : c'.gateway.write? = Function.update c.gateway.write? id (some (target, place)))
    (hinbox : c'.inbox = Function.update c.inbox id none) : Leased w c' := by
  have hold : ∀ i t p n, c.gateway.write? i = some (t, p) → p.lease? = some n →
      n < c.gateway.shared.leases.length := by
    intro i t p n hi hn
    obtain ⟨l, hl⟩ := h.made ho hi hn
    exact (List.getElem?_eq_some_iff.1 hl).1
  -- a write that is not the new one has another lease
  have hother : ∀ i t p n, c.gateway.write? i = some (t, p) → p.lease? = some n →
      place.lease? ≠ some n := by
    intro i t p n hi hn hnew
    have hlt := hold i t p n hi hn
    rw [begins.lease hnew] at hlt
    exact Nat.lt_irrefl _ hlt
  constructor
  · exact h.told_of_deliver hinbox
  · intro i t p hi
    rw [hwrite] at hi
    by_cases hid : i = id
    · rw [hid, Function.update_self] at hi
      cases hi
      exact begins.proper _
    · rw [Function.update_of_ne hid] at hi
      exact (h.proper i t p hi).keep fun n hn => begins.keeps (hold i t p n hi hn)
  · intro i j t t' p p' n hi hj hn hn'
    rw [hwrite] at hi hj
    by_cases hid : i = id
    · by_cases hjd : j = id
      · exact hid.trans hjd.symm
      · rw [hid, Function.update_self] at hi
        rw [Function.update_of_ne hjd] at hj
        cases hi
        exact absurd hn (hother j t' p' n hj hn')
    · rw [Function.update_of_ne hid] at hi
      by_cases hjd : j = id
      · rw [hjd, Function.update_self] at hj
        cases hj
        exact absurd hn' (hother i t p n hi hn)
      · rw [Function.update_of_ne hjd] at hj
        exact h.single i j t t' p p' n hi hj hn hn'

end Scene

/-- If a request was to resolve a path, the answer of the archive is true. -/
theorem Archive.located_of_reply (w : Archive ε) {i : TaskId} {request : Request} {e : ε}
    {b : Backend} {path : Path} {options : Options} {file : FileRef}
    (h : (⟨request, (w.answer i request e).1⟩ : Reply) =
      ⟨.store b (.resolve path options), .ok file⟩) : file = w.locate b.identity path := by
  obtain rfl : request = .store b (.resolve path options) := congrArg Sigma.fst h
  exact w.located i b path options e file (eq_of_heq (Sigma.mk.inj h).2)

namespace Scene

variable {w : Archive ε} {c c' : Scene ε}

/-- The archive acts on a request: what it tells of a path is true. -/
theorem Leased.serves (h : Leased w c) {id : TaskId} {request : Request}
    (hgateway : c'.gateway = c.gateway)
    (hinbox : c'.inbox =
      Function.update c.inbox id (some ⟨request, (w.answer id request c.world).1⟩)) :
    Leased w c' := by
  constructor
  · intro i b path options file hin
    rw [hinbox] at hin
    by_cases hid : i = id
    · rw [hid, Function.update_self] at hin
      exact w.located_of_reply (Option.some.inj hin)
    · rw [Function.update_of_ne hid] at hin
      exact h.told i b path options file hin
  · rw [hgateway]
    exact h.proper
  · rw [hgateway]
    exact h.single

theorem Leased.unfolds (h : Leased w c) (ho : c.InOrder) (hu : Unfolds w.toWorld c c') :
    Leased w c' := by
  cases hu with
  | rests _ rests => exact h.rests rests
  | serves id t p task pending inbox => exact h.serves rfl rfl
  | goes id handle target place reply step s s' t' task inbox move next agrees =>
    refine h.goes ho task inbox move agrees ?_ rfl
    rw [Gateway.write?_set task, next, Task.write?_ofOperation]
  | begins id t reply handle target place s task unwritten unfinished begins =>
    exact h.begins ho begins (Gateway.write?_set task _ s) rfl

/-- Every write knows what it has to know of its lease at all times. -/
theorem leased_run (writer : Diagnostics) (world : ε) (events : List Event)
    (hops : ((start writer world).run w.toWorld events).gateway.OnlyOperations) :
    Leased w ((start writer world).run w.toWorld events) := by
  -- if only operations run in the end, only operations have run at all times
  refine (run_induction (w := w.toWorld)
    (P := fun c => c.InOrder ∧ (c.gateway.OnlyOperations → Leased w c))
    ⟨inOrder_start writer world, fun _ => leased_start writer world⟩ ?_ events).2 hops
  intro c c' h hc
  refine ⟨h.1.changes hc, fun ho => ?_⟩
  exact (h.2 (OnlyOperations.of_changes hc ho)).unfolds h.1 (unfolds_of_changes hc ho)

/-! ## Holders -/

end Scene

/-- Whether a write holds its lease: the lease is active, or given up, and the removal of the marker
has not taken place. -/
def Write.Place.holds : Write.Place → Option Reply → Bool
  | locking _ .arming, _ => true
  | copying (some _) _, _ => true
  | unlocking _ _ .taking _, _ => true
  | unlocking _ _ (.cancelling _) _, _ => true
  | unlocking _ _ (.removing _) _, none => true
  | _, _ => false

namespace Scene

variable {w : Archive ε} {c : Scene ε} {σ : Site}

/-- Whoever holds its lease owns the marker. -/
theorem Leased.owns (h : Leased w c) {i : TaskId} {t : Write.Target} {place : Write.Place}
    (hs : ∀ τ, w.marker? t.site = some τ → Staked w.toRealm c τ)
    (hw : c.gateway.write? i = some (t, place)) (hh : place.holds (c.inbox i) = true) :
    ∃ τ id, w.marker? t.site = some τ ∧ place.lease? = some id ∧ c.Owns w.toRealm τ id := by
  have hproper := h.proper i t place hw
  have hleaseOp := Gateway.leaseOps_of_write hw
  have hheld : ∀ {id l held}, c.gateway.shared.lease? id = some l → l.held = some held →
      w.marker? t.site = some held.site → c.Owns w.toRealm held.site id := by
    intro id l held hl hheld hsite
    exact (hs _ hsite).held id l held hl hheld rfl
  cases place with
  -- first the lease itself holds the marker, then the lease operation that gives it up owns it
  | locking a place =>
    cases place with
    | arming =>
      obtain ⟨l, held, hl, -, hl', hsite⟩ := hproper.2.2.2 rfl
      exact ⟨held.site, a.lease, hsite, rfl, hheld hl hl' hsite⟩
    | _ => cases hh
  | copying lease place =>
    cases lease with
    | some lease =>
      obtain ⟨l, held, hl, -, hl', hsite⟩ := hproper
      exact ⟨held.site, lease, hsite, rfl, hheld hl hl' hsite⟩
    | none => cases hh
  | unlocking lease marker place copied =>
    cases place with
    | taking =>
      obtain ⟨l, held, hl, hl', hsite⟩ := hproper
      exact ⟨held.site, lease, hsite, rfl, hheld hl hl' hsite⟩
    | cancelling held =>
      exact ⟨held.site, lease, hproper, rfl, (hs _ hproper).owned i _ hleaseOp rfl⟩
    | removing removal =>
      have howned : ∀ inbox, (Write.Place.unlocking lease marker (.removing removal) copied).holds
          inbox = true → (LeaseOp.surrender ⟨lease, false⟩ (.removing removal)).owned? inbox =
            some removal.site := by
        intro inbox hinbox
        cases inbox with
        | none => rfl
        | some reply => cases hinbox
      exact ⟨removal.site, lease, hproper, rfl, (hs _ hproper).owned i _ hleaseOp (howned _ hh)⟩

/-- Two writes of one file that hold their leases are one. -/
theorem Leased.exclusive (h : Leased w c)
    (hs : ∀ τ, w.marker? σ = some τ → Staked w.toRealm c τ) {i j : TaskId} {t t' : Write.Target}
    {place place' : Write.Place} (hi : c.gateway.write? i = some (t, place))
    (hj : c.gateway.write? j = some (t', place')) (hσ : t.site = σ) (hσ' : t'.site = σ)
    (hh : place.holds (c.inbox i) = true) (hh' : place'.holds (c.inbox j) = true) : i = j := by
  obtain ⟨τ, id, hτ, hid, howns⟩ := h.owns (by rw [hσ]; exact hs) hi hh
  obtain ⟨τ', id', hτ', hid', howns'⟩ := h.owns (by rw [hσ']; exact hs) hj hh'
  rw [hσ] at hτ
  rw [hσ', hτ] at hτ'
  cases hτ'
  -- the marker was made by one lease, and this is the lease of one write
  have hsame : id = id' := howns.unique howns'
  exact h.single i j t t' place place' id hi hj hid (hsame ▸ hid')

end Scene

end FileGateway

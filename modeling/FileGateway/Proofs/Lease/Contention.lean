import FileGateway.Proofs.Gateway.Memory
import FileGateway.Proofs.Gateway.Scene
import FileGateway.Proofs.Lease.PathLocks
import FileGateway.Proofs.Lease.Turns

/-!
# Who waits for whom

An acquisition waits at a guard while another one works on its marker. The guard is found by a key,
and the key of a site is its identity and its path in one string, with nothing between the two. So
two sites can have one key although they are not the same: the end of one identity is then the
beginning of the other path (`Site.Blurs`).

The acquisitions of a gateway are calls on a system of path locks, whatever else the gateway does
(`Scene.pathLocks_changes`). Therefore an acquisition waits if and only if another one holds the
guard of a site that has its key, and `Scene.contention_run` says which sites these are.
-/

namespace FileGateway

/-! ## Keys of sites -/

/-- The identity of one site goes on into the path of the other: both have one key, but not the same
identity. -/
def Site.Blurs (σ τ : Site) : Prop :=
  ∃ rest, rest ≠ "" ∧ τ.identity = σ.identity ++ rest ∧ σ.file.path.text = rest ++ τ.file.path.text

/-- Two texts that are put together in two ways: one cut is before the other. -/
theorem append_eq_append_cut {a b c d : String} (h : a ++ b = c ++ d) :
    (∃ rest, c = a ++ rest ∧ b = rest ++ d) ∨ ∃ rest, a = c ++ rest ∧ d = rest ++ b := by
  have hlist : a.toList ++ b.toList = c.toList ++ d.toList := by
    rw [← String.toList_append, ← String.toList_append, h]
  rcases List.append_eq_append_iff.1 hlist with ⟨cs, hc, hb⟩ | ⟨cs, ha, hd⟩
  · exact .inl ⟨String.ofList cs, String.toList_inj.1 (by simp [hc]),
      String.toList_inj.1 (by simp [hb])⟩
  · exact .inr ⟨String.ofList cs, String.toList_inj.1 (by simp [ha]),
      String.toList_inj.1 (by simp [hd])⟩

/-- Two sites have one key if and only if they are the same or the one blurs into the other. -/
theorem Site.key_eq_iff {σ τ : Site} : σ.key = τ.key ↔ σ = τ ∨ σ.Blurs τ ∨ τ.Blurs σ := by
  have hcut : ∀ {σ τ : Site} {rest}, τ.identity = σ.identity ++ rest →
      σ.file.path.text = rest ++ τ.file.path.text → σ = τ ∨ σ.Blurs τ := by
    rintro ⟨i, ⟨⟨p⟩⟩⟩ ⟨j, ⟨⟨q⟩⟩⟩ rest hidentity hpath
    by_cases hrest : rest = ""
    · subst hrest
      simp only [String.append_empty, String.empty_append] at hidentity hpath
      exact .inl (by rw [hidentity, hpath])
    · exact .inr ⟨rest, hrest, hidentity, hpath⟩
  constructor
  · intro h
    rcases append_eq_append_cut h with ⟨rest, hidentity, hpath⟩ | ⟨rest, hidentity, hpath⟩
    · exact (hcut hidentity hpath).imp_right .inl
    · exact (hcut hidentity hpath).imp Eq.symm .inr
  · have hblurs : ∀ {σ τ : Site}, σ.Blurs τ → σ.key = τ.key := by
      rintro σ τ ⟨rest, -, hidentity, hpath⟩
      rw [key, key, hidentity, hpath, String.append_assoc]
    rintro (rfl | h | h)
    · rfl
    · exact hblurs h
    · exact (hblurs h).symm

/-! ## Acquisitions at the path locks -/

namespace LeaseOp

/-- The call for the guard of its marker that an acquisition makes, from the moment at which the
path of the marker is resolved. -/
def lockCall? : LeaseOp → Option LockCall
  | acquire a place => place.bid?.map fun bid =>
      ⟨a.backend.site bid.marker, bid.ticket, !place.isQueued⟩
  | surrender _ _ => none

/-- What a move does at the path locks: nothing, or what one event does to the call of the lease
operation. -/
inductive Locks (s s' : Shared) (d : LeaseOp) (reply : Reply) (new : Option LockCall) : Prop where
  | nothing (guards : s'.guards = s.guards) (call : new = d.lockCall?)
  | locks (σ : Site) (before : d.lockCall? = none)
      (guards : s'.guards = (s.guards.arrive σ.key).2)
      (call : new = some ⟨σ, (s.guards.arrive σ.key).1, false⟩)
  | granted (x : LockCall) (before : d.lockCall? = some x) (guards : s'.guards = s.guards)
      (turn : reply.1 = .guard x.ticket) (call : new = some { x with granted := true })
  | drops (x : LockCall) (before : d.lockCall? = some x)
      (guards : s'.guards = s.guards.leave x.ticket) (call : new = none)

theorem Moves.locks {writer : Diagnostics} {s s' : Shared} {d : LeaseOp} {reply : Reply}
    {step : Step LeaseOp Ending} (h : d.Moves writer s reply step s') :
    Locks s s' d reply (step.place?.bind lockCall?) := by
  cases h with
  | resolved a marker => exact .locks (a.backend.site marker) rfl rfl rfl
  | granted a bid =>
    refine .granted ⟨a.backend.site bid.marker, bid.ticket, false⟩ rfl rfl rfl ?_
    cases a.backend.exclusiveCreate <;> rfl
  -- whatever becomes of the marker, the guard is dropped at the end
  | beaten a bid | uncreated a bid | found a bid | unprobed a bid | unfilled a bid
  | finished a bid | cleaned a bid =>
    exact .drops ⟨a.backend.site bid.marker, bid.ticket, true⟩ rfl rfl rfl
  | taken r held =>
    refine .nothing rfl ?_
    cases r.forced <;> rfl
  | _ => exact .nothing rfl rfl

end LeaseOp

namespace Scene

variable {ε : Type} {c c' : Scene ε} {i j : TaskId}

/-- The guards of a scene, and the acquisitions that hold them or wait for them. -/
def pathLocks (c : Scene ε) : PathLocks :=
  ⟨c.gateway.shared.guards, fun i => (c.gateway.leaseOps i).bind LeaseOp.lockCall?⟩

theorem pathLocks_eq {guards : Guards} {leaseOp : Option LeaseOp}
    (hguards : c'.gateway.shared.guards = guards)
    (hleaseOps : c'.gateway.leaseOps = Function.update c.gateway.leaseOps i leaseOp) :
    c'.pathLocks =
      ⟨guards, Function.update c.pathLocks.calls i (leaseOp.bind LeaseOp.lockCall?)⟩ := by
  rw [pathLocks, hguards, hleaseOps]
  exact congrArg (PathLocks.mk guards)
    (Function.comp_update (fun d : Option LeaseOp => d.bind LeaseOp.lockCall?)
      c.gateway.leaseOps i leaseOp)

/-- What begins has not come to a guard yet. -/
theorem pathLocks_starts {d : Option LeaseOp} (h : c.gateway.Starts i d c'.gateway) :
    c'.pathLocks = c.pathLocks := by
  have hbefore : c.pathLocks.calls i = none := congrArg (Option.bind · LeaseOp.lockCall?) h.idle
  have hafter : d.bind LeaseOp.lockCall? = none := by
    cases h.begins <;> rfl
  rw [pathLocks_eq h.begins.guards h.leaseOps, hafter, ← hbefore, Function.update_eq_self]
  rfl

/-- A task with a lease operation does at the guards what one event of the path locks does. -/
theorem pathLocks_goes {d : LeaseOp} {reply : Reply} (h : c.gateway.Goes i d reply c'.gateway) :
    c'.pathLocks = c.pathLocks ∨ ∃ e, c'.pathLocks = c.pathLocks.step e := by
  obtain ⟨step, s, hmoves, hagrees, hleaseOps⟩ := h.moves
  have hcall : c.pathLocks.calls i = d.lockCall? :=
    congrArg (Option.bind · LeaseOp.lockCall?) h.leaseOp
  have heq := pathLocks_eq hagrees.guards hleaseOps
  cases hmoves.locks with
  | nothing guards call =>
    left
    rw [heq, guards, call, ← hcall, Function.update_eq_self]
    rfl
  | locks σ before guards call =>
    refine .inr ⟨.lock i σ, ?_⟩
    rw [heq, guards, call, PathLocks.step, hcall, before]
    rfl
  | granted x before guards turn call =>
    -- it was let in because it holds the guard
    have hholds : c.pathLocks.guards.holds x.ticket = true := h.turn x.ticket turn
    refine .inr ⟨.grant i, ?_⟩
    rw [heq, guards, call, PathLocks.step, hcall, before]
    exact (if_pos hholds).symm
  | drops x before guards call =>
    refine .inr ⟨.drop i, ?_⟩
    rw [heq, guards, call, PathLocks.step, hcall, before]
    rfl

/-- Every change of a scene is an event of its path locks, or leaves them alone. -/
theorem pathLocks_changes {w : World ε} (h : Changes w c c') :
    c'.pathLocks = c.pathLocks ∨ ∃ e, c'.pathLocks = c.pathLocks.step e := by
  cases h with
  | nothing => exact .inl rfl
  | starts d g starts grows => exact .inl (pathLocks_starts starts)
  | serves => exact .inl rfl
  | resumes id t p answer task pending inbox =>
    cases hd : c.gateway.leaseOps id with
    | none =>
      obtain ⟨d, starts⟩ := Gateway.starts_resume hd pending answer
      exact .inl (pathLocks_starts starts)
    | some d => exact pathLocks_goes (Gateway.goes_resume hd pending answer)

theorem visited_pathLocks {w : World ε} (writer : Diagnostics) (world : ε) (events : List Event) :
    Visited ((start writer world).run w events).pathLocks.guards
      ((start writer world).run w events).pathLocks.visits := by
  have hstart : Visited (start writer world).pathLocks.guards
      (start writer world).pathLocks.visits :=
    .start
  refine run_induction (P := fun c => Visited c.pathLocks.guards c.pathLocks.visits)
    hstart ?_ events
  intro c c' h hc
  rcases pathLocks_changes hc with heq | ⟨e, heq⟩
  · rw [heq]
    exact h
  · rw [heq]
    exact PathLocks.visited_step h e

/-! ## Waiting -/

/-- A task that waits at a guard can go on if and only if it holds the guard. -/
theorem pending?_lockCall {x : LockCall} (h : c.pathLocks.calls i = some x) :
    c.gateway.pending? i = none ↔
      x.granted = false ∧ c.gateway.shared.guards.holds x.ticket = false := by
  obtain ⟨d, hd, hx⟩ := Option.bind_eq_some_iff.1 h
  obtain ⟨t, ht, htd⟩ := Option.bind_eq_some_iff.1 hd
  obtain ⟨q, hq, hrequest, -⟩ := Task.next?_of_leaseOp htd c.gateway.shared
  have hpending : c.gateway.pending? i = none ↔
      Gateway.isOpen c.gateway.shared (d.next c.gateway.shared.writer).request = false := by
    rw [← hrequest, Gateway.pending?, ht, Option.bind_some, hq]
    cases hopen : Gateway.isOpen c.gateway.shared q.request <;> simp [hopen]
  rw [hpending]
  -- only at a guard there can be nothing to answer
  cases d with
  | surrender r place => cases hx
  | acquire a place =>
    obtain ⟨bid, hbid, rfl⟩ := Option.map_eq_some_iff.1 hx
    cases place <;> cases hbid <;>
      simp [LeaseOp.next, Acquire.next, Pending.map, Gateway.isOpen, Acquire.Place.isQueued]

/-- The task waits for the guard that another task holds: both have come to one guard, and the
other one has it. -/
structure WaitsFor (c : Scene ε) (i j : TaskId) : Prop where
  stuck : c.gateway.pending? i = none
  behind : ∃ x y, c.pathLocks.calls i = some x ∧ c.pathLocks.calls j = some y ∧
    x.ticket.guard = y.ticket.guard ∧ c.gateway.shared.guards.holds y.ticket = true

/-- Acquisitions meet at a guard if and only if their sites have one key, so that they are the same
or one blurs into the other.

An acquisition can go on at once unless it `waits` for another one, which holds the guard. And
whoever waits for another one waits for one whose site is the same or blurs. -/
structure Contention (c : Scene ε) : Prop where
  meets : ∀ i j x y, c.pathLocks.calls i = some x → c.pathLocks.calls j = some y →
    (x.ticket.guard = y.ticket.guard ↔
      x.site = y.site ∨ x.site.Blurs y.site ∨ y.site.Blurs x.site)
  waits : ∀ i x, c.pathLocks.calls i = some x →
    (c.gateway.pending? i = none ↔ ∃ j, j ≠ i ∧ c.WaitsFor i j)
  shared : ∀ i j, c.WaitsFor i j →
    ∃ x y, c.pathLocks.calls i = some x ∧ c.pathLocks.calls j = some y ∧
    (x.site = y.site ∨ x.site.Blurs y.site ∨ y.site.Blurs x.site)

/-- Whatever the gateway is asked to do, however slow its stores are and however its tasks
interleave: an acquisition waits for those only whose sites have its key. -/
theorem contention_run (w : World ε) (writer : Diagnostics) (world : ε) (events : List Event) :
    Contention ((start writer world).run w events) := by
  have h := visited_pathLocks (w := w) writer world events
  generalize (start writer world).run w events = c at h
  have hmeets : ∀ i j x y, c.pathLocks.calls i = some x → c.pathLocks.calls j = some y →
      (x.ticket.guard = y.ticket.guard ↔
        x.site = y.site ∨ x.site.Blurs y.site ∨ y.site.Blurs x.site) := by
    intro i j x y hx hy
    rw [← Site.key_eq_iff]
    exact Guards.Serves.guard_eq_iff h.indexed (h.serves i _ (PathLocks.visits_eq hx))
      (h.serves j _ (PathLocks.visits_eq hy))
  constructor
  · exact hmeets
  · intro i x hx
    constructor
    · intro hstuck
      -- it does not hold its guard, so somebody else does
      have hnot := ((pending?_lockCall hx).1 hstuck).2
      obtain ⟨j, v, hj, hv, hholds, hkey⟩ := (h.waits_iff (PathLocks.visits_eq hx)).1 hnot
      obtain ⟨y, hy, rfl⟩ := Option.map_eq_some_iff.1 hv
      have hguard := (Guards.Serves.guard_eq_iff h.indexed (h.serves j _ hv)
        (h.serves i _ (PathLocks.visits_eq hx))).2 hkey
      exact ⟨j, hj, hstuck, x, y, hx, hy, hguard.symm, hholds⟩
    · rintro ⟨j, -, hwaits⟩
      exact hwaits.stuck
  · rintro i j ⟨-, x, y, hx, hy, hguard, -⟩
    exact ⟨x, y, hx, hy, (hmeets i j x y hx hy).1 hguard⟩

/-- Two leases in two stores: the identity of the second store begins with that of the first, and
goes on as the first path begins. Both acquisitions have resolved their paths, and the first one has
its turn. -/
def blurred : List Event :=
  [.call (.addLease ⟨"/b/f"⟩), .call (.addLease ⟨"/f"⟩),
    .call (.acquire 0 ⟨0, "mem://a", true⟩ .empty .zero),
    .call (.acquire 1 ⟨1, "mem://a/b", true⟩ .empty .zero),
    .serve 0, .deliver 0, .serve 1, .deliver 1, .serve 0, .deliver 0]

/-- Not every acquisition that waits for another one has the same site as that one. -/
theorem not_independent :
    ¬ ∀ (writer : Diagnostics) (events : List Event) (i j : TaskId) (x y : LockCall),
      let c := (start writer (Memory.empty fun _ => [])).run Memory.realm.toWorld events
      c.pathLocks.calls i = some x → c.pathLocks.calls j = some y → c.WaitsFor i j →
        x.site = y.site := by
  intro h
  let c :=
    (start ⟨"host", "10.0.0.1", 7⟩ (Memory.empty fun _ => [])).run Memory.realm.toWorld blurred
  let first : LockCall := ⟨⟨"mem://a", ⟨⟨"/b/f.lock"⟩⟩⟩, ⟨0, 0⟩, true⟩
  let second : LockCall := ⟨⟨"mem://a/b", ⟨⟨"/f.lock"⟩⟩⟩, ⟨0, 1⟩, false⟩
  have hfirst : c.pathLocks.calls 0 = some first := by decide +kernel
  have hsecond : c.pathLocks.calls 1 = some second := by decide +kernel
  have hholds : c.gateway.shared.guards.holds first.ticket = true := by decide +kernel
  have hstuck : c.gateway.pending? 1 = none :=
    (pending?_lockCall hsecond).2 ⟨rfl, by decide +kernel⟩
  have hwaits : c.WaitsFor 1 0 := ⟨hstuck, second, first, hsecond, hfirst, rfl, hholds⟩
  have hsite := h _ blurred 1 0 second first hsecond hfirst hwaits
  exact absurd hsite (by decide)

end Scene

end FileGateway

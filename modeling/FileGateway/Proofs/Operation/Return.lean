import FileGateway.Proofs.Operation.Phase
import FileGateway.Proofs.Operation.Serial

/-!
# Locked writes that return

Whatever the world answers, and whatever else goes on, a locked write that has returned has left no
lease behind that is active. A lease that it had is given up by one task, which is the write itself
or the timer; nothing was asked for its copy before that lease was acquired; and the result is the
one that `Write.verdict` reads off what the write was answered.

`Scene.Heeds` is what holds of the requests of the write at all times, and `Scene.returned_run` is
what holds in the end.
-/

namespace FileGateway

/-- The site of the file that a lease operation takes for the marker, and may create or remove. -/
def LeaseOp.marker? : LeaseOp → Option Site
  | acquire a place => place.marker?.map a.backend.site
  | surrender _ (.removing removal) => some removal.site
  | surrender _ _ => none

theorem LeaseOp.marker?_of_altered {d : LeaseOp} {writer : Diagnostics} {σ : Site}
    (h : (d.next writer).request.altered? = some σ) : d.marker? = some σ := by
  cases d with
  | acquire a place => cases place <;> first | exact h | cases h
  | surrender r place => cases place <;> exact h

namespace Scene

variable {ε : Type} {w : World ε} {c c' : Scene ε} {e : Event} {i k : TaskId} {id : LeaseId}
  {t : Write.Target} {marker : Path}

/-! ## What is asked for a write -/

/-- For a write nothing was asked of its copy before its lease was acquired, and apart from its copy
nothing was altered but what its lease takes for the marker. -/
structure Heeds (c : Scene ε) (i : TaskId) : Prop where
  opened : ∀ t reply earlier, .served i t reply :: earlier <:+ c.history → t.isCopying = true →
    Write.HasAcquired (passes i earlier)
  beside : ∀ t reply σ, .served i t reply ∈ c.history → reply.1.altered? = some σ →
    t.isCopying = true ∨ t.leaseOp?.bind LeaseOp.marker? = some σ

/-- What a write asks for depends on how far it has come. -/
theorem Phase.asks (h : c.Phase i) {t : Task} {p : Pending Gateway}
    (task : c.gateway.task? i = some t) (pending : c.gateway.pending? i = some p) :
    (t.isCopying = true → Write.HasAcquired (passes i c.history)) ∧
      ∀ σ, p.request.altered? = some σ →
        t.isCopying = true ∨ t.leaseOp?.bind LeaseOp.marker? = some σ := by
  have hunfinished : ∀ result, t ≠ .finished result := by
    rintro result rfl
    obtain ⟨t₀, q, ht₀, hq, -, -⟩ := Gateway.pending?_eq pending
    rw [task] at ht₀
    cases ht₀
    cases hq
  -- a lease operation alters the file that it takes for the marker
  have hleaseOp : ∀ d, t.leaseOp? = some d → ∀ σ, p.request.altered? = some σ →
      t.leaseOp?.bind LeaseOp.marker? = some σ := by
    intro d hd σ hσ
    rw [Gateway.request_of_leaseOp ((Gateway.leaseOps_eq task).trans hd) pending] at hσ
    rw [hd]
    exact LeaseOp.marker?_of_altered hσ
  cases h with
  | resolving handle mode r task' early =>
    rw [task] at task'
    cases task'
    obtain ⟨t₀, q, ht₀, hq, -, rfl⟩ := Gateway.pending?_eq pending
    rw [task] at ht₀
    cases ht₀
    cases hq
    exact ⟨nofun, fun σ hσ => by cases hσ⟩
  | failed error result early =>
    rw [Gateway.result?_eq, task] at result
    exact absurd (Option.some.inj result) (hunfinished _)
  | writing t' place id marker write lease owned tells stage =>
    obtain ⟨handle, task'⟩ := Gateway.write?_task write
    rw [task] at task'
    cases task'
    cases place with
    | locking a q => exact ⟨nofun, fun σ hσ => .inr (hleaseOp _ rfl σ hσ)⟩
    | copying n q =>
      cases lease
      exact ⟨fun _ => tells.1, fun _ _ => .inl rfl⟩
    | unlocking n path q copied => exact ⟨nofun, fun σ hσ => .inr (hleaseOp _ rfl σ hσ)⟩
  | returned t' id marker result ended known owned told acquired refused =>
    rw [Gateway.result?_eq, task] at ended
    exact absurd (Option.some.inj ended) (hunfinished _)

theorem Heeds.steps (h : c.Heeds i) (hphase : c.Phase i) (hs : Steps w c e c') : c'.Heeds i := by
  cases hs with
  | nothing => exact h
  | starts new g starts grows begins => exact ⟨h.opened, h.beside⟩
  | serves j t p task pending inbox =>
    constructor
    · intro t' reply earlier hsuffix hcopying
      rcases List.suffix_cons_iff.1 hsuffix with heq | hbefore
      · cases heq
        exact (hphase.asks task pending).1 hcopying
      · exact h.opened t' reply earlier hbefore hcopying
    · intro t' reply σ hmem hσ
      rcases List.mem_cons.1 hmem with heq | hmem
      · cases heq
        exact (hphase.asks task pending).2 σ hσ
      · exact h.beside t' reply σ hmem hσ
  | resumes j t p answer task pending inbox =>
    constructor
    · intro t' reply earlier hsuffix hcopying
      rcases List.suffix_cons_iff.1 hsuffix with heq | hbefore
      · cases heq
      · exact h.opened t' reply earlier hbefore hcopying
    · intro t' reply σ hmem hσ
      rcases List.mem_cons.1 hmem with heq | hmem
      · cases heq
      · exact h.beside t' reply σ hmem hσ

/-! ## Writes that have returned -/

/-- What is known of every scene. -/
structure Known (c : Scene ε) : Prop where
  order : c.InOrder
  surrenderedOnce : c.SurrenderedOnce
  recorded : c.Recorded

theorem Known.steps (h : c.Known) (hs : Steps w c e c') : c'.Known :=
  ⟨h.order.changes hs.changes, h.surrenderedOnce.changes h.order hs.changes, h.recorded.steps hs⟩

theorem known_run (writer : Diagnostics) (world : ε) (events : List Event) :
    ((start writer world).run w events).Known := by
  have hrun : ∀ (events : List Event) (c : Scene ε), c.Known → (c.run w events).Known := by
    intro events
    induction events with
    | nil => exact fun c h => h
    | cons e events ih => exact fun c h => ih _ (h.steps (steps_step w c e))
  exact hrun events _
    ⟨inOrder_start writer world, surrenderedOnce_start writer world, recorded_start writer world⟩

theorem phase_run (h : c.Phase i) (hh : c.Heeds i) (hk : c.Known) (events : List Event)
    (hu : Undisputed w i c events) :
    (c.run w events).Phase i ∧ (c.run w events).Heeds i ∧ (c.run w events).Known := by
  induction events generalizing c with
  | nil => exact ⟨h, hh, hk⟩
  | cons e events ih =>
    obtain ⟨hlocks, he, hrest⟩ := hu
    have hs := steps_step w c e
    have hk' := hk.steps hs
    exact ih (h.steps hs hk.order hk.recorded hk'.surrenderedOnce hlocks he)
      (hh.steps h hs) hk' hrest

/-- What a locked write has come to that has returned.

* `inactive`: none of its leases is active;
* `given`: if it has acquired its lease, just one task has begun to give that lease up: the write
  itself, which has then tried to remove the marker, or the timer;
* `opened`: its copy has asked for nothing before the lease was acquired;
* `untouched`: if it has not acquired its lease, it has altered nothing but what it took for its
  marker;
* `reported`: the result tells what has happened. -/
structure Returned (c : Scene ε) (i : TaskId) (result : Except Error Effect) : Prop where
  inactive : ∀ id ∈ c.leasesOf i, c.gateway.shared.stage? id ≠ some .active
  given : Write.HasAcquired (passes i c.history) → ∃ id k forced,
    (∀ n, n ∈ c.leasesOf i ↔ n = id) ∧
    (∀ k' forced', c.GivesUp id k' forced' ↔ k' = k ∧ forced' = forced) ∧
    (forced = false → k = i) ∧
    (forced = true ↔ Write.removals (passes i c.history) = [])
  opened : ∀ t reply earlier, .served i t reply :: earlier <:+ c.history → t.isCopying = true →
    Write.HasAcquired (passes i earlier)
  untouched : ¬ Write.HasAcquired (passes i c.history) → ∀ t reply σ,
    .served i t reply ∈ c.history → reply.1.altered? = some σ →
      t.isCopying = false ∧ t.leaseOp?.bind LeaseOp.marker? = some σ
  reported : ∃ t marker count, result = count.map .copied ∧
    Write.Explained t marker (passes i c.history) count ∧
    ∀ p ∈ passes i c.history, p.target = t ∧ t.file.path.marker? = some marker

theorem hasAcquired_of_suffix {history earlier : List Entry} (h : earlier <:+ history)
    (ha : Write.HasAcquired (passes i earlier)) : Write.HasAcquired (passes i history) := by
  obtain ⟨p, hp, hacquires⟩ := ha
  exact ⟨p, (h.filterMap _).subset hp, hacquires⟩

theorem Heeds.untouched (h : c.Heeds i) (hnot : ¬ Write.HasAcquired (passes i c.history))
    {t : Task} {reply : Reply} {σ : Site} (hmem : .served i t reply ∈ c.history)
    (hσ : reply.1.altered? = some σ) :
    t.isCopying = false ∧ t.leaseOp?.bind LeaseOp.marker? = some σ := by
  have hcopying : t.isCopying = false := by
    by_contra hcopying
    obtain ⟨later, earlier, heq⟩ := List.append_of_mem hmem
    have hsuffix : .served i t reply :: earlier <:+ c.history := ⟨later, heq.symm⟩
    have hacquired := h.opened t reply earlier hsuffix (Bool.not_eq_false _ ▸ hcopying)
    exact hnot (hasAcquired_of_suffix ((List.suffix_cons _ _).trans hsuffix) hacquired)
  refine ⟨hcopying, (h.beside t reply σ hmem hσ).resolve_left fun h => ?_⟩
  rw [hcopying] at h
  cases h

theorem mem_leasesOf_returned {begun : Prop} (h : c.Owned i t id marker begun)
    (hw : c.gateway.write? i = none) {n : LeaseId} (hn : n ∈ c.leasesOf i) : n = id := by
  rw [leasesOf, hw] at hn
  obtain ⟨p, hp, hlease⟩ := List.mem_filterMap.1 hn
  exact Option.some.inj (hlease.symm.trans (h.course p hp).2)

/-- A lease that has been released was given up by one task. -/
theorem SurrenderedOnce.one (h : c.SurrenderedOnce)
    (hreleased : c.gateway.shared.stage? id = some .released) :
    ∃ k forced, ∀ k' forced', c.GivesUp id k' forced' ↔ k' = k ∧ forced' = forced := by
  obtain ⟨k, forced, hgives⟩ := (h.released id).1 hreleased
  refine ⟨k, forced, fun k' forced' => ⟨fun h' => h.single id k' k forced' forced h' hgives, ?_⟩⟩
  rintro ⟨rfl, rfl⟩
  exact hgives

/-- A write that has come to its end has kept no lease, and reports what has happened. -/
theorem Phase.returns (h : c.Phase i) (hh : c.Heeds i) (hp : c.SurrenderedOnce)
    {result : Except Error Effect} (hresult : c.gateway.result? i = some (.operated result)) :
    c.Returned i result := by
  have htask := Gateway.result?_eq.1 hresult
  have hw : c.gateway.write? i = none := Gateway.write?_eq htask
  have hreturned : ∀ {r}, c.gateway.result? i = some (.operated r) → r = result := by
    intro r hr
    rw [hresult] at hr
    cases hr
    rfl
  cases h with
  | resolving handle mode r task early =>
    rw [htask] at task
    cases task
  | failed error result' early =>
    -- it has failed before it had anything to do with a lease
    have hnot : ¬ Write.HasAcquired (passes i c.history) := by
      rw [early]
      exact fun ⟨p, hp, _⟩ => (by cases hp)
    refine ⟨fun id hid => ?_, fun h => absurd h hnot, hh.opened,
      fun h t reply σ => hh.untouched h, ?_⟩
    · rw [leasesOf, hw, early] at hid
      cases hid
    · refine ⟨⟨default, default, false⟩, default, .error error, (hreturned result').symm, ?_, ?_⟩
      · rw [early] at hnot ⊢
        exact .refused error hnot rfl
      · rw [early]
        exact fun p hp => by cases hp
  | writing t place id marker write lease owned tells stage =>
    rw [hw] at write
    cases write
  | returned t id marker result' ended known owned told acquired refused =>
    have hleases : ∀ n, n ∈ c.leasesOf i ↔ n = id := fun n =>
      ⟨mem_leasesOf_returned owned hw, fun hn => hn ▸ owned.mem_leasesOf known⟩
    refine ⟨fun n hn => ?_, fun hacquired => ?_, hh.opened, fun h t reply σ => hh.untouched h,
      ⟨t, marker, result', (hreturned ended).symm, told,
        fun p hp => ⟨(owned.course p hp).1, owned.path⟩⟩⟩
    · rw [(hleases n).1 hn]
      by_cases hacquired : Write.HasAcquired (passes i c.history)
      · rw [acquired hacquired]
        nofun
      · rw [refused hacquired]
        nofun
    · obtain ⟨k, forced, hone⟩ := hp.one (acquired hacquired)
      refine ⟨id, k, forced, hleases, hone, ?_, ?_⟩
      · rintro rfl
        exact ((owned.own k).1 ((hone k false).2 ⟨rfl, rfl⟩)).1
      · constructor
        · rintro rfl
          by_contra hremovals
          cases ((hone i false).1 ((owned.own i).2 ⟨rfl, hremovals⟩)).2
        · intro hremovals
          by_contra hforced
          rw [Bool.not_eq_true] at hforced
          exact ((owned.own k).1 ((hone k false).2 ⟨rfl, hforced.symm⟩)).2 hremovals

/-- A write that starts has everything before it. -/
theorem phase_operate (hk : c.Known) (deployment : Deployment) (key : ConnectionKey)
    (mode : WriteMode) (path : Path) :
    (c.step w (.call (.operate deployment key (.write mode) path))).Phase c.gateway.tasks.length ∧
      (c.step w (.call (.operate deployment key (.write mode) path))).Heeds
        c.gateway.tasks.length := by
  have hearly : passes c.gateway.tasks.length c.history = [] := passes_of_early hk.recorded.tasks
  have hnone : ∀ t reply, .served c.gateway.tasks.length t reply ∉ c.history := fun t reply hmem =>
    Nat.lt_irrefl _ (hk.recorded.tasks _ hmem)
  constructor
  · rcases Gateway.task?_operate c.gateway deployment key (.write mode) path with
      ⟨error, htask⟩ | ⟨handle, r, htask⟩
    · exact .failed error (Gateway.result?_eq.2 htask) hearly
    · exact .resolving handle mode r htask hearly
  · exact ⟨fun t reply earlier h => absurd (h.subset List.mem_cons_self) (hnone t reply),
      fun t reply σ h => absurd h (hnone t reply)⟩

/-- Whatever has happened before, whatever the world answers and whatever else goes on: a locked
write that returns keeps no lease and reports what has happened. -/
theorem returned_run (w : World ε) (writer : Diagnostics) (world : ε) (before : List Event)
    (deployment : Deployment) (key : ConnectionKey) (mode : WriteMode) (path : Path)
    (during : List Event) (c c' : Scene ε) (hc : c = (start writer world).run w before)
    (hc' : c' = c.step w (.call (.operate deployment key (.write mode) path)))
    (hundisputed : Undisputed w c.gateway.tasks.length c' during) (result : Except Error Effect)
    (hresult : (c'.run w during).gateway.result? c.gateway.tasks.length =
      some (.operated result)) :
    (c'.run w during).Returned c.gateway.tasks.length result := by
  have hk : c.Known := hc ▸ known_run writer world before
  obtain ⟨hphase, hheeds⟩ := phase_operate (w := w) hk deployment key mode path
  rw [← hc'] at hphase hheeds
  have hk' : c'.Known := hc' ▸ hk.steps (steps_step w c _)
  obtain ⟨hphase', hheeds', hk''⟩ := phase_run hphase hheeds hk' during hundisputed
  exact hphase'.returns hheeds' hk''.surrenderedOnce hresult

/-- A write under a lease that lasts for one second. -/
def briefly : WriteMode := ⟨false, some ⟨.marker, .clamp 1000000000⟩⟩

/-- The lease of a write runs out while it copies, its timer removes the marker, and then the copy
comes to its end. -/
def outrun : List Event :=
  let goOn (id : TaskId) (times : Nat) : List Event :=
    (List.replicate times [.serve id, .deliver id]).flatten
  goOn 0 12 ++ [.advance 1000000000, .fire 0] ++ goOn 1 2 ++ goOn 0 10

theorem returned_run_outrun :
    let c := start ⟨"host", "10.0.0.1", 7⟩ blank
    let c' := c.step Memory.archive.toWorld
      (.call (.operate office ⟨"s", "a"⟩ (.write briefly) ⟨"out"⟩))
    Undisputed Memory.archive.toWorld 0 c' outrun ∧
      (c'.run Memory.archive.toWorld outrun).gateway.result? 0 =
        some (.operated (.ok (.copied 5))) ∧
      (c'.run Memory.archive.toWorld outrun).Returned 0 (.ok (.copied 5)) := by
  intro c c'
  have hundisputed : Undisputed Memory.archive.toWorld 0 c' outrun := by decide +kernel
  have hresult : (c'.run Memory.archive.toWorld outrun).gateway.result? 0 =
      some (.operated (.ok (.copied 5))) := by decide +kernel
  exact ⟨hundisputed, hresult, returned_run Memory.archive.toWorld _ blank [] office ⟨"s", "a"⟩
    briefly ⟨"out"⟩ outrun c c' rfl rfl hundisputed _ hresult⟩

end Scene

end FileGateway

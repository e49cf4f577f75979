import FileGateway.Proofs.Lease.Surrendering
import FileGateway.Proofs.Operation.WriteHistory
import FileGateway.Proofs.Registry.Sharing

/-!
# How far a locked write has come

A locked write resolves its path, acquires a lease that is its own, copies, and gives the lease up
unless it was given up by force. `Scene.Phase` says how far it has come, and what is known of it
then: what the history has told (`passes`), in which stage its lease is, and who has given it up.

Every step of a scene leads from phase to phase (`Scene.Phase.steps`), if the write takes a lease
and nobody else is asked about that lease (`Scene.Undisputed`).
-/

namespace FileGateway

/-! ## The course of a write -/

/-- The task that an entry is about. -/
def Entry.task : Entry → TaskId
  | served i _ _ => i
  | resumed i _ _ => i

/-- What an entry tells of the write of a task. -/
def Entry.pass? (i : TaskId) : Entry → Option Write.Pass
  | resumed j t reply =>
    if j = i then t.write?.map fun write => ⟨write.1, write.2, reply⟩ else none
  | served _ _ _ => none

/-- What the history tells of the write of a task, the latest first. -/
def passes (i : TaskId) (history : List Entry) : List Write.Pass :=
  history.filterMap (Entry.pass? i)

section

variable {i j : TaskId} {t : Task} {reply : Reply} {history : List Entry}

theorem passes_served : passes i (.served j t reply :: history) = passes i history :=
  List.filterMap_cons_none rfl

theorem passes_resumed_other (h : j ≠ i) :
    passes i (.resumed j t reply :: history) = passes i history :=
  List.filterMap_cons_none (if_neg h)

theorem passes_resumed_unwritten (h : t.write? = none) :
    passes i (.resumed j t reply :: history) = passes i history := by
  refine List.filterMap_cons_none ?_
  rw [Entry.pass?, h]
  split <;> rfl

theorem passes_resumed {handle : HandleId} {target : Write.Target} {place : Write.Place} :
    passes i (.resumed i (.operating handle (.writing target place)) reply :: history) =
      ⟨target, place, reply⟩ :: passes i history :=
  List.filterMap_cons_some (if_pos rfl)

theorem passes_of_early (h : ∀ e ∈ history, e.task < i) : passes i history = [] := by
  refine List.filterMap_eq_nil_iff.2 fun e hmem => ?_
  cases e with
  | served j t reply => rfl
  | resumed j t reply => exact if_neg (Nat.ne_of_lt (h _ hmem))

end

/-! ## How a locked write begins -/

namespace Write

/-- A locked write begins with the acquisition of a new lease, or fails at once. -/
theorem start_locked {t : Target} (options : Options) {lock : LockConfig}
    (h : lock.scheme = .marker) (s : Shared) :
    (∃ error, (start t options lock s).1 = .done (.error error)) ∨
      ∃ a, (start t options lock s).1 = .paused (.locking a .resolving) ∧
        Begins s.leases t (.locking a .resolving) (start t options lock s).2.leases := by
  unfold start
  rw [h]
  cases hf : Lease.fresh t.file.path with
  | error e => exact .inl ⟨e, rfl⟩
  | ok lease =>
    right
    simp only
    rw [Acquire.start_fresh hf rfl]
    exact ⟨_, rfl, .locks t _ lease hf rfl rfl rfl⟩

end Write

namespace Task

/-- What becomes of a locked write when its path is resolved: it fails, or begins to acquire a
lease. -/
inductive Resolves (handle : HandleId) (leases : List Lease) : Task → List Lease → Prop where
  | failed (error : Error) (leases' : List Lease) :
    Resolves handle leases (.finished (.operated (.error error))) leases'
  | begun (t : Write.Target) (a : Acquire) (leases' : List Lease)
      (begins : Write.Begins leases t (.locking a .resolving) leases') :
    Resolves handle leases (.operating handle (.writing t (.locking a .resolving))) leases'

theorem resolves_resolved {handle : HandleId} {mode : WriteMode} (file : FileRef) {s : Shared}
    (hlocks : ∀ h, s.handle? handle = some h → (mode.lock.getD h.lock).scheme = .marker) :
    Resolves handle s.leases
      (ofOperation handle (Operation.resolved (.write mode) handle file s).1
        (Operation.resolved (.write mode) handle file s).2).1
      (ofOperation handle (Operation.resolved (.write mode) handle file s).1
        (Operation.resolved (.write mode) handle file s).2).2.leases := by
  unfold Operation.resolved
  cases hh : s.handle? handle with
  | none => exact .failed _ _
  | some h =>
    have hstart := Write.start_locked (t := ⟨h.backend, file, mode.append⟩) h.options
      (hlocks h hh) s
    simp only
    generalize Write.start ⟨h.backend, file, mode.append⟩ h.options (mode.lock.getD h.lock) s =
      started at hstart
    obtain ⟨step, s'⟩ := started
    rcases hstart with ⟨error, rfl⟩ | ⟨a, rfl, hbegins⟩
    · exact .failed _ _
    · exact .begun _ a _ hbegins

theorem resolves_locked {handle : HandleId} {mode : WriteMode} {r : Resolve} {s : Shared}
    {p : Pending (Shared → Task × Shared)}
    (hp : (operating handle (.resolving (.write mode) r)).next? s = some p)
    (hlocks : ∀ h, s.handle? handle = some h → (mode.lock.getD h.lock).scheme = .marker)
    (answer : p.request.Answer) :
    Resolves handle s.leases (p.resume answer s).1 (p.resume answer s).2.leases := by
  cases hp
  rcases answer with f | file
  · exact .failed _ _
  · -- the health of the connection is noted, which is no matter of its lock
    have hafter : ∀ h, (r.succeed file s).2.handle? handle = some h →
        (mode.lock.getD h.lock).scheme = .marker := by
      intro h hh
      have hmodified : (s.handle? handle).map _ = some h :=
        (Registry.handle?_modify s.registry r.handle _ handle).symm.trans hh
      obtain ⟨h', hh', rfl⟩ := Option.map_eq_some_iff.1 hmodified
      split <;> exact hlocks h' hh'
    exact resolves_resolved file hafter

end Task

namespace Scene

variable {ε : Type} {w : World ε} {c c' : Scene ε} {e : Event} {i k : TaskId} {id : LeaseId}
  {t : Write.Target} {marker : Path}

/-! ## What steps make of writes -/

/-- A write stays with its target and its lease; others begin. -/
theorem Steps.write? (h : Steps w c e c') {place' : Write.Place}
    (hk : c'.gateway.write? k = some (t, place')) :
    (∃ place, c.gateway.write? k = some (t, place) ∧ place'.lease? = place.lease?) ∨
      Write.Begins c.gateway.shared.leases t place' c'.gateway.shared.leases := by
  cases h with
  | nothing => exact .inl ⟨place', hk, rfl⟩
  | serves => exact .inl ⟨place', hk, rfl⟩
  | starts new g starts grows begins => exact .inl ⟨place', grows.write? ▸ hk, rfl⟩
  | resumes j task p answer htask pending inbox =>
    obtain ⟨task', q, htask', hq, -, rfl⟩ := Gateway.pending?_eq pending
    rw [htask] at htask'
    cases htask'
    simp only [Pending.map, Gateway.write?_set htask] at hk
    by_cases hj : k = j
    · subst hj
      rw [Function.update_self] at hk
      cases hw : task.write? with
      | none =>
        right
        rcases Task.begins_of_no_write hw hq answer with hnone | ⟨handle, _, _, heq, hbegins⟩
        · rw [hnone] at hk
          cases hk
        · rw [heq] at hk
          cases hk
          exact hbegins
      | some write =>
        left
        obtain ⟨target, place⟩ := write
        obtain ⟨handle, rfl⟩ := Task.eq_of_write? hw
        obtain ⟨step, s', hgoes, heq⟩ := Task.goes_of_write hq answer
        rw [heq, Task.write?_ofOperation] at hk
        cases step with
        | done result => cases hk
        | paused place'' =>
          cases hk
          exact ⟨place, Gateway.write?_eq htask, hgoes.lease⟩
    · rw [Function.update_of_ne hj] at hk
      exact .inl ⟨place', hk, rfl⟩

/-- The history is about tasks that there are, and the lease of every write was made. -/
structure Recorded (c : Scene ε) : Prop where
  tasks : ∀ e ∈ c.history, e.task < c.gateway.tasks.length
  leases : ∀ i t place id, c.gateway.write? i = some (t, place) → place.lease? = some id →
    ∃ l, c.gateway.shared.lease? id = some l

theorem recorded_start (writer : Diagnostics) (world : ε) : (start writer world).Recorded where
  tasks := fun e h => by cases h
  leases := fun i t place id h => by cases h

theorem Recorded.steps (h : c.Recorded) (hs : Steps w c e c') : c'.Recorded := by
  constructor
  · have hcons : ∀ {j : TaskId} {t : Task} {n : Nat} {entry : Entry}, c.gateway.task? j = some t →
        n = c.gateway.tasks.length → entry.task = j →
          ∀ e ∈ entry :: c.history, e.task < n := by
      rintro j t n entry ht rfl rfl e hmem
      rcases List.mem_cons.1 hmem with rfl | hmem
      · exact (List.getElem?_eq_some_iff.1 ht).1
      · exact h.tasks e hmem
    cases hs with
    | nothing => exact h.tasks
    | starts new g starts grows begins =>
      intro e hmem
      refine Nat.lt_of_lt_of_le (h.tasks e hmem) ?_
      rcases grows with htasks | ⟨t, htasks, -⟩
      · exact Nat.le_of_eq (by rw [htasks])
      · rw [htasks, List.length_append]
        exact Nat.le_add_right _ _
    | serves j t p task pending inbox => exact hcons task rfl rfl
    | resumes j t p answer task pending inbox =>
      obtain ⟨t₀, q, ht₀, hq, -, rfl⟩ := Gateway.pending?_eq pending
      exact hcons task (List.length_set ..) rfl
  · intro k t place id hw hid
    rcases hs.write? hw with ⟨place', hw', hlease⟩ | hbegins
    · obtain ⟨l, hl⟩ := h.leases k t place' id hw' (hlease ▸ hid)
      obtain ⟨l', hl', -⟩ := hs.retains id l hl
      exact ⟨l', hl'⟩
    · -- the lease of a write that begins has just been made
      rw [hbegins.lease hid]
      generalize hleases : c'.gateway.shared.leases = leases at hbegins
      cases hbegins with
      | locks a lease fresh number marker backend =>
        rw [Shared.lease?, hleases, List.getElem?_modify]
        simp
      | opens => cases hid

/-! ## How far a locked write has come -/

/-- What a locked write can be sure of: its lease is its own, and whoever gives it up other than by
force is the write itself, if it has begun to. -/
structure Owned (c : Scene ε) (i : TaskId) (t : Write.Target) (id : LeaseId) (marker : Path)
    (begun : Prop) : Prop where
  path : t.file.path.marker? = some marker
  made : ∃ l, c.gateway.shared.lease? id = some l ∧ l.marker = marker
  alone : ∀ k t' place, c.gateway.write? k = some (t', place) → place.lease? = some id → k = i
  course : ∀ p ∈ passes i c.history, p.target = t ∧ p.place.lease? = some id
  own : ∀ k, c.GivesUp id k false ↔ k = i ∧ begun

/-- How far a locked write has come. -/
inductive Phase (c : Scene ε) (i : TaskId) : Prop where
  | resolving (handle : HandleId) (mode : WriteMode) (r : Resolve)
      (task : c.gateway.task? i = some (.operating handle (.resolving (.write mode) r)))
      (early : passes i c.history = [])
  | failed (error : Error) (result : c.gateway.result? i = some (.operated (.error error)))
      (early : passes i c.history = [])
  | writing (t : Write.Target) (place : Write.Place) (id : LeaseId) (marker : Path)
      (write : c.gateway.write? i = some (t, place)) (lease : place.lease? = some id)
      (owned : c.Owned i t id marker (place.isUnlocking = true))
      (tells : place.Tells marker (passes i c.history))
      (stage : ∀ p, place = .copying (some id) p → c.gateway.shared.stage? id = some .active ∨
        c.gateway.shared.stage? id = some .released)
  | returned (t : Write.Target) (id : LeaseId) (marker : Path) (result : Except Error Nat)
      (ended : c.gateway.result? i = some (.operated (result.map .copied)))
      (known : passes i c.history ≠ [])
      (owned : c.Owned i t id marker (Write.removals (passes i c.history) ≠ []))
      (told : Write.Explained t marker (passes i c.history) result)
      (acquired : Write.HasAcquired (passes i c.history) →
        c.gateway.shared.stage? id = some .released)
      (refused : ¬ Write.HasAcquired (passes i c.history) →
        c.gateway.shared.stage? id = some .idle)

/-- The leases that a write has had. -/
def leasesOf (c : Scene ε) (i : TaskId) : List LeaseId :=
  ((c.gateway.write? i).bind fun write => write.2.lease?).toList ++
    (passes i c.history).filterMap fun p => p.place.lease?

/-- Whether a write that resolves its path will take a lease. -/
def Locks (c : Scene ε) (i : TaskId) : Bool :=
  match c.gateway.task? i with
  | some (.operating handle (.resolving (.write mode) _)) =>
    ((c.gateway.shared.handle? handle).map fun h =>
      decide ((mode.lock.getD h.lock).scheme = .marker)).getD true
  | _ => true

/-- As long as these things happen, a write takes a lease, and nobody is asked to acquire or release
a lease of that write. -/
def Undisputed (w : World ε) (i : TaskId) : Scene ε → List Event → Prop
  | _, [] => True
  | c, e :: rest => c.Locks i = true ∧ (∀ id ∈ c.leasesOf i, e.lease? ≠ some id) ∧
    Undisputed w i (c.step w e) rest

instance decidableUndisputed (w : World ε) (i : TaskId) :
    (c : Scene ε) → (events : List Event) → Decidable (Undisputed w i c events)
  | _, [] => isTrue trivial
  | c, e :: rest =>
    have := decidableUndisputed w i (c.step w e) rest
    inferInstanceAs (Decidable (_ ∧ _ ∧ _))

/-- No other write gets the lease of a write. -/
theorem Owned.alone_steps {begun : Prop} (h : c.Owned i t id marker begun) (hs : Steps w c e c') :
    ∀ k t' place, c'.gateway.write? k = some (t', place) → place.lease? = some id → k = i := by
  intro k t' place hw hid
  rcases hs.write? hw with ⟨place', hw', hlease⟩ | hbegins
  · exact h.alone k t' place' hw' (hlease ▸ hid)
  · obtain ⟨l, hl, -⟩ := h.made
    rw [hbegins.lease hid] at hl
    simp [Shared.lease?] at hl

theorem Owned.made_steps {begun : Prop} (h : c.Owned i t id marker begun) (hs : Steps w c e c') :
    ∃ l, c'.gateway.shared.lease? id = some l ∧ l.marker = marker := by
  obtain ⟨l, hl, hmarker⟩ := h.made
  obtain ⟨l', hl', -, hsame⟩ := hs.retains id l hl
  exact ⟨l', hl', hsame.trans hmarker⟩

/-- What a write is sure of stands unless the write goes on itself. -/
theorem Owned.still {begun : Prop} (h : c.Owned i t id marker begun) (hs : Steps w c e c')
    (he : e.lease? ≠ some id) (hpasses : passes i c'.history = passes i c.history) :
    c'.Owned i t id marker begun where
  path := h.path
  made := h.made_steps hs
  alone := h.alone_steps hs
  course := by
    rw [hpasses]
    exact h.course
  own := by
    intro k
    rw [hs.givesUp, h.own k]
    refine or_iff_left_of_imp ?_
    rintro ⟨-, hparts⟩
    cases hparts with
    | asked asked => exact absurd asked he
    | copied t' reply target place task resumed copying =>
      -- only the write itself could have copied under the lease
      have hki : k = i := h.alone k target _ (Gateway.write?_eq task ▸ copying) rfl
      subst hki
      obtain ⟨handle, rfl⟩ := Task.eq_of_write? copying
      rw [resumed, passes_resumed] at hpasses
      exact absurd hpasses (List.cons_ne_self _ _)

theorem mem_leasesOf_write {place : Write.Place} (hw : c.gateway.write? i = some (t, place))
    (hid : place.lease? = some id) : id ∈ c.leasesOf i := by
  refine List.mem_append_left _ ?_
  rw [hw, Option.bind_some, hid]
  exact List.mem_singleton_self id

theorem Owned.mem_leasesOf {begun : Prop} (h : c.Owned i t id marker begun)
    (hpasses : passes i c.history ≠ []) : id ∈ c.leasesOf i := by
  obtain ⟨p, hp⟩ := List.exists_mem_of_ne_nil _ hpasses
  exact List.mem_append_right _ (List.mem_filterMap.2 ⟨p, hp, (h.course p hp).2⟩)

/-- A write stays where it is unless it goes on itself. -/
theorem Phase.still (h : c.Phase i) (hs : Steps w c e c') (ho : c.InOrder)
    (he : ∀ id ∈ c.leasesOf i, e.lease? ≠ some id)
    (htask : c'.gateway.task? i = c.gateway.task? i)
    (hpasses : passes i c'.history = passes i c.history) : c'.Phase i := by
  have hresult : ∀ {r}, c.gateway.result? i = some r → c'.gateway.result? i = some r := by
    intro r hr
    rw [Gateway.result?_eq] at hr ⊢
    exact htask.trans hr
  cases h with
  | resolving handle mode r task early =>
    exact .resolving handle mode r (htask.trans task) (hpasses.trans early)
  | failed error result early => exact .failed error (hresult result) (hpasses.trans early)
  | writing t place id marker write lease owned tells stage =>
    refine .writing t place id marker ?_ lease
      (owned.still hs (he id (mem_leasesOf_write write lease)) hpasses) ?_ ?_
    · rw [Gateway.write?, htask]
      exact write
    · rw [hpasses]
      exact tells
    · intro p hp
      exact hs.late ho (stage p hp)
  | returned t id marker result ended known owned told acquired refused =>
    have hasked := he id (owned.mem_leasesOf known)
    rw [← hpasses] at known told acquired refused
    refine .returned t id marker result (hresult ended) known ?_ told ?_ ?_
    · rw [hpasses]
      exact owned.still hs hasked hpasses
    · intro h
      exact hs.released ho (acquired h)
    · intro h
      exact hs.idle ho (refused h) hasked

section

variable {handle : HandleId} {place : Write.Place} {reply : Reply}
  {step : Step Write.Place (Except Error Nat)} {s : Shared}

/-- Whoever gives the lease of a write up when the write goes on is the write itself, which has
begun to before or begins to now. -/
theorem Owned.own_goes (h : c.Owned i t id marker (place.isUnlocking = true)) (hs : Steps w c e c')
    (he : e.lease? ≠ some id)
    (task : c.gateway.task? i = some (.operating handle (.writing t place)))
    (move : Write.Goes c.gateway.shared.writer t c.gateway.shared place reply step s)
    (lease : place.lease? = some id)
    (hleaseOp : c'.gateway.leaseOps i = step.place?.bind Write.Place.leaseOp?)
    (hhistory : c'.history = .resumed i (.operating handle (.writing t place)) reply :: c.history) :
    ∀ k, c'.GivesUp id k false ↔
      k = i ∧ (place.isUnlocking = true ∨
        ∃ place', step = .paused place' ∧ place'.isUnlocking = true) := by
  intro k
  rw [hs.givesUp, h.own k]
  constructor
  · rintro (⟨rfl, hunlocking⟩ | ⟨⟨q, hq⟩, hparts⟩)
    · exact ⟨rfl, .inl hunlocking⟩
    · cases hparts with
      | asked asked => exact absurd asked he
      | copied t' reply' target p' task' resumed copying =>
        rw [hhistory] at resumed
        cases resumed
        refine ⟨rfl, .inr ?_⟩
        rw [hleaseOp] at hq
        cases step with
        | done result => cases hq
        | paused place' => exact ⟨place', rfl, Write.Place.unlocking_of_leaseOp hq⟩
  · rintro ⟨rfl, hbefore | ⟨place', rfl, hunlocking⟩⟩
    · exact .inl ⟨rfl, hbefore⟩
    · cases move with
      | unlocks n l p reply result move found active =>
        cases lease
        exact .inr ⟨⟨_, hleaseOp⟩, .copied _ reply t p task hhistory rfl⟩
      | unlocking n path p p' result reply s' move => exact .inl ⟨rfl, rfl⟩
      | _ => cases hunlocking

/-- A write that goes on comes to its next place, or returns. -/
theorem Phase.goes (hs : Steps w c e c') (ho : c.InOrder) (he : e.lease? ≠ some id)
    (task : c.gateway.task? i = some (.operating handle (.writing t place)))
    (move : Write.Goes c.gateway.shared.writer t c.gateway.shared place reply step s)
    (htask : c'.gateway.task? i = some (Task.ofOperation handle (Operation.writeStep t step) s).1)
    (hleases : c'.gateway.shared.leases = s.leases)
    (hhistory : c'.history = .resumed i (.operating handle (.writing t place)) reply :: c.history)
    (lease : place.lease? = some id) (owned : c.Owned i t id marker (place.isUnlocking = true))
    (tells : place.Tells marker (passes i c.history))
    (stage : ∀ p, place = .copying (some id) p → c.gateway.shared.stage? id = some .active ∨
      c.gateway.shared.stage? id = some .released) : c'.Phase i := by
  have hpasses : passes i c'.history = ⟨t, place, reply⟩ :: passes i c.history := by
    rw [hhistory, passes_resumed]
  have hcourse : ∀ p ∈ passes i c'.history, p.target = t ∧ p.place.lease? = some id := by
    rw [hpasses]
    exact List.forall_mem_cons.2 ⟨⟨rfl, lease⟩, owned.course⟩
  have hwrite : c.gateway.write? i = some (t, place) := Gateway.write?_eq task
  have hleaseOp : c'.gateway.leaseOps i = step.place?.bind Write.Place.leaseOp? := by
    rw [Gateway.leaseOps_eq htask, Task.leaseOp?_ofOperation, Operation.leaseOp?_writeStep]
  have hown := owned.own_goes hs he task move lease hleaseOp hhistory
  -- whoever gives a lease up finds what it holds
  have hheld : ∀ r, place.leaseOp? = some (.surrender r .taking) →
      (c.gateway.shared.lease? r.lease).bind Lease.held ≠ none := by
    intro r hr
    obtain ⟨l, hl, hfits⟩ := ho.leases.fits i _ ((Gateway.leaseOps_of_write hwrite).trans hr)
    have hfound : c.gateway.shared.lease? r.lease = some l := hl
    rw [hfound]
    exact hfits.2
  have htold := move.tells tells (fun n l hn hl => by
    obtain ⟨l', hl', hmarker⟩ := owned.made
    rw [lease] at hn
    cases hn
    rw [hl] at hl'
    cases hl'
    exact hmarker) hheld
  rw [← hpasses] at htold
  cases step with
  | paused place' =>
    refine .writing t place' id marker (Gateway.write?_eq htask) (move.lease.trans lease)
      ⟨owned.path, owned.made_steps hs, owned.alone_steps hs, hcourse, fun k => ?_⟩ htold ?_
    · rw [hown k]
      refine and_congr_right fun _ => ⟨?_, fun h => .inr ⟨place', rfl, h⟩⟩
      rintro (hbefore | ⟨_, heq, h⟩)
      · exact move.still_unlocking hbefore
      · cases heq
        exact h
    · rintro p rfl
      refine hs.late ho ?_
      cases move with
      | locked a s' move =>
        -- only the timer was to be started
        obtain ⟨l, hl, hfits⟩ := ho.leases.fits i _ (Gateway.leaseOps_of_write hwrite)
        have hfound : c.gateway.shared.lease? a.lease = some l := hl
        rw [Shared.stage?, hfound]
        exact hfits.imp (congrArg some) (congrArg some)
      | copies n p₀ p' reply move => exact stage p₀ (congrArg (Write.Place.copying · p₀) lease)
  | done result =>
    have hremoves := move.removes tells hheld
    rw [← hpasses] at hremoves
    refine .returned t id marker result (Gateway.result?_eq.2 htask) ?_
      ⟨owned.path, owned.made_steps hs, owned.alone_steps hs, hcourse, fun k => ?_⟩ htold ?_ ?_
    · rw [hpasses]
      exact List.cons_ne_nil _ _
    · rw [hown k, hremoves]
      refine and_congr_right fun _ => or_iff_left ?_
      rintro ⟨_, heq, -⟩
      cases heq
    · intro hacquired
      rw [hpasses, Write.hasAcquired_cons] at hacquired
      refine hs.released ho ?_
      cases move.ends lease with
      | refused a error leases =>
        obtain ⟨-, hnot, -⟩ := tells
        rcases hacquired with hnow | hbefore
        · cases hnow
        · exact absurd hbefore hnot
      | lost p gone =>
        -- a lease that was lost is released, since it was acquired
        refine (stage p rfl).resolve_left fun hactive => ?_
        obtain ⟨l, hl, hstate⟩ := Option.map_eq_some_iff.1 hactive
        exact gone l hl hstate
      | unlocked path p copied =>
        obtain ⟨l, hl, hfits⟩ := ho.leases.fits i _ (Gateway.leaseOps_of_write hwrite)
        have hfound : c.gateway.shared.lease? id = some l := hl
        rw [Shared.stage?, hfound]
        exact congrArg some hfits.released
    · intro hrefused
      rw [hpasses, Write.hasAcquired_cons] at hrefused
      cases move.ends lease with
      | refused a error leases =>
        obtain ⟨l, hl, -⟩ := owned.made
        have hsame : c'.gateway.shared.stage? id = (c.gateway.shared.modifyLease id
            fun l => { l with state := .idle }).stage? id := by
          rw [Shared.stage?, Shared.lease?, hleases, leases]
          rfl
        rw [hsame, Shared.stage?_modifyLease hl, if_pos rfl]
      | lost p gone => exact absurd (.inr tells.1) hrefused
      | unlocked path p copied => exact absurd (.inr tells.2.1) hrefused

end

/-- A write whose path is resolved fails, or begins to acquire a lease that is its own. -/
theorem Phase.resolves {handle : HandleId} {t' : Task} (hr : c.Recorded) (hp : c'.SurrenderedOnce)
    (resolved : Task.Resolves handle c.gateway.shared.leases t' c'.gateway.shared.leases)
    (htask : c'.gateway.task? i = some t')
    (hothers : ∀ k, k ≠ i → c'.gateway.write? k = c.gateway.write? k)
    (early : passes i c'.history = []) : c'.Phase i := by
  generalize hleases : c'.gateway.shared.leases = leases at resolved
  cases resolved with
  | failed error => exact .failed error (Gateway.result?_eq.2 htask) early
  | begun t a leases begins =>
    cases begins with
    | locks a lease fresh number marker backend =>
      have hfound : c'.gateway.shared.lease? a.lease = some { lease with state := .acquiring } := by
        rw [Shared.lease?, hleases, number, List.getElem?_modify]
        simp
      have hwrite : c'.gateway.write? i = some (t, .locking a .resolving) := Gateway.write?_eq htask
      refine .writing t _ a.lease a.marker hwrite rfl
        ⟨?_, ⟨_, hfound, marker.symm⟩, ?_, ?_, ?_⟩ ?_ ?_
      · rw [marker]
        exact Lease.marker?_of_fresh fresh
      · intro k t' place hw hid
        by_contra hki
        rw [hothers k hki] at hw
        obtain ⟨l, hl⟩ := hr.leases k t' place _ hw hid
        rw [number] at hl
        simp [Shared.lease?] at hl
      · rw [early]
        exact fun p hp => by cases hp
      · -- nobody has given up a lease that is still to be acquired
        refine fun k => iff_of_false (fun hgives => ?_) fun h => by cases h.2
        have hreleased := (hp.released a.lease).2 ⟨k, false, hgives⟩
        rw [Shared.stage?, hfound] at hreleased
        cases hreleased
      · rw [early]
        refine ⟨rfl, ?_, rfl, rfl, rfl⟩
        rintro ⟨p, hp, -⟩
        cases hp
      · exact fun p h => by cases h

theorem Phase.task (h : c.Phase i) : ∃ t, c.gateway.task? i = some t := by
  cases h with
  | resolving handle mode r task early => exact ⟨_, task⟩
  | failed error result early => exact ⟨_, Gateway.result?_eq.1 result⟩
  | writing t place id marker write lease owned tells stage =>
    obtain ⟨handle, task⟩ := Gateway.write?_task write
    exact ⟨_, task⟩
  | returned t id marker result ended known owned told acquired refused =>
    exact ⟨_, Gateway.result?_eq.1 ended⟩

/-- Every step of a scene leads from phase to phase. -/
theorem Phase.steps (h : c.Phase i) (hs : Steps w c e c') (ho : c.InOrder) (hr : c.Recorded)
    (hp : c'.SurrenderedOnce) (hlocks : c.Locks i = true)
    (he : ∀ id ∈ c.leasesOf i, e.lease? ≠ some id) :
    c'.Phase i := by
  have hsteps := hs
  cases hs with
  | nothing => exact h
  | starts new g starts grows begins =>
    obtain ⟨t, ht⟩ := h.task
    exact h.still hsteps ho he ((grows.task ht).trans ht.symm) rfl
  | serves j t p task pending inbox => exact h.still hsteps ho he rfl passes_served
  | resumes j t p answer task pending inbox =>
    obtain ⟨t₀, q, ht₀, hq, -, rfl⟩ := Gateway.pending?_eq pending
    rw [task] at ht₀
    cases ht₀
    by_cases hji : j = i
    · subst hji
      have htask : Gateway.task? ⟨(q.resume answer c.gateway.shared).2,
          c.gateway.tasks.set j (q.resume answer c.gateway.shared).1⟩ j =
            some (q.resume answer c.gateway.shared).1 := by
        rw [Gateway.task?_set task, Function.update_self]
      cases h with
      | resolving handle mode r task' early =>
        rw [task] at task'
        cases task'
        have hlock : ∀ h, c.gateway.shared.handle? handle = some h →
            (mode.lock.getD h.lock).scheme = .marker := by
          intro h hh
          simpa [Locks, task, hh] using hlocks
        refine .resolves hr hp (Task.resolves_locked hq hlock answer) htask (fun k hk => ?_)
          ((passes_resumed_unwritten rfl).trans early)
        simp only [Pending.map, Gateway.write?_set task]
        exact Function.update_of_ne hk _ _
      | failed error result early =>
        rw [Gateway.result?_eq, task] at result
        cases result
        cases hq
      | writing t place id marker write lease owned tells stage =>
        obtain ⟨handle, task'⟩ := Gateway.write?_task write
        rw [task] at task'
        cases task'
        obtain ⟨step, s, move, heq⟩ := Task.goes_of_write hq answer
        refine .goes hsteps ho (he id (mem_leasesOf_write write lease)) task move
          (htask.trans (by rw [heq])) ?_ rfl lease owned tells stage
        simp only [Pending.map]
        rw [heq]
        exact (Task.agrees_ofOperation handle _ s).leases
      | returned t id marker result ended known owned told acquired refused =>
        rw [Gateway.result?_eq, task] at ended
        cases ended
        cases hq
    · refine h.still hsteps ho he ?_ (passes_resumed_other hji)
      simp only [Pending.map, Gateway.task?_set task]
      exact Function.update_of_ne (Ne.symm hji) _ _

end Scene

end FileGateway

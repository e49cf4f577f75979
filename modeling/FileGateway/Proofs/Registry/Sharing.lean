import FileGateway.Proofs.Gateway.Calls
import FileGateway.Proofs.Gateway.Lasting
import FileGateway.Proofs.Registry.RegistryUse

/-!
# Shared options

All operations on a connection share the options of its handle, and whoever holds a handle may
change them. What a handle keeps besides is only whether its options were found to differ from the
configured ones when they were last changed, and it is by this that options are put back or not.

`Sharing.Kept` says what this is good for: whether options differ is always known, so they are put
back whenever they do, and no operation leaves changed options behind, whatever it ends with.
`Sharing.restored_run` is about every gateway in use: handles are changed and put back by anybody at
any time, they come and go, operations overlap, and every one is answered as it happens.
-/

namespace FileGateway

/-! ## Handles -/

namespace Handle

/-- Whether the options differ from the configured ones is known. -/
def Exact (h : Handle) : Prop :=
  h.modified = true ↔ h.options ≠ h.defaults

/-- A handle as it may be brought in: it was built, and may have been used since; its options were
changed or put back, and paths were resolved on it. -/
inductive Made : Handle → Prop where
  | fresh (key : ConnectionKey) (backend : Backend) (baseDir : Path) (options : Options)
    (suspension : SuspensionConfig) (lock : LockConfig) :
    Made (.fresh key backend baseDir options suspension lock)
  | adjust {h : Handle} (update : Options → Options) (made : Made h) : Made (h.adjust update)
  | reset {h : Handle} (made : Made h) : Made h.reset.2
  | resolve {h : Handle} (policy : SuspensionPolicy) (made : Made h) :
    Made { h with policy := policy }

variable {h : Handle}

theorem exact_adjust (h : Handle) (update : Options → Options) : (h.adjust update).Exact := by
  simp [Exact, adjust]

theorem exact_reset (hx : h.Exact) : h.reset.2.Exact := by
  unfold reset
  split
  · simp [Exact]
  · exact hx

theorem Made.exact (hm : h.Made) : h.Exact := by
  induction hm with
  | fresh => simp [Exact, Handle.fresh]
  | adjust update _ _ => exact exact_adjust _ update
  | reset _ ih => exact exact_reset ih
  | resolve policy _ ih => exact ih

@[simp] theorem defaults_reset (h : Handle) : h.reset.2.defaults = h.defaults := by
  unfold reset
  split <;> rfl

@[simp] theorem modified_reset (h : Handle) : h.reset.2.modified = false := by
  unfold reset
  split
  · rfl
  · next hclean => exact Bool.eq_false_iff.2 hclean

/-- Options are put back if and only if they differ. -/
theorem reset_fst (hx : h.Exact) : h.reset.1 = true ↔ h.options ≠ h.defaults := by
  refine Iff.trans ?_ hx
  unfold reset
  split
  · next hmodified => simp [hmodified]
  · next hclean => simp [hclean]

theorem options_reset (hx : h.Exact) : h.reset.2.options = h.defaults := by
  unfold reset
  split
  · rfl
  · next hclean => exact not_not.1 fun hdiffers => hclean (hx.2 hdiffers)

end Handle

/-! ## Registries -/

namespace Registry

/-- What a change of a registry leaves as it is: every handle keeps its number and what it is
configured with, and none that was exact is so no more. -/
structure Keeps (r r' : Registry) : Prop where
  handles : ∀ id h, r.handle? id = some h → ∃ h', r'.handle? id = some h' ∧ h'.defaults = h.defaults
  exact : (∀ id h, r.handle? id = some h → h.Exact) → ∀ id h, r'.handle? id = some h → h.Exact
  table : (∀ entry ∈ r.table, ∃ h, r.handle? entry.2 = some h) →
    ∀ entry ∈ r'.table, ∃ h, r'.handle? entry.2 = some h

variable {r r' r'' : Registry} {id : HandleId} {h : Handle} {change : Handle → Handle}

theorem handle?_modify (r : Registry) (id : HandleId) (change : Handle → Handle) (i : HandleId) :
    (r.modify id change).handle? i = (r.handle? i).map (if id = i then change else fun h => h) := by
  rw [handle?, handle?, modify, List.getElem?_modify]
  split <;> simp

namespace Keeps

theorem refl (r : Registry) : Keeps r r :=
  ⟨fun _ h hh => ⟨h, hh, rfl⟩, fun hx => hx, fun ht => ht⟩

theorem trans (hr : Keeps r r') (hr' : Keeps r' r'') : Keeps r r'' := by
  constructor
  · intro id h hh
    obtain ⟨h', hh', hdefaults⟩ := hr.handles id h hh
    obtain ⟨h'', hh'', hdefaults'⟩ := hr'.handles id h' hh'
    exact ⟨h'', hh'', hdefaults'.trans hdefaults⟩
  · exact fun hx => hr'.exact (hr.exact hx)
  · exact fun ht => hr'.table (hr.table ht)

theorem modify (r : Registry) (id : HandleId) (hexact : ∀ h, h.Exact → (change h).Exact)
    (hdefaults : ∀ h, (change h).defaults = h.defaults) : Keeps r (r.modify id change) := by
  have hhandles : ∀ i h, r.handle? i = some h → ∃ h', (r.modify id change).handle? i = some h' ∧
      h'.defaults = h.defaults := by
    intro i h hh
    rw [handle?_modify, hh]
    refine ⟨_, rfl, ?_⟩
    split
    · exact hdefaults h
    · rfl
  constructor
  · exact hhandles
  · intro hx i h' hh'
    rw [handle?_modify] at hh'
    obtain ⟨h, hh, rfl⟩ := Option.map_eq_some_iff.1 hh'
    split
    · exact hexact h (hx i h hh)
    · exact hx i h hh
  · intro ht entry hentry
    obtain ⟨h, hh⟩ := ht entry hentry
    obtain ⟨h', hh', -⟩ := hhandles _ h hh
    exact ⟨h', hh'⟩

theorem giveBack (r : Registry) (id : HandleId) : Keeps r (r.giveBack id) :=
  modify r id (fun _ => Handle.exact_reset) Handle.defaults_reset

/-- A handle is built, and may be registered. -/
theorem build (r : Registry) (hm : h.Made) (key : ConnectionKey) :
    Keeps r (r.build h).2 ∧ Keeps r ((r.build h).2.enter key r.built.length) := by
  have hnew : (r.build h).2.handle? r.built.length = some h := by
    simp [Registry.build, handle?]
  have hold : ∀ i h', r.handle? i = some h' → (r.build h).2.handle? i = some h' := by
    intro i h' hh'
    have hlt : i < r.built.length := (List.getElem?_eq_some_iff.1 hh').1
    exact (List.getElem?_append_left hlt).trans hh'
  have hhandles : ∀ i h', r.handle? i = some h' → ∃ h'', (r.build h).2.handle? i = some h'' ∧
      h''.defaults = h'.defaults := fun i h' hh' => ⟨h', hold i h' hh', rfl⟩
  have hexact : (∀ i h', r.handle? i = some h' → h'.Exact) →
      ∀ i h', (r.build h).2.handle? i = some h' → h'.Exact := by
    intro hx i h' hh'
    have hmem : h' ∈ r.built ++ [h] := List.mem_of_getElem? hh'
    rcases List.mem_append.1 hmem with hmem | hmem
    · obtain ⟨j, hj⟩ := List.mem_iff_getElem?.1 hmem
      exact hx j h' hj
    · rw [List.mem_singleton.1 hmem]
      exact hm.exact
  have htable : (∀ entry ∈ r.table, ∃ h', r.handle? entry.2 = some h') →
      ∀ entry ∈ r.table, ∃ h', (r.build h).2.handle? entry.2 = some h' := by
    intro ht entry hentry
    obtain ⟨h', hh'⟩ := ht entry hentry
    exact ⟨h', hold _ h' hh'⟩
  refine ⟨⟨hhandles, hexact, htable⟩, ⟨hhandles, hexact, fun ht entry hentry => ?_⟩⟩
  rcases List.mem_append.1 hentry with hentry | hentry
  · exact htable ht entry hentry
  · rw [List.mem_singleton.1 hentry]
    exact ⟨h, hnew⟩

theorem add (r : Registry) (hm : h.Made) : Keeps r (r.add h).registry := by
  cases hl : r.lookup? h.key with
  | some id =>
    simp only [Registry.add, hl]
    exact (build r hm h.key).1
  | none =>
    simp only [Registry.add, hl]
    exact (build r hm h.key).2

theorem provide (r : Registry) (key : ConnectionKey) {make : Unit → Except Error Handle}
    (hmake : ∀ h, make () = .ok h → h.Made) : Keeps r (r.provide key make).registry := by
  unfold Registry.provide
  split
  · exact refl r
  · split
    · exact refl r
    · next h hh =>
      have hbuild := build r (hmake h hh) key
      simp only
      split
      · exact hbuild.2
      · exact hbuild.1

theorem evict (r : Registry) (space : String) : Keeps r (r.evict space).2 := by
  refine ⟨fun _ h hh => ⟨h, hh, rfl⟩, fun hx => hx, fun ht entry hentry => ht entry ?_⟩
  rw [Registry.evict, List.partition_eq_filter_filter] at hentry
  exact (List.mem_filter.1 hentry).1

end Keeps

/-- A handle as it is built from a configuration. -/
theorem made_connect {config : ConnectionConfig} {factories : Factories}
    (h' : FileGateway.connect config factories = .ok h) : h.Made := by
  unfold FileGateway.connect at h'
  split at h'
  · cases h'
  · split at h'
    · cases h'
    · split at h'
      · cases h'
      · cases h'
        exact .fresh ..

theorem Keeps.checkout (r : Registry) (d : Deployment) (key : ConnectionKey) :
    Keeps r (d.provide r key).registry := by
  unfold Deployment.provide
  split
  · exact .refl r
  · split
    · exact .refl r
    · exact .provide r _ fun h hh => made_connect hh

/-- Whoever asks for a handle can find what is given. -/
theorem handle?_provide (ht : ∀ entry ∈ r.table, ∃ h, r.handle? entry.2 = some h)
    {key : ConnectionKey} {make : Unit → Except Error Handle}
    (hid : (r.provide key make).handle = .ok id) :
    ∃ h, (r.provide key make).registry.handle? id = some h := by
  unfold Registry.provide at hid ⊢
  cases hl : r.lookup? key with
  | some found =>
    rw [hl] at hid
    cases hid
    exact ht (key, id) (RegistryUse.mem_of_lookup_eq_some hl)
  | none =>
    cases hm : make () with
    | error e =>
      simp only [hl, hm] at hid
      cases hid
    | ok h =>
      simp only [hl, hm] at hid ⊢
      split at hid
      · next hkey =>
        cases hid
        rw [if_pos hkey]
        exact ⟨h, by simp [Registry.build, enter, handle?]⟩
      · cases hid

theorem handle?_checkout (ht : ∀ entry ∈ r.table, ∃ h, r.handle? entry.2 = some h)
    {d : Deployment} {key : ConnectionKey} (hid : (d.provide r key).handle = .ok id) :
    ∃ h, (d.provide r key).registry.handle? id = some h := by
  unfold Deployment.provide at hid ⊢
  cases hl : r.lookup? key with
  | some found =>
    rw [hl] at hid
    cases hid
    exact ht (key, id) (RegistryUse.mem_of_lookup_eq_some hl)
  | none =>
    cases hf : d.file.find? key with
    | none =>
      simp only [hl, hf] at hid
      cases hid
    | some config =>
      simp only [hl, hf] at hid ⊢
      exact handle?_provide ht hid

end Registry

/-! ## Tasks -/

open Registry (Keeps)

/-- What tells of leases, timers and guards shows nothing of handles. -/
theorem Shared.detached_registry : Shared.Detached Shared.registry :=
  ⟨fun _ _ => rfl, fun _ _ => rfl, fun _ _ => rfl⟩

section

variable {s : Shared} {id : HandleId}

theorem Registry.Keeps.of_eq {r r' : Registry} (h : r' = r) : Keeps r r' :=
  h ▸ .refl r

/-- A resolve records only how it has ended. -/
theorem keeps_resolve_next (r : Resolve) (answer : r.next.request.Answer) (s : Shared) :
    Keeps s.registry (r.next.resume answer s).2.registry := by
  rcases answer with f | file
  · exact .modify _ _ (fun _ hx => hx) fun _ => rfl
  · exact .modify _ _ (fun _ hx => hx) fun _ => rfl

theorem registry_resolved (action : Action) (id : HandleId) (file : FileRef) (s : Shared) :
    (Operation.resolved action id file s).2.registry = s.registry := by
  unfold Operation.resolved
  cases s.handle? id with
  | none => rfl
  | some handle =>
    cases action with
    | write mode => exact Shared.detached_registry.write_start _ _ _ s
    | _ => rfl

theorem registry_resolveStep (action : Action) (id : HandleId)
    (step : Step Resolve (Except Error FileRef)) (s : Shared) :
    (Operation.resolveStep action id step s).2.registry = s.registry := by
  rcases step with resolve | (e | file)
  · rfl
  · rfl
  · exact registry_resolved action id file s

theorem registry_operation_start (action : Action) (id : HandleId) (path : Path) (s : Shared) :
    (Operation.start action id path s).2.registry = s.registry :=
  (registry_resolveStep action id _ _).trans
    (congrArg Shared.registry (Shared.Lasting.resolve_start id path s))

theorem keeps_operation_next (id : HandleId) (writer : Diagnostics) (place : Operation.Place)
    (answer : (Operation.next id writer place).request.Answer) (s : Shared) :
    Keeps s.registry ((Operation.next id writer place).resume answer s).2.registry := by
  cases place with
  | resolving action resolve =>
    exact (keeps_resolve_next resolve answer s).trans (.of_eq (registry_resolveStep action id _ _))
  | writing t place => exact .of_eq (Shared.detached_registry.write_next t writer place answer s)
  | _ => exact .refl _

/-- An operation that goes on stays with its handle, and one that ends gives it back. -/
structure Lends (id : HandleId) (s : Shared) (t : Task) (s' : Shared) : Prop where
  keeps : Keeps s.registry s'.registry
  stays : ∀ id' place, t = .operating id' place → id' = id
  ended : ∀ result, t = .finished result → ∃ r, Keeps s.registry r ∧ s'.registry = r.giveBack id

theorem lends_ofOperation (id : HandleId) (step : Step Operation.Place (Except Error Effect))
    {s s' : Shared} (h : Keeps s.registry s'.registry) :
    Lends id s (Task.ofOperation id step s').1 (Task.ofOperation id step s').2 := by
  cases step with
  | paused place =>
    refine ⟨h, fun id' place' heq => ?_, fun result heq => ?_⟩
    · cases heq
      rfl
    · cases heq
  | done result =>
    refine ⟨h.trans (.giveBack _ id), fun id' place heq => ?_, fun _ _ => ⟨_, h, rfl⟩⟩
    cases heq

theorem lends_start (action : Action) (id : HandleId) (path : Path) (s : Shared) :
    Lends id s
      (Task.ofOperation id (Operation.start action id path s).1
        (Operation.start action id path s).2).1
      (Task.ofOperation id (Operation.start action id path s).1
        (Operation.start action id path s).2).2 :=
  lends_ofOperation id _ (.of_eq (registry_operation_start action id path s))

/-- Whatever an operation is answered. -/
theorem lends_operating {place : Operation.Place} {s₀ : Shared}
    {p : Pending (Shared → Task × Shared)} (hp : (Task.operating id place).next? s₀ = some p)
    (answer : p.request.Answer) (s : Shared) :
    Lends id s (p.resume answer s).1 (p.resume answer s).2 := by
  cases hp
  exact lends_ofOperation id _ (keeps_operation_next id _ place answer s)

theorem ofEvicted_ne_operating (count : Nat) (ids : List HandleId) (id : HandleId)
    (place : Operation.Place) : Task.ofEvicted count ids ≠ .operating id place := by
  intro heq
  cases ids <;> cases heq

/-- A task that is no operation does nothing to handles, and does not become an operation. -/
theorem keeps_next? {t : Task} (ht : ∀ id place, t ≠ .operating id place) {s₀ : Shared}
    {p : Pending (Shared → Task × Shared)} (hp : t.next? s₀ = some p) (answer : p.request.Answer)
    (s : Shared) :
    Keeps s.registry (p.resume answer s).2.registry ∧
      ∀ id place, (p.resume answer s).1 ≠ .operating id place := by
  have hstep : ∀ {π ρ : Type} {place : π → Task} {result : ρ → TaskResult} (step : Step π ρ),
      (∀ q id place', place q ≠ .operating id place') →
        ∀ id place', Task.ofStep place result step ≠ .operating id place' := by
    intro π ρ place result step hplace
    cases step with
    | paused q => exact hplace q
    | done r => exact fun id place' heq => by cases heq
  have hregistry := Shared.detached_registry
  cases t with
  | acquiring a place =>
    cases hp
    refine ⟨.of_eq (hregistry.acquire_next a _ place answer s), hstep _ fun q id place' heq => ?_⟩
    cases heq
  | releasing lease marker strict place =>
    cases hp
    refine ⟨.of_eq (hregistry.surrender_next _ place answer s), hstep _ fun q id place' heq => ?_⟩
    cases heq
  | expiring lease place =>
    cases hp
    refine ⟨.of_eq (hregistry.surrender_next _ place answer s), hstep _ fun q id place' heq => ?_⟩
    cases heq
  | resolving r =>
    cases hp
    refine ⟨keeps_resolve_next r answer s, hstep _ fun q id place' heq => ?_⟩
    cases heq
  | operating id place => exact absurd rfl (ht id place)
  | closing id background =>
    cases hp
    refine ⟨.refl _, fun id' place heq => ?_⟩
    cases heq
  | evicting id rest count =>
    cases hp
    exact ⟨.refl _, ofEvicted_ne_operating count rest⟩
  | finished result => cases hp

end

/-! ## Gateways in use -/

/-- Whether a call brings a handle in. -/
def Call.brings : Call → Bool
  | create _ => true
  | _ => false

namespace Sharing

/-- What can happen to a gateway in use. Whoever holds a handle changes its options, puts them
back, or gives the handle back. Handles are brought in by any of three ways.

All else of the library is called by a `call`, timers fire, and a task is answered, whatever the
answer is. -/
inductive Event where
  | adjust (id : HandleId) (update : Options → Options)
  | reset (id : HandleId)
  | giveBack (id : HandleId)
  | create (h : Handle) (made : h.Made)
  | provide (key : ConnectionKey) (make : Unit → Except Error { h : Handle // h.Made })
  | checkout (d : Deployment) (key : ConnectionKey)
  | call (c : Call) (plain : c.brings = false)
  | fire (lease : LeaseId)
  | advance (now : Instant)
  | answer (id : TaskId) (answers : (request : Request) → request.Answer)

/-- A gateway without handles and tasks. -/
def start (s : Shared) : Gateway :=
  ⟨{ s with registry := .empty }, []⟩

/-- What an event makes of a gateway. -/
def step (g : Gateway) : Event → Gateway
  | .adjust id update =>
    { g with shared := g.shared.modifyHandle id fun h => h.adjust update }
  | .reset id => { g with shared := g.shared.modifyHandle id fun h => h.reset.2 }
  | .giveBack id =>
    { g with shared := { g.shared with registry := g.shared.registry.giveBack id } }
  | .create h _ => (g.create (g.shared.registry.add h)).2
  | .provide key make =>
    (g.create (g.shared.registry.provide key fun u => (make u).map Subtype.val)).2
  | .checkout d key => (g.create (d.provide g.shared.registry key)).2
  | .call c _ => g.call c
  | .fire lease => g.fire lease
  | .advance now => g.advanceTo now
  | .answer id answers =>
    match g.pending? id with
    | none => g
    | some p => p.resume (answers p.request)

/-- What a sequence of events makes of a gateway. -/
def run (g : Gateway) (events : List Event) : Gateway :=
  events.foldl step g

/-- When somebody is done with a handle: it is given back, an operation has ended, or an operation
has ended as soon as it had its handle. -/
inductive Ends (g : Gateway) : Event → HandleId → Prop where
  | given {id : HandleId} {h : Handle} (known : g.shared.handle? id = some h) :
    Ends g (.giveBack id) id
  | later {e : Event} {task : TaskId} {id : HandleId} {place : Operation.Place}
      {result : TaskResult} (before : g.task? task = some (.operating id place))
      (after : (step g e).task? task = some (.finished result)) : Ends g e id
  | atOnce {d : Deployment} {key : ConnectionKey} {action : Action} {path : Path} {id : HandleId}
      {result : TaskResult} (handle : (d.provide g.shared.registry key).handle = .ok id)
      (after : (step g (.call (.operate d key action path) rfl)).task? g.tasks.length =
        some (.finished result)) : Ends g (.call (.operate d key action path) rfl) id

/-- What shared options are like.

* `exact`, `status`: whether options differ from the configured ones is known of every handle and
  of every registered connection;
* `adjusts`, `undone`: a change puts the options in force that it makes of those that were, and one
  that brings the configured options back is none;
* `restores`: options are put back if and only if they differ;
* `configured`: whatever happens, what is configured stays so;
* `ended`: nobody who is done with a handle leaves changed options behind. -/
structure Kept (g : Gateway) : Prop where
  exact : ∀ id h, g.shared.handle? id = some h → (h.modified = true ↔ h.options ≠ h.defaults)
  status : ∀ key, g.shared.registry.isModified key = true ↔
    ∃ id h, g.shared.registry.lookup? key = some id ∧ g.shared.handle? id = some h ∧
      h.options ≠ h.defaults
  registered : ∀ key id, g.shared.registry.lookup? key = some id →
    ∃ h, g.shared.handle? id = some h
  adjusts : ∀ id h update, g.shared.handle? id = some h →
    ∃ h', (step g (.adjust id update)).shared.handle? id = some h' ∧
      h'.options = update h.options
  undone : ∀ id h update, g.shared.handle? id = some h → update h.options = h.defaults →
    ∃ h', (step g (.adjust id update)).shared.handle? id = some h' ∧ h'.modified = false
  restores : ∀ id h, g.shared.handle? id = some h →
    (h.reset.1 = true ↔ h.options ≠ h.defaults) ∧
    ∃ h', (step g (.reset id)).shared.handle? id = some h' ∧ h'.options = h.defaults
  configured : ∀ e id h, g.shared.handle? id = some h →
    ∃ h', (step g e).shared.handle? id = some h' ∧ h'.defaults = h.defaults
  ended : ∀ e id, Ends g e id → ∃ h, (step g e).shared.handle? id = some h ∧
    h.options = h.defaults ∧ h.modified = false

/-- Whether options differ is known of every handle, and every handle that is registered or in use
is there. -/
structure Whole (g : Gateway) : Prop where
  exact : ∀ id h, g.shared.handle? id = some h → h.Exact
  table : ∀ entry ∈ g.shared.registry.table, ∃ h, g.shared.handle? entry.2 = some h
  lent : ∀ i id place, g.task? i = some (.operating id place) → ∃ h, g.shared.handle? id = some h

/-- At most one task is added, and if it is an operation, its handle is there. -/
def Adds (g g' : Gateway) : Prop :=
  g'.tasks = g.tasks ∨ ∃ t, g'.tasks = g.tasks ++ [t] ∧
    ∀ id place, t = .operating id place → ∃ h, g'.shared.handle? id = some h

variable {g g' : Gateway} {id : HandleId} {h : Handle}

/-! ### Tasks that are added -/

/-- A task that was there is there still. -/
theorem Adds.task? (ha : Adds g g') {i : TaskId} {t : Task} (ht : g.task? i = some t) :
    g'.task? i = some t := by
  have hlt : i < g.tasks.length := (List.getElem?_eq_some_iff.1 ht).1
  rcases ha with hsame | ⟨t', hadded, -⟩
  · rw [Gateway.task?, hsame]
    exact ht
  · rw [Gateway.task?_concat hadded, Function.update_of_ne (Nat.ne_of_lt hlt)]
    exact ht

theorem Whole.adds (hw : Whole g) (hk : Keeps g.shared.registry g'.shared.registry)
    (ha : Adds g g') : Whole g' := by
  refine ⟨hk.exact hw.exact, hk.table hw.table, fun i id place ht => ?_⟩
  have hold : g.task? i = some (.operating id place) → ∃ h, g'.shared.handle? id = some h := by
    intro ht'
    obtain ⟨h, hh⟩ := hw.lent i id place ht'
    obtain ⟨h', hh', -⟩ := hk.handles id h hh
    exact ⟨h', hh'⟩
  rcases ha with hsame | ⟨t, hadded, hhandle⟩
  · rw [Gateway.task?, hsame] at ht
    exact hold ht
  · rw [Gateway.task?_concat hadded] at ht
    by_cases hi : i = g.tasks.length
    · subst hi
      rw [Function.update_self] at ht
      exact hhandle id place (Option.some.inj ht)
    · rw [Function.update_of_ne hi] at ht
      exact hold ht

theorem adds_add (g : Gateway) {t : Task} (ht : ∀ id place, t ≠ .operating id place) (s : Shared) :
    Adds g (g.add t s).2 :=
  Or.inr ⟨t, rfl, fun id place heq => absurd heq (ht id place)⟩

theorem adds_ofStep (g : Gateway) {π ρ : Type} {place : π → Task} {result : ρ → TaskResult}
    (hplace : ∀ q id place', place q ≠ .operating id place') (step : Step π ρ) (s : Shared) :
    Adds g (g.add (Task.ofStep place result step) s).2 := by
  cases step with
  | paused q => exact adds_add g (hplace q) s
  | done r => exact adds_add g (fun id place' heq => by cases heq) s

theorem adds_create (g : Gateway) (c : Registry.Creation) : Adds g (g.create c).2 := by
  unfold Gateway.create
  cases c.discarded with
  | none => exact Or.inl rfl
  | some id => exact adds_add g (fun id' place heq => by cases heq) _

theorem registry_create (g : Gateway) (c : Registry.Creation) :
    (g.create c).2.shared.registry = c.registry := by
  unfold Gateway.create
  cases c.discarded <;> rfl

/-! ### Events -/

/-- An operation that has its handle starts with it. -/
theorem call_operate {d : Deployment} {key : ConnectionKey}
    (hid : (d.provide g.shared.registry key).handle = .ok id) (action : Action) (path : Path) :
    ∃ t s, g.call (.operate d key action path) = ⟨s, g.tasks ++ [t]⟩ ∧
      Lends id { g.shared with registry := (d.provide g.shared.registry key).registry } t s := by
  refine ⟨_, _, ?_, lends_start action id path _⟩
  simp only [Gateway.call, Gateway.operate, hid]
  rfl

/-- A call that brings nothing in does nothing to handles, unless it is an operation that ends. -/
theorem keeps_call (g : Gateway) {c : Call} (hc : c.brings = false) :
    Keeps g.shared.registry (g.call c).shared.registry := by
  have hregistry := Shared.detached_registry
  cases c with
  | addLease target =>
    simp only [Gateway.call, Gateway.addLease]
    cases Lease.fresh target <;> exact .refl _
  | acquire lease backend options expiry => exact .of_eq (hregistry.acquire_start _ _)
  | release lease strict => exact .of_eq (hregistry.release_start lease g.shared)
  | resolve handle path =>
    exact .of_eq (congrArg Shared.registry (Shared.Lasting.resolve_start handle path g.shared))
  | operate d key action path =>
    have hcheckout := Keeps.checkout g.shared.registry d key
    cases hid : (d.provide g.shared.registry key).handle with
    | error e =>
      simp only [Gateway.call, Gateway.operate, hid]
      exact hcheckout
    | ok id =>
      obtain ⟨t, s, hcall, hlends⟩ := call_operate hid action path
      rw [hcall]
      exact hcheckout.trans hlends.keeps
  | create creation => cases hc
  | close handle => exact .refl _
  | shutdown space => exact .evict _ space

theorem Whole.adds_call (hw : Whole g) {c : Call} (hc : c.brings = false) : Adds g (g.call c) := by
  cases c with
  | addLease target => exact Or.inl (g.tasks_addLease target)
  | acquire lease backend options expiry =>
    exact adds_ofStep g (fun q id place' heq => by cases heq) _ _
  | release lease strict => exact adds_ofStep g (fun q id place' heq => by cases heq) _ _
  | resolve handle path => exact adds_ofStep g (fun q id place' heq => by cases heq) _ _
  | operate d key action path =>
    cases hid : (d.provide g.shared.registry key).handle with
    | error e =>
      simp only [Gateway.call, Gateway.operate, hid]
      exact adds_add g (fun id place heq => by cases heq) _
    | ok id =>
      -- the handle that was given is there, and stays there
      obtain ⟨h, hh⟩ := Registry.handle?_checkout hw.table hid
      obtain ⟨t, s, hcall, hlends⟩ := call_operate hid action path
      rw [hcall]
      refine Or.inr ⟨_, rfl, fun id' place heq => ?_⟩
      rw [hlends.stays id' place heq]
      obtain ⟨h', hh', -⟩ := hlends.keeps.handles id h hh
      exact ⟨h', hh'⟩
  | create creation => cases hc
  | close handle => exact adds_add g (fun id place heq => by cases heq) _
  | shutdown space => exact adds_add g (ofEvicted_ne_operating _ _) _

theorem adds_fire (g : Gateway) (lease : LeaseId) : Adds g (g.fire lease) := by
  unfold Gateway.fire
  split
  · exact Or.inl rfl
  · split
    · split
      · exact adds_add g (fun id place heq => by cases heq) _
      · exact Or.inl rfl
    · exact Or.inl rfl

/-- An answer to a task lets it go on, and only it. -/
theorem answer_cases (g : Gateway) (i : TaskId)
    (answers : (request : Request) → request.Answer) :
    step g (.answer i answers) = g ∨
      ∃ t q, g.task? i = some t ∧ t.next? g.shared = some q ∧
        step g (.answer i answers) = ⟨(q.resume (answers q.request) g.shared).2,
          g.tasks.set i (q.resume (answers q.request) g.shared).1⟩ := by
  cases hp : g.pending? i with
  | none =>
    left
    simp only [step, hp]
  | some p =>
    obtain ⟨t, q, ht, hq, -, rfl⟩ := Gateway.pending?_eq hp
    right
    refine ⟨t, q, ht, hq, ?_⟩
    simp only [step, hp]
    rfl

theorem keeps_step (g : Gateway) (e : Event) :
    Keeps g.shared.registry (step g e).shared.registry := by
  cases e with
  | adjust id update =>
    exact .modify _ _ (fun h _ => h.exact_adjust update) fun _ => rfl
  | reset id => exact .giveBack _ id
  | giveBack id => exact .giveBack _ id
  | create h made =>
    simp only [step, registry_create]
    exact .add _ made
  | provide key make =>
    simp only [step, registry_create]
    refine .provide _ key fun h hh => ?_
    cases hm : make () with
    | error e =>
      rw [hm] at hh
      cases hh
    | ok own =>
      rw [hm] at hh
      cases hh
      exact own.property
  | checkout d key =>
    simp only [step, registry_create]
    exact .checkout _ d key
  | call c plain => exact keeps_call g plain
  | fire lease => exact .of_eq (Shared.detached_registry.fire g lease)
  | advance now => exact .refl _
  | answer i answers =>
    rcases answer_cases g i answers with hnone | ⟨t, q, -, hq, hstep⟩
    · rw [hnone]
      exact .refl _
    · rw [hstep]
      by_cases ht : ∃ id place, t = .operating id place
      · obtain ⟨id, place, rfl⟩ := ht
        exact (lends_operating hq _ _).keeps
      · exact (keeps_next? (fun id place heq => ht ⟨id, place, heq⟩) hq _ _).1

/-- Every event but an answer adds a task at most. -/
theorem Whole.adds_step (hw : Whole g) {e : Event} (he : ∀ i answers, e ≠ .answer i answers) :
    Adds g (step g e) := by
  cases e with
  | create h made => exact adds_create g _
  | provide key make => exact adds_create g _
  | checkout d key => exact adds_create g _
  | call c plain => exact hw.adds_call plain
  | fire lease => exact adds_fire g lease
  | answer i answers => exact absurd rfl (he i answers)
  | _ => exact Or.inl rfl

theorem Whole.step (hw : Whole g) (e : Event) : Whole (step g e) := by
  by_cases he : ∃ i answers, e = .answer i answers
  · obtain ⟨i, answers, rfl⟩ := he
    have hk := keeps_step g (.answer i answers)
    refine ⟨hk.exact hw.exact, hk.table hw.table, fun j id place hj => ?_⟩
    -- whoever works with a handle has done so before
    suffices hbefore : ∃ place', g.task? j = some (.operating id place') by
      obtain ⟨place', hj'⟩ := hbefore
      obtain ⟨h, hh⟩ := hw.lent j id place' hj'
      obtain ⟨h', hh', -⟩ := hk.handles id h hh
      exact ⟨h', hh'⟩
    rcases answer_cases g i answers with hnone | ⟨t, q, ht, hq, hstep⟩
    · rw [hnone] at hj
      exact ⟨place, hj⟩
    · rw [hstep, Gateway.task?_set ht] at hj
      by_cases hji : j = i
      · subst hji
        rw [Function.update_self] at hj
        by_cases hop : ∃ id place, t = .operating id place
        · obtain ⟨id', place', rfl⟩ := hop
          rw [(lends_operating hq _ _).stays id place (Option.some.inj hj)]
          exact ⟨place', ht⟩
        · have hother := (keeps_next? (fun id place heq => hop ⟨id, place, heq⟩) hq
            (answers q.request) g.shared).2
          exact absurd (Option.some.inj hj) (hother id place)
      · rw [Function.update_of_ne hji] at hj
        exact ⟨place, hj⟩
  · have hne : ∀ i answers, e ≠ .answer i answers := fun i answers heq => he ⟨i, answers, heq⟩
    exact hw.adds (keeps_step g e) (hw.adds_step hne)

/-! ### The options -/

/-- A handle that is given back has its configured options. -/
theorem clean_giveBack {r r' : Registry} (hk : Keeps r r')
    (hx : ∀ id h, r.handle? id = some h → h.Exact) (hh : r.handle? id = some h) :
    ∃ h', (r'.giveBack id).handle? id = some h' ∧ h'.options = h'.defaults ∧
      h'.modified = false := by
  obtain ⟨h', hh', -⟩ := hk.handles id h hh
  refine ⟨h'.reset.2, ?_, ?_, h'.modified_reset⟩
  · rw [Registry.giveBack, Registry.handle?_modify, hh', if_pos rfl]
    rfl
  · rw [Handle.options_reset (hk.exact hx id h' hh'), Handle.defaults_reset]

/-- Nobody who is done with a handle leaves changed options behind. -/
theorem Whole.ended (hw : Whole g) {e : Event} (he : Ends g e id) :
    ∃ h, (Sharing.step g e).shared.handle? id = some h ∧ h.options = h.defaults ∧
      h.modified = false := by
  cases he with
  | given known => exact clean_giveBack (.refl _) hw.exact known
  | @later _ i _ place result before after =>
    by_cases he : ∃ j answers, e = .answer j answers
    · obtain ⟨j, answers, rfl⟩ := he
      rcases answer_cases g j answers with hnone | ⟨t, q, ht, hq, hstep⟩
      · rw [hnone, before] at after
        cases after
      · rw [hstep] at after ⊢
        rw [Gateway.task?_set ht] at after
        by_cases hji : i = j
        · -- it is the operation that was answered
          subst hji
          rw [before] at ht
          cases ht
          rw [Function.update_self] at after
          obtain ⟨r, hk, hr⟩ := (lends_operating hq _ _).ended result (Option.some.inj after)
          obtain ⟨h, hh⟩ := hw.lent i id place before
          simp only [Shared.handle?, hr]
          exact clean_giveBack hk hw.exact hh
        · rw [Function.update_of_ne hji, before] at after
          cases after
    · -- nothing but an answer ends an operation that was there
      have hne : ∀ j answers, e ≠ .answer j answers := fun j answers heq => he ⟨j, answers, heq⟩
      rw [(hw.adds_step hne).task? before] at after
      cases after
  | @atOnce d key action path _ result handle after =>
    obtain ⟨t, s, hcall, hlends⟩ := call_operate handle action path
    obtain ⟨h, hh⟩ := Registry.handle?_checkout hw.table handle
    have hstep : Sharing.step g (.call (.operate d key action path) rfl) = ⟨s, g.tasks ++ [t]⟩ :=
      hcall
    rw [hstep] at after ⊢
    have ht : t = .finished result := by simpa [Gateway.task?] using after
    obtain ⟨r, hk, hr⟩ := hlends.ended result ht
    simp only [Shared.handle?, hr]
    exact clean_giveBack hk ((Keeps.checkout _ d key).exact hw.exact) hh

theorem Whole.lookup (hw : Whole g) {key : ConnectionKey}
    (hid : g.shared.registry.lookup? key = some id) : ∃ h, g.shared.handle? id = some h :=
  hw.table (key, id) (RegistryUse.mem_of_lookup_eq_some hid)

/-- What is told of a registered connection. -/
theorem Whole.status (hw : Whole g) (key : ConnectionKey) :
    g.shared.registry.isModified key = true ↔
      ∃ id h, g.shared.registry.lookup? key = some id ∧ g.shared.handle? id = some h ∧
        h.options ≠ h.defaults := by
  unfold Registry.isModified
  cases hid : g.shared.registry.lookup? key with
  | none => simp
  | some id =>
    obtain ⟨h, hh⟩ := hw.lookup hid
    have hhandle : g.shared.registry.handle? id = some h := hh
    simp only [Option.bind_some, hhandle, Option.some.injEq]
    refine (hw.exact id h hh).trans ⟨fun hdiffers => ⟨id, h, rfl, hh, hdiffers⟩, ?_⟩
    rintro ⟨_, h', rfl, hh', hdiffers⟩
    rw [hh] at hh'
    cases hh'
    exact hdiffers

theorem Whole.kept (hw : Whole g) : Kept g := by
  have hmodified : ∀ id h change, g.shared.handle? id = some h →
      (g.shared.registry.modify id change).handle? id = some (change h) := by
    intro id h change hh
    have hmodify := Registry.handle?_modify g.shared.registry id change id
    rwa [show g.shared.registry.handle? id = some h from hh, if_pos rfl] at hmodify
  constructor
  · exact hw.exact
  · exact hw.status
  · exact fun key id hid => hw.lookup hid
  · intro id h update hh
    exact ⟨h.adjust update, hmodified id h _ hh, rfl⟩
  · intro id h update hh hupdate
    refine ⟨h.adjust update, hmodified id h _ hh, ?_⟩
    simp [Handle.adjust, hupdate]
  · intro id h hh
    exact ⟨Handle.reset_fst (hw.exact id h hh), h.reset.2, hmodified id h _ hh,
      Handle.options_reset (hw.exact id h hh)⟩
  · exact fun e => (keeps_step g e).handles
  · exact fun e id => hw.ended

theorem whole_start (s : Shared) : Whole (start s) := by
  constructor
  · intro id h hh
    cases hh
  · intro entry hentry
    cases hentry
  · intro i id place ht
    cases ht

/-- Shared options always come back, whatever is done to them and whatever operations end with. -/
theorem restored_run (s : Shared) (events : List Event) : Kept (run (start s) events) := by
  suffices hrun : ∀ g, Whole g → Kept (run g events) from hrun _ (whole_start s)
  induction events with
  | nil => exact fun g hw => hw.kept
  | cons e rest ih => exact fun g hw => ih (step g e) (hw.step e)

end Sharing

end FileGateway

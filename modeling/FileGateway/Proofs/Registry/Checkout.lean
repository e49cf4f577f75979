import FileGateway.Proofs.Connection.Accepted
import FileGateway.Proofs.Gateway.Lasting
import FileGateway.Proofs.Registry.Conservation

/-!
# Checkouts

Whoever asks a deployment for the handle of a key gets the registered one, or else one that is built
from the connections file, if the file, the factories and the backend allow it. What a checkout
comes to is told by `Deployment.Exact`, for a file that was accepted:

* the errors tell what is missing: the connection, the factory, or the store that the factory could
  not build. An accepted file never gives an invalid configuration;
* a checkout that fails changes nothing, so that the next one tries again;
* a new handle has what its connection is configured with, and nothing has happened to it yet.

A deployment is used by calls and answers in any order (`Deployment.run`). No event but the shutdown
of its namespace takes a handle out of the registry (`Deployment.lookup_step`), so between two
shutdowns all who ask for a key get the same handle (`Deployment.checkout_run`).
-/

namespace FileGateway.Deployment

/-! ## A deployment in use -/

/-- What can happen to the registry of a deployment. A factory may do one thing today and another
tomorrow, so whatever asks for a handle brings the factories as they are then.

A handle may also be registered directly, whatever it was built from, or be had made for a key that
has none, by whatever way of making it. A task is answered what it has asked for, whatever the
answer is. -/
inductive Event where
  | checkout (factories : Factories) (key : ConnectionKey)
  | create (h : Handle)
  | provide (key : ConnectionKey) (make : Unit → Except Error Handle)
  | giveBack (id : HandleId)
  | adjust (id : HandleId) (update : Options → Options)
  | resolve (id : HandleId) (path : Path)
  | operate (factories : Factories) (key : ConnectionKey) (action : Action) (path : Path)
  | close (id : HandleId)
  | shutdown (space : String)
  | answer (id : TaskId) (answers : (request : Request) → request.Answer)
  | fire (lease : LeaseId)
  | advance (now : Instant)

/-- The gateway with another registry. -/
def withRegistry (g : Gateway) (r : Registry) : Gateway :=
  { g with shared := { g.shared with registry := r } }

/-- What an event makes of the gateway of a deployment. -/
def step (file : ConnectionsFile) (g : Gateway) : Event → Gateway
  | .checkout factories key => (g.create (provide ⟨file, factories⟩ g.shared.registry key)).2
  | .create h => (g.create (g.shared.registry.add h)).2
  | .provide key make => (g.create (g.shared.registry.provide key make)).2
  | .giveBack id => withRegistry g (g.shared.registry.giveBack id)
  | .adjust id update => withRegistry g (g.shared.registry.modify id fun h => h.adjust update)
  | .resolve id path => (g.resolve id path).2
  | .operate factories key action path => (g.operate ⟨file, factories⟩ key action path).2
  | .close id => (g.close id).2
  | .shutdown space => (g.shutdown space).2
  | .answer id answers =>
    match g.pending? id with
    | none => g
    | some p => p.resume (answers p.request)
  | .fire lease => g.fire lease
  | .advance now => g.advanceTo now

/-- What a sequence of events makes of the gateway of a deployment. -/
def run (file : ConnectionsFile) (g : Gateway) (events : List Event) : Gateway :=
  events.foldl (step file) g

/-! ## What a checkout comes to -/

/-- A checkout ends with an error of a code. -/
def Fails (result : Except Error HandleId) (code : ErrorCode) : Prop :=
  ∃ e, result = .error e ∧ e.code = code

/-- A new handle was built from a configuration and registered, and nothing else has changed. It
has what the connection is configured with, and nothing has happened to it. -/
structure Built (c : ConnectionConfig) (backend : Backend) (r : Registry) (id : HandleId)
    (r' : Registry) : Prop where
  fresh : r.handle? id = none
  registered : r'.lookup? c.key = some id
  others : ∀ key, key ≠ c.key → r'.lookup? key = r.lookup? key
  older : ∀ n h, r.handle? n = some h → r'.handle? n = some h
  handle : ∃ h, r'.handle? id = some h ∧
    h.key = c.key ∧ h.backend = backend ∧ h.baseDir = c.workingDir ∧
    h.defaults = c.options ∧ h.options = c.options ∧ h.modified = false ∧ h.lock = c.lock ∧
    h.policy.config = ⟨c.maxFailures, c.suspendDuration, c.backoffMultiplier, c.maxBackoff⟩ ∧
    ∀ now, h.policy.health now = ⟨.healthy, 0, 0, 0⟩

/-- What the checkout of a key comes to at one moment. A registered handle is returned, whatever
the configuration says. Otherwise the checkout fails in one of three ways, each under its own
condition, or a handle is built from the connection of the key, which is the only one. A checkout
that fails changes nothing. -/
structure Exact (d : Deployment) (r : Registry) (key : ConnectionKey) : Prop where
  registered : ∀ id file factories, r.lookup? key = some id →
    provide ⟨file, factories⟩ r key = { registry := r, handle := .ok id }
  notFound : r.lookup? key = none →
    (Fails (d.provide r key).handle .connectionNotFound ↔ ∀ c ∈ d.file.connections, c.key ≠ key)
  unsupported : r.lookup? key = none →
    (Fails (d.provide r key).handle .unsupportedProtocol ↔
      ∃ c ∈ d.file.connections, c.key = key ∧ d.factories.get? c.protocol = none)
  failed : r.lookup? key = none →
    (Fails (d.provide r key).handle .connectionError ↔
      ∃ c ∈ d.file.connections, c.key = key ∧
        ∃ factory f, d.factories.get? c.protocol = some factory ∧ factory c = .error f)
  unique : ∀ c ∈ d.file.connections, ∀ c' ∈ d.file.connections, c.key = key → c'.key = key → c = c'
  built : ∀ c ∈ d.file.connections, c.key = key → r.lookup? key = none →
    ∀ factory backend, d.factories.get? c.protocol = some factory → factory c = .ok backend →
      ∃ id, (d.provide r key).handle = .ok id ∧ Built c backend r id (d.provide r key).registry
  valid : ¬ Fails (d.provide r key).handle .invalidConfig
  failing : ∀ e, (d.provide r key).handle = .error e → (d.provide r key).registry = r

/-- The handle that is built from a configuration. -/
def handleOf (c : ConnectionConfig) (backend : Backend) : Handle :=
  .fresh c.key backend c.workingDir c.options (.ofConfig c) c.lock

variable {d : Deployment} {r : Registry} {key : ConnectionKey}

@[simp] theorem fails_ok {id : HandleId} {code : ErrorCode} :
    Fails (.ok id) code ↔ False := by
  simp [Fails]

@[simp] theorem fails_error {e : Error} {code : ErrorCode} :
    Fails (.error e) code ↔ e.code = code := by
  simp [Fails]

/-- If a key has no handle, its connection alone decides. An accepted connection is in order, and
the handle that is built for it has the key that was asked for, so it is never refused. -/
theorem provide_absent (hd : d.file.Sound) (absent : r.lookup? key = none) :
    d.provide r key =
      match d.file.find? key with
      | none => { registry := r, handle := .error (.connectionNotFound key) }
      | some c =>
        match d.factories.get? c.protocol with
        | none => { registry := r, handle := .error (.unsupportedProtocol c.protocol.name) }
        | some factory =>
          match factory c with
          | .error f => { registry := r, handle := .error (.connectionFailed c.name f) }
          | .ok backend =>
            { registry := (r.build (handleOf c backend)).2.enter key r.built.length
              handle := .ok r.built.length } := by
  rw [provide, absent]
  cases hfind : d.file.find? key with
  | none => rfl
  | some c =>
    obtain ⟨hc, rfl⟩ := ConnectionsFile.mem_of_find? hfind
    have hkey : ∀ backend, (handleOf c backend).key = c.key := fun _ => rfl
    simp only [Registry.connect, Registry.provide, absent, connect, hd.valid c hc]
    cases d.factories.get? c.protocol with
    | none => rfl
    | some factory =>
      cases hbuild : factory c with
      | error f => simp only [hbuild]
      | ok backend =>
        simp only [hbuild]
        exact if_pos (hkey backend)

/-- The connection of a key is the one that is found. -/
theorem exists_connection_iff (hd : d.file.Sound) (P : ConnectionConfig → Prop) :
    (∃ c ∈ d.file.connections, c.key = key ∧ P c) ↔ ∃ c, d.file.find? key = some c ∧ P c := by
  simp only [hd.find?_eq_some_iff, and_assoc]

theorem notFound_iff (hd : d.file.Sound) (absent : r.lookup? key = none) :
    Fails (d.provide r key).handle .connectionNotFound ↔
      ∀ c ∈ d.file.connections, c.key ≠ key := by
  rw [provide_absent hd absent, ← ConnectionsFile.find?_eq_none_iff]
  cases d.file.find? key with
  | none => simp [Error.code]
  | some c =>
    cases hget : d.factories.get? c.protocol with
    | none => simp [hget, Error.code]
    | some factory => cases hbuild : factory c <;> simp [hget, hbuild, Error.code]

theorem unsupported_iff (hd : d.file.Sound) (absent : r.lookup? key = none) :
    Fails (d.provide r key).handle .unsupportedProtocol ↔
      ∃ c ∈ d.file.connections, c.key = key ∧ d.factories.get? c.protocol = none := by
  rw [provide_absent hd absent, exists_connection_iff hd]
  cases d.file.find? key with
  | none => simp [Error.code]
  | some c =>
    cases hget : d.factories.get? c.protocol with
    | none => simp [hget, Error.code]
    | some factory => cases hbuild : factory c <;> simp [hget, hbuild, Error.code]

theorem failed_iff (hd : d.file.Sound) (absent : r.lookup? key = none) :
    Fails (d.provide r key).handle .connectionError ↔
      ∃ c ∈ d.file.connections, c.key = key ∧
        ∃ factory f, d.factories.get? c.protocol = some factory ∧ factory c = .error f := by
  rw [provide_absent hd absent, exists_connection_iff hd]
  cases d.file.find? key with
  | none => simp [Error.code]
  | some c =>
    cases hget : d.factories.get? c.protocol with
    | none => simp [hget, Error.code]
    | some factory => cases hbuild : factory c <;> simp [hget, hbuild, Error.code]

theorem built_of_enter {c : ConnectionConfig} (absent : r.lookup? c.key = none)
    (backend : Backend) :
    Built c backend r r.built.length
      ((r.build (handleOf c backend)).2.enter c.key r.built.length) := by
  have hlookup : ∀ k, ((r.build (handleOf c backend)).2.enter c.key r.built.length).lookup? k =
      (r.lookup? k).or (if k = c.key then some r.built.length else none) :=
    fun k => RegistryUse.lookup_enter _ c.key r.built.length k
  constructor
  · simp [Registry.handle?]
  · rw [hlookup, absent, if_pos rfl]
    rfl
  · intro k hk
    rw [hlookup, if_neg hk, Option.or_none]
  · intro n h hn
    have hlt : n < r.built.length := (List.getElem?_eq_some_iff.1 hn).1
    exact (List.getElem?_append_left hlt).trans hn
  · refine ⟨handleOf c backend, ?_, rfl, rfl, rfl, rfl, rfl, rfl, rfl, rfl, fun now => rfl⟩
    simp [Registry.handle?, Registry.enter, Registry.build]

/-- A checkout that fails has changed nothing, and is not for want of order in the file. -/
theorem provide_of_error (hd : d.file.Sound) {e : Error} (h : (d.provide r key).handle = .error e) :
    (d.provide r key).registry = r ∧ e.code ≠ .invalidConfig := by
  cases hl : r.lookup? key with
  | some id =>
    rw [provide, hl] at h
    cases h
  | none =>
    rw [provide_absent hd hl] at h ⊢
    split at h
    · cases h
      simp [Error.code]
    · split at h
      · cases h
        simp [Error.code]
      · split at h
        · cases h
          simp [Error.code]
        · cases h

/-- A checkout that succeeds leaves its handle registered. -/
theorem lookup_of_provide (hd : d.file.Sound) {id : HandleId}
    (h : (d.provide r key).handle = .ok id) : (d.provide r key).registry.lookup? key = some id := by
  cases hl : r.lookup? key with
  | some found =>
    rw [provide, hl] at h ⊢
    cases h
    exact hl
  | none =>
    rw [provide_absent hd hl] at h ⊢
    split at h
    · cases h
    · next c hfind =>
      split at h
      · cases h
      · next factory hget =>
        split at h
        · cases h
        · next backend hbuild =>
          cases h
          obtain ⟨-, rfl⟩ := ConnectionsFile.mem_of_find? hfind
          simpa only [hfind, hget, hbuild] using (built_of_enter hl backend).registered

/-- A checkout of an accepted file is exact, whatever is registered. -/
theorem exact_of_sound (hd : d.file.Sound) (r : Registry) (key : ConnectionKey) :
    Exact d r key := by
  constructor
  · intro id file factories hid
    rw [provide, hid]
  · exact notFound_iff hd
  · exact unsupported_iff hd
  · exact failed_iff hd
  · exact fun c hc c' hc' h h' => hd.unique hc hc' (h.trans h'.symm)
  · rintro c hc rfl absent factory backend get builds
    have hfind : d.file.find? c.key = some c := hd.find?_eq_some_iff.2 ⟨hc, rfl⟩
    rw [provide_absent hd absent, hfind]
    simp only [get, builds]
    exact ⟨r.built.length, rfl, built_of_enter absent backend⟩
  · rintro ⟨e, he, hcode⟩
    exact (provide_of_error hd he).2 hcode
  · exact fun e he => (provide_of_error hd he).1

/-! ## Between two shutdowns -/

/-- Which handles are registered lasts. -/
theorem lasting_table : Shared.Lasting fun s => s.registry.table :=
  ⟨⟨fun _ _ => rfl, fun _ _ => rfl, fun _ _ => rfl⟩, fun _ _ _ _ => rfl⟩

/-- A checkout takes no handle out of the registry. -/
theorem lookup_provide {id : HandleId} (h : r.lookup? key = some id) (wanted : ConnectionKey) :
    (d.provide r wanted).registry.lookup? key = some id := by
  rw [provide]
  cases r.lookup? wanted with
  | some other => exact h
  | none =>
    cases d.file.find? wanted with
    | none => exact h
    | some c =>
      obtain ⟨new, hcomes, -⟩ := RegistryUse.comes_provide r c.key fun _ => connect c d.factories
      exact hcomes.lookup h

variable {file : ConnectionsFile} {g : Gateway} {id : HandleId}

/-- Only the shutdown of its namespace takes a handle out of the registry. -/
theorem lookup_step {e : Event} (h : g.shared.registry.lookup? key = some id)
    (he : e ≠ .shutdown key.space) : (step file g e).shared.registry.lookup? key = some id := by
  have htable : ∀ r' : Registry, r'.table = g.shared.registry.table → r'.lookup? key = some id := by
    intro r' hr
    rw [Registry.lookup?, hr]
    exact h
  cases e with
  | checkout factories wanted =>
    rw [step, RegistryUse.create_registry]
    exact lookup_provide h wanted
  | create new =>
    rw [step, RegistryUse.create_registry]
    exact (RegistryUse.comes_add g.shared.registry new).lookup h
  | provide wanted make =>
    obtain ⟨new, hcomes, -⟩ := RegistryUse.comes_provide g.shared.registry wanted make
    rw [step, RegistryUse.create_registry]
    exact hcomes.lookup h
  | giveBack id => exact htable _ rfl
  | adjust id update => exact htable _ rfl
  | resolve id path =>
    exact htable _ (congrArg (fun s => s.registry.table) (Shared.Lasting.resolve_start id path _))
  | operate factories wanted action path =>
    -- the operation may check a connection out; what it does then leaves the table as it is
    have hlasts := lasting_table.operate g ⟨file, factories⟩ wanted action path
    exact (congrArg (List.lookup key) hlasts).trans (lookup_provide h wanted)
  | close id => exact htable _ rfl
  | shutdown space =>
    refine (RegistryUse.lookup_evict g.shared.registry space key).trans ?_
    rw [if_neg fun heq => he (by rw [heq])]
    exact h
  | answer n answers =>
    rw [step]
    cases hp : g.pending? n with
    | none => exact h
    | some p =>
      obtain ⟨t, q, -, hq, -, rfl⟩ := Gateway.pending?_eq hp
      exact htable _ (lasting_table.next? hq _ _)
  | fire lease => exact htable _ (lasting_table.fire g lease)
  | advance now => exact htable _ rfl

theorem lookup_run {events : List Event} (h : g.shared.registry.lookup? key = some id)
    (he : .shutdown key.space ∉ events) :
    (run file g events).shared.registry.lookup? key = some id := by
  induction events generalizing g with
  | nil => exact h
  | cons e rest ih =>
    obtain ⟨hne, hrest⟩ := not_or.1 (mt List.mem_cons.2 he)
    exact ih (lookup_step h (Ne.symm hne)) hrest

/-- In all use of a deployment whose file was accepted, checkouts are exact, and between two
shutdowns of its namespace all checkouts of a key that succeed give the same handle. -/
theorem checkout_run {text : String} {file : ConnectionsFile}
    (accepted : ConnectionsFile.parse text = .ok file) (writer : Diagnostics)
    (events : List Event) (factories : Factories) (key : ConnectionKey) :
    let d : Deployment := ⟨file, factories⟩
    let g := run file (.start writer) events
    Exact d g.shared.registry key ∧
      ∀ id later, (d.provide g.shared.registry key).handle = .ok id → .shutdown key.space ∉ later →
        let g' := run file (step file g (.checkout factories key)) later
        ∀ d' : Deployment,
          d'.provide g'.shared.registry key =
            { registry := g'.shared.registry, handle := .ok id } := by
  intro d g
  have hd : d.file.Sound := (ConnectionsFile.parse_eq_ok_iff.1 accepted).2
  refine ⟨exact_of_sound hd _ key, ?_⟩
  intro id later hid hlater g' d'
  have hstep : (step file g (.checkout factories key)).shared.registry.lookup? key = some id := by
    rw [step, RegistryUse.create_registry]
    exact lookup_of_provide hd hid
  rw [provide, lookup_run hstep hlater]

/-- A deployment with one connection on the local disk, as it is written. -/
def written : String :=
  "\x7b\"connections\":[\x7b\"name\":\"out\",\"protocol\":\"file\",\"working_dir\":\"/data\"\x7d]\x7d"

theorem checkout_run_again :
    let file : ConnectionsFile := ⟨[.onDisk "default" "out" ⟨"/data"⟩]⟩
    let d : Deployment := ⟨file, .standard⟩
    let key : ConnectionKey := ⟨"default", "out"⟩
    let before : List Event :=
      [.checkout .empty key, .checkout .standard key, .checkout .standard ⟨"default", "in"⟩,
        .shutdown "default"]
    let g := run file (.start ⟨"host", "10.0.0.1", 7⟩) before
    let later : List Event :=
      [.shutdown "other", .operate .empty key .probe ⟨"a"⟩, .checkout .empty key]
    let g' := run file (step file g (.checkout .standard key)) later
    ConnectionsFile.parse written = .ok file ∧ Exact d g.shared.registry key ∧
      (d.provide g.shared.registry key).handle = .ok 1 ∧ .shutdown key.space ∉ later ∧
      d.provide g'.shared.registry key = { registry := g'.shared.registry, handle := .ok 1 } := by
  have accepted : ConnectionsFile.parse written =
      .ok ⟨[.onDisk "default" "out" ⟨"/data"⟩]⟩ := by rfl
  have hrun := checkout_run accepted ⟨"host", "10.0.0.1", 7⟩
    [.checkout .empty ⟨"default", "out"⟩, .checkout .standard ⟨"default", "out"⟩,
      .checkout .standard ⟨"default", "in"⟩, .shutdown "default"]
    .standard ⟨"default", "out"⟩
  exact ⟨accepted, hrun.1, rfl, by simp, hrun.2 1 _ rfl (by simp) _⟩

end FileGateway.Deployment

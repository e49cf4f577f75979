import FileGateway.CommandLine.Program
import FileGateway.Proofs.CommandLine.Beginning
import FileGateway.Proofs.Suspension.Attribution
import FileGateway.Proofs.Suspension.Clock

/-!
# Processes that abort

The end of a suspension is a sum that nothing checks, so there are failures that a process does not
outlast. In the program there is one chance for it: the connection is new when the operation
resolves its path, and nothing after that changes its health (`Gateway.Settled`). So an
operation aborts the process just if its path is not resolved and the connection is suspended for
that at once, for too long for the clock (`Command.Aborts`, `perform_settles`).
-/

namespace FileGateway

/-! ## Health while a gateway is driven -/

/-- The policies of all handles that were built. -/
def Shared.policies (s : Shared) : List SuspensionPolicy :=
  s.registry.built.map Handle.policy

theorem Shared.detached_policies : Shared.Detached Shared.policies :=
  ⟨fun _ _ => rfl, fun _ _ => rfl, fun _ _ => rfl⟩

theorem Gateway.isAborted_eq (g : Gateway) :
    g.isAborted = g.shared.policies.any SuspensionPolicy.overflows := by
  rw [Shared.policies, List.any_map]
  rfl

/-- Giving a handle back does nothing to its health. -/
theorem Shared.policies_ofOperation (id : HandleId)
    (step : Step Operation.Place (Except Error Effect)) (s : Shared) :
    (Task.ofOperation id step s).2.policies = s.policies := by
  cases step with
  | paused place => rfl
  | done result =>
    have hsame : (s.registry.built.modify id fun h => h.reset.2).map Handle.policy =
        (s.registry.built.map Handle.policy).modify id fun policy => policy := by
      apply map_modify
      intro h
      unfold Handle.reset
      split <;> rfl
    exact hsame.trans (List.modify_id _ _)

/-- A task that does not wait for a resolve changes no health, and comes to no resolve. -/
theorem Task.policies_next? {t : Task} {s₀ : Shared} {p : Pending (Shared → Task × Shared)}
    (hp : t.next? s₀ = some p) (ht : t.resolve? = none) (answer : p.request.Answer) (s : Shared) :
    (p.resume answer s).2.policies = s.policies ∧ (p.resume answer s).1.resolve? = none := by
  have hdetached := Shared.detached_policies
  have hstep : ∀ {π ρ : Type} {place : π → Task} {result : ρ → TaskResult} (step : Step π ρ),
      (∀ q, (place q).resolve? = none) → (Task.ofStep place result step).resolve? = none := by
    intro π ρ place result step hplace
    cases step with
    | paused q => exact hplace q
    | done r => rfl
  cases t with
  | acquiring a place =>
    cases hp
    exact ⟨hdetached.acquire_next a _ place answer s, hstep _ fun _ => rfl⟩
  | releasing lease marker strict place =>
    cases hp
    exact ⟨hdetached.surrender_next _ place answer s, hstep _ fun _ => rfl⟩
  | expiring lease place =>
    cases hp
    exact ⟨hdetached.surrender_next _ place answer s, hstep _ fun _ => rfl⟩
  | resolving r => cases ht
  | operating id place =>
    have hpast : Sharing.Past id (.operating id place) := by
      constructor
      rintro action resolve rfl
      cases ht
    refine ⟨?_, (hpast.next? hp answer s).resolve?⟩
    cases hp
    apply (Shared.policies_ofOperation id _ _).trans
    cases place with
    | resolving action r => cases ht
    | writing t place => exact hdetached.write_next t _ place answer s
    | _ => rfl
  | closing id background =>
    cases hp
    exact ⟨rfl, rfl⟩
  | evicting id rest count =>
    cases hp
    refine ⟨rfl, ?_⟩
    cases rest <;> rfl
  | finished result => cases hp

/-- Nobody waits for a resolve, and the policies are these. -/
structure Gateway.Settled (policies : List SuspensionPolicy) (g : Gateway) : Prop where
  policies : g.shared.policies = policies
  tasks : ∀ t ∈ g.tasks, t.resolve? = none

namespace Gateway.Settled

variable {policies : List SuspensionPolicy} {g : Gateway}

theorem isAborted (h : g.Settled policies) :
    g.isAborted = policies.any SuspensionPolicy.overflows := by
  rw [isAborted_eq, h.policies]

theorem join (h : g.Settled policies) {s : Shared} {t : Task}
    (hs : s.policies = g.shared.policies) (ht : t.resolve? = none) :
    (g.add t s).2.Settled policies := by
  refine ⟨hs.trans h.policies, ?_⟩
  intro u hu
  rcases List.mem_append.1 hu with hu | hu
  · exact h.tasks u hu
  · rw [List.mem_singleton.1 hu]
    exact ht

theorem fire (h : g.Settled policies) (id : LeaseId) : (g.fire id).Settled policies := by
  have hpolicies := (Shared.detached_policies.fire g id).trans h.policies
  refine ⟨hpolicies, ?_⟩
  rcases g.tasks_fire id with hsame | hgrown
  · rw [hsame]
    exact h.tasks
  · rw [hgrown]
    exact (h.join (t := .expiring id .taking) rfl rfl).tasks

theorem resume (h : g.Settled policies) {id : TaskId} {p : Pending Gateway}
    (hp : g.pending? id = some p) (answer : p.request.Answer) :
    (p.resume answer).Settled policies := by
  obtain ⟨t, q, ht, hq, -, rfl⟩ := pending?_eq hp
  have hnext := Task.policies_next? hq (h.tasks t (List.mem_of_getElem? ht)) answer g.shared
  refine ⟨hnext.1.trans h.policies, ?_⟩
  intro u hu
  rcases List.mem_or_eq_of_mem_set hu with hu | rfl
  · exact h.tasks u hu
  · exact hnext.2

/-- Then it stays so while the gateway is driven. -/
theorem drive (h : g.Settled policies) {clock : StateM Volume Instant}
    (hclock : ∀ v, (clock v).2 = v) (id : TaskId) (fuel : Nat)
    (transfer : CommandLine.Transfer) (v : Volume) :
    (g.driveOnDisk clock id fuel transfer v).1.1.Settled policies := by
  refine drive_induction hclock (I := fun g _ _ => g.Settled policies) ?_ ?_ ?_ id fuel h
  · intro g _ _ now h
    exact ⟨h.policies, h.tasks⟩
  · intro g _ _ id h
    exact h.fire id
  · intro g _ _ id p answer _ _ h hp _
    exact h.resume hp answer

/-- Closing connections is nothing that anybody resolves a path for. -/
theorem shutdown (h : g.Settled policies) (space : String) :
    (g.shutdown space).2.Settled policies := by
  have hevicted : ∀ (count : Nat) (ids : List HandleId),
      (Task.ofEvicted count ids).resolve? = none := by
    intro count ids
    cases ids <;> rfl
  exact h.join rfl (hevicted _ _)

end Gateway.Settled

/-! ## Paths that are resolved -/

/-- The disk resolves a path. -/
def Volume.Resolves (v : Volume) (path : Path) : Prop :=
  ∃ file, ((DiskStore.resolve path : StateM Volume (Result FileRef)) v).1 = .ok file

namespace Volume

variable {v v' : Volume}

theorem isDirectory_iff {path : Path} : v.isDirectory path = .ok true ↔
    ∃ spot, v.walk .follow path = .ok spot ∧ spot.node = some .directory := by
  constructor
  · exact walk_of_isDirectory
  · rintro ⟨spot, hwalk, hnode⟩
    simp only [isDirectory, hwalk, bind, Except.bind, hnode]

theorem Alike.isDirectory (h : v.Alike v') {path : Path}
    (hdirectory : v.isDirectory path = .ok true) :
    v'.isDirectory path = .ok true := by
  rw [isDirectory_iff] at hdirectory ⊢
  obtain ⟨spot, hwalk, hnode⟩ := hdirectory
  refine ⟨_, h.walk hwalk, ?_⟩
  rw [Spot.seen, if_pos hnode]

theorem resolves_iff {path : Path} : v.Resolves path ↔ path.isAbsolute = true ∧
    ∃ place parent, path.normal = .ok place ∧ place.parent? = some parent ∧
      v.isDirectory parent = .ok true := by
  unfold Resolves
  rw [DiskStore.resolve_eq]
  cases path.isAbsolute with
  | false => simp
  | true =>
    cases path.normal with
    | error fault => simp
    | ok place =>
      cases hparent : place.parent? with
      | none => simp [hparent]
      | some parent =>
        rcases hdirectory : v.isDirectory parent with e | (_ | _)
        · simp [hparent, hdirectory]
        · simp [hparent, hdirectory]
        · simp [hparent, hdirectory]

/-- Which paths are resolved depends on the directories and links alone. -/
theorem Alike.resolves_iff (h : v.Alike v') {path : Path} : v'.Resolves path ↔ v.Resolves path := by
  simp only [Volume.resolves_iff]
  constructor
  · rintro ⟨habsolute, place, parent, hplace, hparent, hdirectory⟩
    exact ⟨habsolute, place, parent, hplace, hparent, h.symm.isDirectory hdirectory⟩
  · rintro ⟨habsolute, place, parent, hplace, hparent, hdirectory⟩
    exact ⟨habsolute, place, parent, hplace, hparent, h.isDirectory hdirectory⟩

end Volume

namespace CommandLine

/-! ## Operations -/

/-- An operation on a connection aborts the process at a moment: its path is not resolved, and the
connection is suspended for that at once, for too long for the clock. -/
structure AbortsOver (config : ConnectionConfig) (path : Path) (now : Instant) (v : Volume) :
    Prop where
  protocol : config.protocol = .file
  rooted : config.workingDir.isAbsolute = true
  unresolved : ¬ v.Resolves (config.workingDir.join path)
  limit : config.maxFailures = 1
  late : clockEnd ≤ now + ((SuspensionConfig.ofConfig config).duration 1).nanos

variable {setting : Setting (StateM Volume)} {v v' : Volume} {file : ConnectionsFile}
  {key : ConnectionKey} {config : ConnectionConfig}

/-- The handle of a connection to the disk. -/
def diskHandle (config : ConnectionConfig) : Handle :=
  .fresh config.key .disk config.workingDir config.options (.ofConfig config) config.lock

/-- Of the connections that are in order, those to a directory of the disk are built. -/
theorem connect_standard (hvalid : config.fault? = none) :
    connect config .standard = .ok (diskHandle config) ∧ config.protocol = .file ∧
        config.workingDir.isAbsolute = true ∨
      (∃ e, connect config .standard = .error e) ∧
        ¬ (config.protocol = .file ∧ config.workingDir.isAbsolute = true) := by
  unfold connect
  rw [hvalid]
  cases hprotocol : config.protocol with
  | file =>
    have hfactory : Factories.standard.get? .file = some diskFactory := rfl
    simp only [hfactory, diskFactory]
    cases config.workingDir.isAbsolute with
    | true => exact .inl ⟨rfl, trivial, rfl⟩
    | false => exact .inr ⟨⟨_, rfl⟩, fun h => by cases h.2⟩
  | _ => exact .inr ⟨⟨_, rfl⟩, fun h => by cases h.1⟩

/-- An operation on a connection that is not built has failed when it begins. -/
theorem operate_unbuilt (writer : Diagnostics) (action : Action) (path : Path)
    (hfind : ∀ config, file.find? key = some config →
      ∃ e, connect config .standard = .error e) :
    ∃ e, ((Gateway.start writer).operate ⟨file, .standard⟩ key action path).2 =
      ⟨.start writer, [.finished (.operated (.error e))]⟩ := by
  have hnone : Registry.empty.lookup? key = none := rfl
  simp only [Gateway.operate, Gateway.start, Shared.start, Deployment.provide, hnone]
  cases hconfig : file.find? key with
  | none => exact ⟨_, rfl⟩
  | some config =>
    obtain ⟨-, rfl⟩ := ConnectionsFile.mem_of_find? hconfig
    obtain ⟨e, he⟩ := hfind config hconfig
    simp only [Registry.connect, Registry.provide, hnone, he]
    exact ⟨e, rfl⟩

/-- The gateway of an operation that has begun on a new connection. -/
def begun (writer : Diagnostics) (config : ConnectionConfig) (action : Action) (path : Path) :
    Gateway :=
  ⟨{ Shared.start writer with registry := ⟨[diskHandle config], [(config.key, 0)]⟩ },
    [.operating 0 (.resolving action
      ⟨0, config.name, .disk, config.workingDir.join path, config.options⟩)]⟩

/-- An operation on a connection that is built begins by resolving its path. -/
theorem operate_built (writer : Diagnostics) (action : Action) (path : Path)
    (hfind : file.find? key = some config)
    (hconnect : connect config .standard = .ok (diskHandle config)) :
    ((Gateway.start writer).operate ⟨file, .standard⟩ key action path).2 =
      begun writer config action path := by
  obtain ⟨-, rfl⟩ := ConnectionsFile.mem_of_find? hfind
  have hnone : Registry.empty.lookup? config.key = none := rfl
  have hkey : (diskHandle config).key = config.key := rfl
  simp only [Gateway.operate, Gateway.start, Shared.start, Deployment.provide, hnone, hfind,
    Registry.connect, Registry.provide, hconnect, hkey, if_true]
  rfl

/-- The move of an operation that is answered where its path leads changes the health of its
connection, and it does not wait for that any more. -/
theorem policies_resolving (writer : Diagnostics) (action : Action) {r : Resolve} {s : Shared}
    {h : Handle} (hr : r.handle = 0) (hbuilt : s.registry.built = [h]) (answer : Result FileRef) :
    let moved := (Operation.next 0 writer (.resolving action r)).resume answer s
    (Task.ofOperation 0 moved.1 moved.2).1.resolve? = none ∧
      (Task.ofOperation 0 moved.1 moved.2).2.policies =
        [match answer with
        | .ok _ => h.policy.succeed.2
        | .error _ => (h.policy.fail s.now).2] := by
  intro moved
  have hpast : Sharing.Past 0 (Task.ofOperation 0 moved.1 moved.2).1 :=
    .ofOperation (Sharing.next_resolving_ne writer action r answer s) _
  refine ⟨hpast.resolve?, (Shared.policies_ofOperation 0 _ _).trans ?_⟩
  have hmodified : ∀ change : Handle → Handle,
      (s.modifyHandle r.handle change).policies = [(change h).policy] := by
    intro change
    simp only [Shared.policies, Shared.modifyHandle, Registry.modify, hbuilt, hr]
    rfl
  rcases answer with f | file
  · exact hmodified _
  · have hresolved : ∀ s', (Operation.resolved action 0 file s').2.policies = s'.policies := by
      intro s'
      unfold Operation.resolved
      cases s'.handle? 0 with
      | none => rfl
      | some h' =>
        cases action with
        | write mode => exact Shared.detached_policies.write_start _ _ _ s'
        | _ => rfl
    exact (hresolved _).trans (hmodified _)

/-- What the answer of the disk makes of the health of a new connection stays so. -/
theorem settled_begun (hclock : ∀ v, (setting.clock v).2 = v) (config : ConnectionConfig)
    (action : Action) (path : Path) (transfer : Transfer) (v : Volume)
    (hfuel : 0 < setting.fuel) :
    ((begun setting.writer config action path).driveOnDisk setting.clock 0 setting.fuel
      transfer v).1.1.Settled
      [match ((DiskStore.resolve (config.workingDir.join path) : StateM Volume (Result FileRef))
        v).1 with
      | .ok _ => .fresh (.ofConfig config)
      | .error _ => ((SuspensionPolicy.fresh (.ofConfig config)).fail (setting.clock v).1).2] := by
  obtain ⟨fuel, hsucc⟩ := Nat.exists_eq_succ_of_ne_zero (Nat.pos_iff_ne_zero.1 hfuel)
  rw [hsucc, Gateway.driveOnDisk_succ hclock]
  generalize (setting.clock v).1 = now
  -- the answer to the resolve is the first one, and it comes at this moment
  have hnow : ((begun setting.writer config action path).advanceTo now).shared.now = now :=
    Nat.zero_max now
  have hmoved := fun answer => policies_resolving setting.writer action
    (r := ⟨0, config.name, .disk, config.workingDir.join path, config.options⟩)
    (s := ((begun setting.writer config action path).advanceTo now).shared) rfl rfl answer
  obtain ⟨hresolve, hpolicies⟩ := hmoved
    ((DiskStore.resolve (config.workingDir.join path) : StateM Volume (Result FileRef)) v).1
  rw [hnow] at hpolicies
  refine Gateway.Settled.drive ⟨hpolicies, ?_⟩ hclock _ _ _ _
  intro t ht
  rw [List.mem_singleton.1 ht]
  exact hresolve

/-- The health of a new connection overflows just if the answer of the disk makes the operation
abort the process. -/
theorem overflows_iff_abortsOver {path : Path} {now : Instant} (hprotocol : config.protocol = .file)
    (hrooted : config.workingDir.isAbsolute = true) :
    [match ((DiskStore.resolve (config.workingDir.join path) : StateM Volume (Result FileRef))
      v).1 with
    | .ok _ => .fresh (.ofConfig config)
    | .error _ => ((SuspensionPolicy.fresh (.ofConfig config)).fail now).2].any
      SuspensionPolicy.overflows = true ↔ AbortsOver config path now v := by
  simp only [List.any_cons, List.any_nil, Bool.or_false]
  cases hanswer : ((DiskStore.resolve (config.workingDir.join path) :
    StateM Volume (Result FileRef)) v).1 with
  | ok found =>
    constructor
    · intro habort
      cases habort
    · intro haborts
      exact absurd ⟨found, hanswer⟩ haborts.unresolved
  | error f =>
    simp only [SuspensionConfig.overflows_fail_fresh]
    constructor
    · rintro ⟨hlimit, hlate⟩
      refine ⟨hprotocol, hrooted, ?_, hlimit, hlate⟩
      rintro ⟨found, hfound⟩
      cases hanswer.symm.trans hfound
    · intro haborts
      exact ⟨haborts.limit, haborts.late⟩

/-- Without a connection there is no health to move. -/
theorem settled_failed (writer : Diagnostics) (e : Error) :
    Gateway.Settled [] ⟨Shared.start writer, [.finished (.operated (.error e))]⟩ := by
  refine ⟨rfl, ?_⟩
  intro t ht
  rw [List.mem_singleton.1 ht]
  rfl

/-- Once an operation has been performed, nobody waits for a resolve. A policy overflows just if
the operation aborts the process at the moment at which it has begun. -/
theorem perform_settles (hclock : ∀ v, (setting.clock v).2 = v) (hfile : file.Sound)
    (hfuel : 0 < setting.fuel) (key : ConnectionKey) (action : Action) (path : Path)
    (transfer : Transfer) (v : Volume) :
    ∃ policies, ((perform setting ⟨file, .standard⟩ key action path transfer
        (.start setting.writer) : StateM Volume _) v).1.2.2.Settled policies ∧
      (policies.any SuspensionPolicy.overflows = true ↔ ∃ config, file.find? key = some config ∧
        AbortsOver config path (setting.clock v).1 v) := by
  rw [perform_eq]
  simp only [FileCall.operate_fst]
  have hvalid : ∀ config, file.find? key = some config → config.fault? = none :=
    fun config hfind => hfile.valid config (ConnectionsFile.mem_of_find? hfind).1
  by_cases hbuilt : ∃ config, file.find? key = some config ∧ config.protocol = .file ∧
      config.workingDir.isAbsolute = true
  · obtain ⟨config, hfind, hdisk⟩ := hbuilt
    rcases connect_standard (hvalid config hfind) with ⟨hconnect, -⟩ | ⟨-, hother⟩
    · rw [operate_built setting.writer action path hfind hconnect]
      refine ⟨_, settled_begun hclock config action path transfer v hfuel, ?_⟩
      rw [overflows_iff_abortsOver hdisk.1 hdisk.2]
      simp only [hfind, Option.some.injEq, exists_eq_left']
    · exact absurd hdisk hother
  · have hrefused : ∀ config, file.find? key = some config →
        ∃ e, connect config .standard = .error e := by
      intro config hfind
      rcases connect_standard (hvalid config hfind) with ⟨-, hdisk⟩ | ⟨herror, -⟩
      · exact absurd ⟨config, hfind, hdisk⟩ hbuilt
      · exact herror
    obtain ⟨e, he⟩ := operate_unbuilt setting.writer action path hrefused
    rw [he]
    refine ⟨[], (settled_failed setting.writer e).drive hclock _ _ _ _, ?_⟩
    constructor
    · intro habort
      cases habort
    · rintro ⟨config, hfind, haborts⟩
      exact absurd ⟨config, hfind, haborts.protocol, haborts.rooted⟩ hbuilt

/-! ## Commands -/

/-- The operation of a command aborts the process at a moment. -/
def Command.Aborts (file : ConnectionsFile) (key : ConnectionKey) (now : Instant) (v : Volume)
    (command : Command) : Prop :=
  ∃ config, file.find? key = some config ∧ AbortsOver config command.path now v

/-- What a command begins with leaves the directories as they are. -/
theorem Command.Begins.alike {base : Volume} {command : Command} {action : Action}
    {transfer : Transfer} (h : command.Begins file key v action transfer v')
    (ha : base.Alike v) (hb : base.Rooted) : base.Alike v' := by
  cases h with
  | readTo path output id v' opened =>
    obtain ⟨_, -, hopens⟩ := Volume.openWrite_ok ha hb opened
    exact ha.trans hopens.alike
  | writeFrom path input append scheme expiry lock id v' chosen opened =>
    exact ha.trans (Volume.streamed_openRead opened).alike
  | _ => exact ha

theorem AbortsOver.alike {path : Path} {now : Instant} (h : AbortsOver config path now v)
    (halike : v.Alike v') : AbortsOver config path now v' :=
  { h with unresolved := fun hresolves => h.unresolved (halike.resolves_iff.1 hresolves) }

/-- Whether a command aborts the process depends on the directories and links alone. -/
theorem Command.Aborts.alike {command : Command} {now : Instant}
    (h : command.Aborts file key now v) (halike : v.Alike v') :
    command.Aborts file key now v' := by
  obtain ⟨config, hfind, haborts⟩ := h
  exact ⟨config, hfind, haborts.alike halike⟩

/-- Closing the connections does nothing to their health. -/
theorem closeAll_settles (hclock : ∀ v, (setting.clock v).2 = v)
    {policies : List SuspensionPolicy} {g : Gateway} (h : g.Settled policies) (space : String)
    (v : Volume) : ((closeAll setting space g : StateM Volume _) v).1.Settled policies := by
  cases habort : g.isAborted with
  | true =>
    rw [closeAll_aborted setting space habort]
    exact h
  | false =>
    rw [closeAll_eq setting space habort]
    exact (h.shutdown space).drive hclock _ _ _ _

end CommandLine

end FileGateway

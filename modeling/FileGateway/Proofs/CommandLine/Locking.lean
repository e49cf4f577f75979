import FileGateway.Proofs.CommandLine.Faithful
import FileGateway.Proofs.Connection.Accepted
import FileGateway.Proofs.Gateway.Abiding
import FileGateway.Proofs.Operation.Phase

/-!
# The lock of a write

The scheme and the expiry of a write's lock come from three places: the command line, the connection
in the file, and the handle that was built for it. What the command line says goes before the
connection, setting by setting (`LockConfig.overriddenBy`), and a lease is acquired just with what
that makes (`locks_setting_by_setting`), wherever it was taken from. A lock whose leases could never
be held is refused before anything is opened, asked for or built.

The invariant is about the tasks of the gateway: an operation that resolves its path still carries
the override, and one that writes has made its lock of it (`Task.LocksWith`).
-/

namespace FileGateway

/-- The settings that are given, and for the others those of the lock. -/
def LockConfig.overriddenBy (lock : LockConfig) (scheme : Option LockScheme)
    (expiry : Option Duration) : LockConfig :=
  ⟨scheme.getD lock.scheme, expiry.getD lock.expiry⟩

/-- The lock of a connection. Where there is no connection, nothing is locked. -/
def ConnectionsFile.lockOf (file : ConnectionsFile) (key : ConnectionKey) : LockConfig :=
  ((file.find? key).map ConnectionConfig.lock).getD .default

/-- A write takes a lease just if its lock says so, and the lease lasts as long as its lock says. -/
def Write.Place.LocksWith (lock : LockConfig) : Write.Place → Prop
  | .locking a _ => lock.scheme = .marker ∧ a.expiry = lock.expiry
  | .copying lease _ => lease.isSome = true ↔ lock.scheme = .marker
  | .unlocking _ _ _ _ => lock.scheme = .marker

/-- A write that has not begun yet will have its lock from its override, or else from the handle;
one that has begun has that lock. No lease is acquired for anything but a write. -/
def Task.LocksWith (configured lock : LockConfig) : Task → Prop
  | .acquiring _ _ => False
  | .operating _ (.resolving action _) =>
    ∃ mode, action = .write mode ∧ mode.lock.getD configured = lock
  | .operating _ (.writing _ place) => place.LocksWith lock
  | _ => True

/-! ## Validity -/

namespace ConnectionConfig

/-- A configuration that is in order has a lock whose leases can be held. -/
theorem isVoid_of_fault? {config : ConnectionConfig} (h : config.fault? = none) :
    config.lock.isVoid = false := by
  by_contra hvoid
  rw [Bool.not_eq_false] at hvoid
  unfold fault? at h
  rw [if_pos hvoid] at h
  repeat' split at h
  all_goals cases h

end ConnectionConfig

theorem ConnectionsFile.Sound.isVoid_lockOf {file : ConnectionsFile} (h : file.Sound)
    (key : ConnectionKey) : (file.lockOf key).isVoid = false := by
  unfold lockOf
  cases hfind : file.find? key with
  | none => rfl
  | some config =>
    exact ConnectionConfig.isVoid_of_fault? (h.valid config (mem_of_find? hfind).1)

theorem LockConfig.expiry_pos {lock : LockConfig} (h : lock.isVoid = false)
    (hscheme : lock.scheme = .marker) : 0 < lock.expiry.nanos := by
  refine Nat.pos_of_ne_zero fun hzero => ?_
  simp [isVoid, hscheme, hzero] at h

/-! ## Writes -/

namespace Write

variable {lock : LockConfig} {t : Target} {s : Shared}

theorem locksWith_locked {a : Acquire} (hscheme : lock.scheme = .marker)
    (result : Except Error Bool) {place : Place} (h : locked a result = .paused place) :
    place.LocksWith lock := by
  rcases result with e | (_ | _)
  · cases h
  · cases h
  · cases h
    exact iff_of_true rfl hscheme

theorem locksWith_lockStep {a : Acquire} (hscheme : lock.scheme = .marker)
    (hexpiry : a.expiry = lock.expiry) (step : Step Acquire.Place (Except Error Bool))
    {place : Place} (h : lockStep a step = .paused place) : place.LocksWith lock := by
  cases step with
  | paused q =>
    cases h
    exact ⟨hscheme, hexpiry⟩
  | done result => exact locksWith_locked hscheme result h

theorem locksWith_start (options : Options) {place : Place}
    (h : (start t options lock s).1 = .paused place) : place.LocksWith lock := by
  unfold start at h
  cases hscheme : lock.scheme with
  | none =>
    rw [hscheme] at h
    cases h
    exact iff_of_false nofun (by rw [hscheme]; nofun)
  | marker =>
    rw [hscheme] at h
    cases hfresh : Lease.fresh t.file.path with
    | error e =>
      rw [hfresh] at h
      cases h
    | ok lease =>
      rw [hfresh] at h
      exact locksWith_lockStep hscheme rfl _ h

theorem locksWith_copied {lease : Option LeaseId}
    (hlease : lease.isSome = true ↔ lock.scheme = .marker) (result : Result Nat) {place : Place}
    (h : (copied t lease result s).1 = .paused place) : place.LocksWith lock := by
  cases lease with
  | none => cases h
  | some id =>
    simp only [copied] at h
    cases hstart : (Release.start id s).1 with
    | paused q =>
      rw [hstart] at h
      cases h
      exact hlease.1 rfl
    | done released =>
      rw [hstart] at h
      cases h

/-- A write goes on with its lock, whatever it is answered. -/
theorem locksWith_next {writer : Diagnostics} {place : Place} (hplace : place.LocksWith lock)
    (answer : (next t writer place).request.Answer) {place' : Place}
    (h : ((next t writer place).resume answer s).1 = .paused place') : place'.LocksWith lock := by
  cases place with
  | locking a q => exact locksWith_lockStep hplace.1 hplace.2 _ h
  | copying lease q =>
    simp only [next, Pending.map] at h
    generalize (Copy.next t.backend t.file t.append q).resume answer = step at h
    cases step with
    | paused q' =>
      cases h
      exact hplace
    | done result => exact locksWith_copied hplace result h
  | unlocking lease marker q result =>
    simp only [next, Pending.map] at h
    generalize (Surrender.next ⟨lease, false⟩ q).resume answer s = moved at h
    obtain ⟨_ | _, s'⟩ := moved
    · cases h
      exact hplace
    · cases h

end Write

/-! ## Tasks -/

namespace Task

variable {configured lock : LockConfig} {s : Shared}

theorem locksWith_ofStep {π ρ : Type} {place : π → Task} {result : ρ → TaskResult}
    (h : ∀ p, (place p).LocksWith configured lock) (step : Step π ρ) :
    (ofStep place result step).LocksWith configured lock := by
  cases step with
  | paused p => exact h p
  | done r => trivial

theorem locksWith_ofOperation {id : HandleId} {step : Step Operation.Place (Except Error Effect)}
    (h : ∀ place, step = .paused place → (operating id place).LocksWith configured lock)
    (s : Shared) : (ofOperation id step s).1.LocksWith configured lock := by
  cases step with
  | paused place => exact h place rfl
  | done result => trivial

theorem locksWith_writeStep {id : HandleId} {t : Write.Target}
    {step : Step Write.Place (Except Error Nat)}
    (h : ∀ place, step = .paused place → place.LocksWith lock) (s : Shared) :
    (ofOperation id (Operation.writeStep t step) s).1.LocksWith configured lock := by
  refine locksWith_ofOperation (fun place hplace => ?_) s
  cases step with
  | paused q =>
    cases hplace
    exact h q rfl
  | done result => cases hplace

/-- The path of a write is resolved: its lock is made. -/
theorem locksWith_resolved {id : HandleId} {mode : WriteMode} (file : FileRef)
    (hhandles : ∀ h, s.handle? id = some h → h.lock = configured) (s' : Shared) :
    (ofOperation id (Operation.resolved (.write mode) id file s).1 s').1.LocksWith configured
      (mode.lock.getD configured) := by
  unfold Operation.resolved
  cases hh : s.handle? id with
  | none => trivial
  | some h =>
    rw [← hhandles h hh]
    exact locksWith_writeStep (fun place => Write.locksWith_start h.options) s'

theorem locksWith_operating {grounds : Backend × Path × LockConfig}
    (hgrounds : ∀ x ∈ s.registry.built.map Handle.grounds, x = grounds) {id : HandleId}
    {place : Operation.Place} (hplace : (operating id place).LocksWith grounds.2.2 lock)
    {p : Pending (Shared → Task × Shared)} (hp : (operating id place).next? s = some p)
    (answer : p.request.Answer) : (p.resume answer s).1.LocksWith grounds.2.2 lock := by
  cases hp
  cases place with
  | resolving action r =>
    obtain ⟨mode, rfl, rfl⟩ := hplace
    rcases answer with f | file
    · trivial
    · refine locksWith_resolved file (fun h hh => ?_) _
      -- the health of the connection is noted, which is no matter of its lock
      have hsame : (r.succeed file s).2.registry.built.map Handle.grounds =
          s.registry.built.map Handle.grounds :=
        Shared.lasting_grounds.resolve_next r (.ok file) s
      have hmem : h.grounds ∈ s.registry.built.map Handle.grounds :=
        hsame ▸ List.mem_map_of_mem (List.mem_of_getElem? hh)
      exact congrArg (fun x => x.2.2) (hgrounds _ hmem)
  | writing t q =>
    exact locksWith_writeStep (fun place => Write.locksWith_next hplace answer) _
  | probing backend file => trivial
  | deleting backend file => trivial
  | reading backend file q =>
    refine locksWith_ofOperation (fun place hplace => ?_) _
    -- a read goes on as a read
    change Step.map _ _ ((Read.next backend file q).resume answer) = _ at hplace
    cases hstep : (Read.next backend file q).resume answer with
    | paused q' =>
      rw [hstep] at hplace
      cases hplace
      trivial
    | done result =>
      rw [hstep] at hplace
      cases hplace

/-- Whatever tasks are answered, they keep to the lock. -/
theorem abiding_locksWith (grounds : Backend × Path × LockConfig) (lock : LockConfig) :
    Abiding grounds (LocksWith grounds.2.2 lock) := by
  refine ⟨fun lease => trivial, ?_⟩
  intro t s p ht hgrounds hp answer
  cases t with
  | acquiring a place => exact ht.elim
  | operating id place => exact locksWith_operating hgrounds ht hp answer
  | releasing lease marker strict place =>
    cases hp
    apply locksWith_ofStep
    intro q
    trivial
  | expiring lease place =>
    cases hp
    apply locksWith_ofStep
    intro q
    trivial
  | resolving r =>
    cases hp
    apply locksWith_ofStep
    intro q
    trivial
  | closing id background =>
    cases hp
    trivial
  | evicting id rest count =>
    cases hp
    cases rest <;> trivial
  | finished result => cases hp

end Task

/-! ## Command lines -/

namespace CommandLine

variable {setting : Setting (StateM Volume)} {file : ConnectionsFile} {key : ConnectionKey}
  {scheme : Option LockScheme} {expiry : Option Duration}

/-- A void lock is refused, whichever of its settings the command line has given. -/
theorem chosenLock_void (hfile : file.Sound)
    (h : ((file.lockOf key).overriddenBy scheme expiry).isVoid = true) :
    chosenLock file key scheme expiry = .error (.plain LockConfig.voidMessage) := by
  unfold chosenLock
  split
  · next hgiven =>
    -- without settings the lock is that of the connection, which is in order
    rw [Bool.and_eq_true, Option.isNone_iff_eq_none, Option.isNone_iff_eq_none] at hgiven
    rw [hgiven.1, hgiven.2] at h
    exact absurd h (Bool.eq_false_iff.1 (hfile.isVoid_lockOf key))
  · exact if_pos h

/-- Only a void lock is refused. -/
theorem isVoid_of_chosenLock {scheme : Option LockScheme} {expiry : Option Duration} {f : Failure}
    (h : chosenLock file key scheme expiry = .error f) :
    ((file.lockOf key).overriddenBy scheme expiry).isVoid = true := by
  unfold chosenLock at h
  split at h
  · cases h
  · simp only at h
    split at h
    · next hvoid => exact hvoid
    · cases h

/-- A lock that is accepted is not void, and makes the same lock of the connection's as its settings
do. -/
theorem chosenLock_valid (hfile : file.Sound) {lock : Option LockConfig}
    (h : chosenLock file key scheme expiry = .ok lock) :
    lock.getD (file.lockOf key) = (file.lockOf key).overriddenBy scheme expiry ∧
      ((file.lockOf key).overriddenBy scheme expiry).isVoid = false := by
  unfold chosenLock at h
  split at h
  · next hgiven =>
    rw [Bool.and_eq_true, Option.isNone_iff_eq_none, Option.isNone_iff_eq_none] at hgiven
    cases h
    rw [hgiven.1, hgiven.2]
    exact ⟨rfl, hfile.isVoid_lockOf key⟩
  · simp only at h
    split at h
    · cases h
    · next hvoid =>
      cases h
      exact ⟨rfl, Bool.eq_false_iff.2 hvoid⟩

/-- All tasks of a gateway on which a write was performed have kept to its lock. -/
theorem perform_locks {config : ConnectionConfig} (hfind : file.find? key = some config)
    (mode : WriteMode) (path : Path) (transfer : Transfer) (v : Volume) {id : TaskId} {t : Task}
    (ht : ((perform setting ⟨file, .standard⟩ key (.write mode) path transfer
      (.start setting.writer) : StateM Volume _) v).1.2.2.task? id = some t) :
    t.LocksWith config.lock (mode.lock.getD config.lock) := by
  have hstart : ((Gateway.start setting.writer).operate ⟨file, .standard⟩ key (.write mode)
      path).2.Abides (.disk, config.workingDir, config.lock)
        (Task.LocksWith config.lock (mode.lock.getD config.lock)) :=
    operate_abides hfind (fun _ => trivial) fun _ _ => ⟨mode, rfl, rfl⟩
  rw [perform_eq] at ht
  exact (hstart.drive (Task.abiding_locksWith _ _) setting.clock _ setting.fuel transfer v).tasks
    id t ht

/-- Without the connection, nothing is written. -/
theorem perform_unlocked (hfind : file.find? key = none) (action : Action) (path : Path)
    (transfer : Transfer) (v : Volume) {id : TaskId} {t : Task}
    (ht : ((perform setting ⟨file, .standard⟩ key action path transfer
      (.start setting.writer) : StateM Volume _) v).1.2.2.task? id = some t) : t.IsIdle := by
  have hstart : ((Gateway.start setting.writer).operate ⟨file, .standard⟩ key action
      path).2.Abides (.disk, path, .default) Task.IsIdle := operate_idle hfind _
  rw [perform_eq] at ht
  exact (hstart.drive (Task.abiding_isIdle _) setting.clock _ setting.fuel transfer v).tasks id t ht

/-- A write that is carried out has kept to its lock at every moment. -/
theorem carryOut_locks (hfile : file.Sound) {path : Path} {content : Content} {append : Bool}
    {v : Volume} {id : TaskId} {t : Task}
    (ht : ((carryOut setting file key (.write path content append scheme expiry)
      (.start setting.writer) : StateM Volume _) v).1.2.task? id = some t) :
    t.IsIdle ∨ ∃ config, file.find? key = some config ∧
      t.LocksWith config.lock (config.lock.overriddenBy scheme expiry) ∧
      (config.lock.overriddenBy scheme expiry).isVoid = false := by
  simp only [carryOut] at ht
  cases hlock : chosenLock file key scheme expiry with
  | error f =>
    rw [hlock] at ht
    cases ht
  | ok lock =>
    rw [hlock] at ht
    simp only [stateM_bind] at ht
    generalize (openContent content : StateM Volume _) v = opened at ht
    obtain ⟨_ | supply, v'⟩ := opened
    · cases ht
    · simp only [stateM_bind, stateM_pure] at ht
      cases hfind : file.find? key with
      | none => exact .inl (perform_unlocked hfind _ path _ v' ht)
      | some config =>
        have hvalid := chosenLock_valid hfile hlock
        have hconfigured : file.lockOf key = config.lock := by
          rw [ConnectionsFile.lockOf, hfind]
          rfl
        rw [hconfigured] at hvalid
        refine .inr ⟨config, rfl, ?_, hvalid.2⟩
        rw [← hvalid.1]
        exact perform_locks hfind ⟨append, lock⟩ path _ v' ht

/-- Whatever the command line says of the lock of a write: a lock that would be void is refused, and
neither the gateway nor the volume has changed then; and at every moment of any other write, a lease
is acquired just for the write itself, if the scheme asks for one, and to last for the expiry, which
is not zero. Scheme and expiry are what the command line says, and else what the connection says. -/
theorem locks_setting_by_setting {text : String} (hfile : ConnectionsFile.parse text = .ok file)
    (setting : Setting (StateM Volume)) (key : ConnectionKey) (path : Path) (content : Content)
    (append : Bool) (scheme : Option LockScheme) (expiry : Option Duration) (v : Volume) :
    (((file.lockOf key).overriddenBy scheme expiry).isVoid = true → ∀ g,
      (carryOut setting file key (.write path content append scheme expiry) g : StateM Volume _) v =
        ((.error (.plain LockConfig.voidMessage), g), v)) ∧
    ∀ id t, ((carryOut setting file key (.write path content append scheme expiry)
        (.start setting.writer) : StateM Volume _) v).1.2.task? id = some t →
      (∀ a place, t ≠ .acquiring a place) ∧
      ∀ target place, t.write? = some (target, place) → ∃ config,
        file.find? key = some config ∧
        place.LocksWith (config.lock.overriddenBy scheme expiry) ∧
        ∀ a q, place = .locking a q → 0 < a.expiry.nanos := by
  have hsound := (ConnectionsFile.parse_eq_ok_iff.1 hfile).2
  constructor
  · intro hvoid g
    simp only [carryOut, chosenLock_void hsound hvoid]
    rfl
  · intro id t ht
    have hlocks := carryOut_locks hsound ht
    refine ⟨?_, fun target place hwrite => ?_⟩
    · rintro a place rfl
      rcases hlocks with hidle | ⟨config, -, hlocks, -⟩
      · exact hidle
      · exact hlocks
    · obtain ⟨handle, rfl⟩ := Task.eq_of_write? hwrite
      rcases hlocks with hidle | ⟨config, hfind, hlocks, hvalid⟩
      · exact hidle.elim
      · refine ⟨config, hfind, hlocks, ?_⟩
        rintro a q rfl
        rw [hlocks.2]
        exact LockConfig.expiry_pos hvalid hlocks.1

/-- A connection whose writes are locked for two seconds unless the command line says otherwise. -/
def guarded : String :=
  "\x7b\"connections\": [\x7b\"name\": \"l\", \"namespace\": \"o\", \"protocol\": \"file\", " ++
    "\"working_dir\": \"/data\", \"lock\": \x7b\"scheme\": \"marker\", \"expiry\": \"2s\"\x7d\x7d]\x7d"

/-- The command line leaves the scheme to the connection, and gives an expiry: of no time, which is
refused, and of a minute, when the write has just resolved its path. -/
theorem locks_setting_by_setting_guarded : ∃ file, ConnectionsFile.parse guarded = .ok file ∧
    let command (expiry : Duration) : Command :=
      .write ⟨"f"⟩ (.text "x") false none (some expiry)
    (∀ g, (carryOut still file ⟨"o", "l"⟩ (command (.ofSeconds 0)) g : StateM Volume _) desk =
      ((.error (.plain LockConfig.voidMessage), g), desk)) ∧
    ∃ t target place config, ((carryOut { still with fuel := 1 } file ⟨"o", "l"⟩
        (command (.ofSeconds 60)) (.start still.writer) : StateM Volume _) desk).1.2.task? 0 = some t ∧
      t.write? = some (target, place) ∧ file.find? ⟨"o", "l"⟩ = some config ∧
      place.LocksWith (config.lock.overriddenBy none (some (.ofSeconds 60))) := by
  cases hfile : ConnectionsFile.parse guarded with
  | error fault =>
    have hok : (ConnectionsFile.parse guarded).toOption.isSome = true := by decide +kernel
    rw [hfile] at hok
    cases hok
  | ok file =>
    have hlock : (ConnectionsFile.parse guarded).toOption.map
        (fun file => ((file.lockOf ⟨"o", "l"⟩).overriddenBy none (some (.ofSeconds 0))).isVoid) =
          some true := by
      decide +kernel
    have hwrites : (ConnectionsFile.parse guarded).toOption.map (fun file =>
        ((((carryOut { still with fuel := 1 } file ⟨"o", "l"⟩
          (.write ⟨"f"⟩ (.text "x") false none (some (.ofSeconds 60))) (.start still.writer) :
            StateM Volume _) desk).1.2.task? 0).bind Task.write?).isSome) = some true := by
      decide +kernel
    rw [hfile] at hlock hwrites
    refine ⟨file, rfl, (locks_setting_by_setting hfile still _ _ _ _ _ _ desk).1
      (Option.some.inj hlock), ?_⟩
    obtain ⟨write, hwrite⟩ := Option.isSome_iff_exists.1 (Option.some.inj hwrites)
    obtain ⟨t, ht, hwrite⟩ := Option.bind_eq_some_iff.1 hwrite
    obtain ⟨config, hfind, hlocks, -⟩ := ((locks_setting_by_setting hfile { still with fuel := 1 }
      _ _ _ _ _ _ desk).2 0 t ht).2 write.1 write.2 hwrite
    exact ⟨t, write.1, write.2, config, ht, hwrite, hfind, hlocks⟩

end CommandLine

end FileGateway

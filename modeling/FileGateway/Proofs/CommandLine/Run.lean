import FileGateway.CommandLine.Program
import FileGateway.Proofs.Gateway.Abiding
import FileGateway.Proofs.Operation.Session

/-!
# Executing an invocation on a volume

An invocation without a log file is executed in stages: the connections file is loaded, the
operation is performed, and the connections are closed (`execute_ok`). Up to the operation no more
is done than to open streams (`Volume.Streamed`); the operation is undertaken by a gateway that has
no other task (`perform_undertakes`); and what has come of it lasts while the connections are closed
(`closeAll_lasts`).
-/

namespace FileGateway

open CommandLine (Transfer)

/-! ## Up to the operation -/

namespace Volume

variable {v v' : Volume} {id : StreamId}

theorem Streamed.agreeAt (h : v.Streamed v') (place : Place) : v.tree.AgreeAt v'.tree place :=
  FileTree.agreeAt_of_eq (by rw [h.tree])

theorem streamed_openRead {path : Path} (h : v.openRead path = .ok (id, v')) : v.Streamed v' := by
  unfold Volume.openRead at h
  cases hwalk : v.walk .follow path with
  | error e =>
    rw [hwalk] at h
    cases h
  | ok spot =>
    rw [hwalk] at h
    simp only [bind, Except.bind] at h
    split at h
    · cases h
    · cases h
      exact ⟨rfl, rfl⟩
    · split at h
      · cases h
      · cases h
        exact ⟨rfl, rfl⟩

/-- One piece is read, and then what is left. -/
theorem readToEnd_succ (id : StreamId) (fuel : Nat) (v : Volume) :
    (FileAccess.readToEnd id (fuel + 1) : StateM Volume (SystemResult Bytes)) v =
      match v.read id with
      | .error e => (.error e, v)
      | .ok ([], v') => (.ok [], v')
      | .ok (piece, v') =>
        let rest := (FileAccess.readToEnd id fuel : StateM Volume (SystemResult Bytes)) v'
        (rest.1.map (piece ++ ·), rest.2) := by
  simp only [FileAccess.readToEnd, stateM_bind, FileAccess.read, act]
  cases hread : v.read id with
  | error e => rfl
  | ok found =>
    obtain ⟨_ | ⟨first, rest⟩, v'⟩ := found
    · rfl
    · simp only [stateM_bind]
      generalize (FileAccess.readToEnd id fuel : StateM Volume (SystemResult Bytes)) v' = read
      obtain ⟨_ | _, v''⟩ := read <;> rfl

theorem streamed_readToEnd (id : StreamId) (fuel : Nat) (v : Volume) :
    v.Streamed ((FileAccess.readToEnd id fuel : StateM Volume (SystemResult Bytes)) v).2 := by
  induction fuel generalizing v with
  | zero => exact .refl v
  | succ fuel ih =>
    rw [readToEnd_succ]
    cases hread : v.read id with
    | error e => exact .refl v
    | ok found =>
      obtain ⟨_ | ⟨first, rest⟩, v'⟩ := found
      · exact streamed_read hread
      · exact (streamed_read hread).trans (ih v')

end Volume

namespace CommandLine

variable {setting : Setting (StateM Volume)} {v v' : Volume}

theorem streamed_loadFile (path : Path) (fuel : Nat) (v : Volume) :
    v.Streamed ((loadFile path fuel : StateM Volume (Result ConnectionsFile)) v).2 := by
  have hread : v.Streamed ((FileAccess.readFile path fuel : StateM Volume _) v).2 := by
    simp only [FileAccess.readFile, bind, StateT.bind, FileAccess.openRead, Volume.act]
    cases hcall : v.openRead path with
    | error e => exact .refl v
    | ok opened =>
      obtain ⟨id, v'⟩ := opened
      exact (Volume.streamed_openRead hcall).trans (Volume.streamed_readToEnd id fuel v')
  simp only [loadFile, bind, StateT.bind]
  generalize (FileAccess.readFile path fuel : StateM Volume _) v = read at hread ⊢
  obtain ⟨_ | _, v'⟩ := read <;> exact hread

/-! ## The operation -/

section

variable {base : Volume} {keep : Place → Prop} {grounds : Backend × Path × LockConfig}
  {transfer : Transfer} {P : Task → Volume → Prop} {file : ConnectionsFile} {key : ConnectionKey}
  {action : Action} {path : Path} {writer : Diagnostics}

/-- The handle of a connection to the disk. -/
theorem grounds_of_connect {config : ConnectionConfig} {h : Handle}
    (hconnect : connect config .standard = .ok h) :
    h.key = config.key ∧ h.grounds = (.disk, config.workingDir, config.lock) := by
  unfold connect at hconnect
  split at hconnect
  · cases hconnect
  split at hconnect
  · cases hconnect
  · next factory hfactory =>
    -- there is one factory, and it builds the store on the disk
    have hdisk : factory = diskFactory := by
      unfold Factories.get? Factories.standard at hfactory
      cases hprotocol : config.protocol <;> rw [hprotocol] at hfactory <;> cases hfactory
      rfl
    subst hdisk
    split at hconnect
    · cases hconnect
    · next backend hbackend =>
      unfold diskFactory at hbackend
      split at hbackend
      · cases hbackend
        cases hconnect
        exact ⟨rfl, rfl⟩
      · cases hbackend

/-- Whatever handle is built for a connection, it is one to the disk. -/
theorem grounds_of_provide {config : ConnectionConfig} (hfind : file.find? key = some config) :
    ∀ x ∈ (Deployment.provide ⟨file, .standard⟩ .empty key).registry.built.map Handle.grounds,
      x = (.disk, config.workingDir, config.lock) := by
  obtain ⟨-, rfl⟩ := ConnectionsFile.mem_of_find? hfind
  have hnone : Registry.empty.lookup? config.key = none := rfl
  simp only [Deployment.provide, hnone, hfind, Registry.connect, Registry.provide]
  cases hconnect : connect config .standard with
  | error e =>
    intro x hx
    cases hx
  | ok h =>
    obtain ⟨hkey, hgrounds⟩ := grounds_of_connect hconnect
    rw [← hgrounds]
    simp only [hkey, if_true]
    exact fun x hx => List.mem_singleton.1 hx

/-- The first task of a gateway is undertaken. There are no leases, and no other tasks. -/
theorem add_undertakes (ha : base.Alike v) {task : Task} {s : Shared} (hleases : s.leases = [])
    (hgrounds : ∀ x ∈ s.registry.built.map Handle.grounds, x = grounds) (hP : P task v) :
    ((Gateway.start writer).add task s).2.Undertakes base keep grounds 0 P v := by
  refine ⟨ha, fun id l held hl => ?_, hgrounds, ⟨task, rfl, hP⟩, fun id t ht hid => ?_⟩
  · have hnil : s.leases[id]? = some l := hl
    rw [hleases] at hnil
    cases hnil
  · rcases id with _ | id
    · exact absurd rfl hid
    · cases ht

/-- A gateway that has done nothing yet undertakes an operation on a connection. -/
theorem operate_undertakes (ha : base.Alike v) {config : ConnectionConfig}
    (hfind : file.find? key = some config)
    (hfails : ∀ e, P (.finished (.operated (.error e))) v)
    (hresolves : ∀ id (r : Resolve), r.path = config.workingDir.join path →
      P (.operating id (.resolving action r)) v) :
    ((Gateway.start writer).operate ⟨file, .standard⟩ key action path).2.Undertakes base keep
      (.disk, config.workingDir, config.lock) 0 P v := by
  have hgrounds := grounds_of_provide hfind
  simp only [Gateway.operate, Gateway.start, Shared.start]
  generalize Deployment.provide ⟨file, .standard⟩ .empty key = creation at hgrounds ⊢
  cases creation.handle with
  | error e => exact add_undertakes ha rfl hgrounds (hfails e)
  | ok id =>
    have hfailed : ∀ {e : Error} {s : Shared}, s.leases = [] →
        s.registry = creation.registry →
        ((Gateway.start writer).add (Task.ofOperation id (.done (.error e)) s).1
          (Task.ofOperation id (.done (.error e)) s).2).2.Undertakes base keep
          (.disk, config.workingDir, config.lock) 0 P v := by
      intro e s hleases hregistry
      refine add_undertakes ha hleases ?_ (hfails e)
      intro x hx
      refine hgrounds x ?_
      rw [← hregistry, ← Shared.lasting_grounds.ofOperation id (.done (.error e)) s]
      exact hx
    simp only [Operation.start, Resolve.start]
    cases hhandle : Shared.handle? _ id with
    | none => exact hfailed rfl rfl
    | some h =>
      simp only
      cases h.policy.attempt 0 with
      | error left => exact hfailed rfl rfl
      | ok _ =>
        have hbuilt := hgrounds _ (List.mem_map_of_mem (List.mem_of_getElem? hhandle))
        have hdir : h.baseDir = config.workingDir := congrArg (fun y => y.2.1) hbuilt
        refine add_undertakes ha rfl hgrounds (hresolves id _ ?_)
        rw [← hdir]
        rfl

/-- Without the connection, nothing is undertaken. -/
theorem operate_unknown (ha : base.Alike v) (hfind : file.find? key = none) :
    ((Gateway.start writer).operate ⟨file, .standard⟩ key action path).2.Undertakes base keep
      grounds 0 (fun t _ => ∃ e, t = .finished (.operated (.error e))) v := by
  have hnone : Registry.empty.lookup? key = none := rfl
  simp only [Gateway.operate, Gateway.start, Shared.start, Deployment.provide, hnone, hfind]
  exact add_undertakes ha rfl (fun x hx => by cases hx) ⟨_, rfl⟩

/-- A gateway that has begun nothing but an operation has one task: the operation resolves its path,
or has failed. -/
theorem tasks_operate (writer : Diagnostics) (d : Deployment) (key : ConnectionKey)
    (action : Action) (path : Path) :
    ∃ t, ((Gateway.start writer).operate d key action path).2.tasks = [t] ∧
      ((∃ e, t = .finished (.operated (.error e))) ∨
        ∃ id r, t = .operating id (.resolving action r)) := by
  have htask := Gateway.task?_operate (.start writer) d key action path
  have htasks : ∃ t, ((Gateway.start writer).operate d key action path).2.tasks = [t] := by
    simp only [Gateway.operate]
    split <;> exact ⟨_, rfl⟩
  obtain ⟨t, ht⟩ := htasks
  refine ⟨t, ht, ?_⟩
  unfold Gateway.task? at htask
  rw [ht] at htask
  exact htask.imp (Exists.imp fun _ => Option.some.inj)
    (Exists.imp fun _ => Exists.imp fun _ => Option.some.inj)

/-- All tasks of a gateway that has begun nothing but an operation on a connection abide, if that
does. -/
theorem operate_abides {Q : Task → Prop} {config : ConnectionConfig}
    (hfind : file.find? key = some config)
    (hfails : ∀ e, Q (.finished (.operated (.error e))))
    (hresolves : ∀ id r, Q (.operating id (.resolving action r))) :
    ((Gateway.start writer).operate ⟨file, .standard⟩ key action path).2.Abides
      (.disk, config.workingDir, config.lock) Q := by
  refine ⟨fun x hx => ?_, fun id t ht => ?_⟩
  · rw [Shared.lasting_grounds.operate] at hx
    exact grounds_of_provide hfind x hx
  · obtain ⟨u, htasks, hu⟩ := tasks_operate writer ⟨file, .standard⟩ key action path
    have hmem := List.mem_of_getElem? ht
    rw [htasks] at hmem
    cases List.mem_singleton.1 hmem
    rcases hu with ⟨e, rfl⟩ | ⟨handle, r, rfl⟩
    · exact hfails e
    · exact hresolves handle r

/-- Without the connection, nothing is begun. -/
theorem operate_idle (hfind : file.find? key = none) (grounds : Backend × Path × LockConfig) :
    ((Gateway.start writer).operate ⟨file, .standard⟩ key action path).2.Abides grounds
      Task.IsIdle := by
  have hnone : Registry.empty.lookup? key = none := rfl
  simp only [Gateway.operate, Gateway.start, Shared.start, Deployment.provide, hnone, hfind]
  refine ⟨fun x hx => ?_, fun id t ht => ?_⟩
  · cases hx
  · rcases id with _ | id
    · cases ht
      trivial
    · cases ht

/-- The operation is the next task, and the gateway is driven to the end of it. -/
theorem perform_eq (setting : Setting (StateM Volume)) (d : Deployment) (key : ConnectionKey)
    (action : Action) (path : Path) (transfer : Transfer) (g : Gateway) (v : Volume) :
    (perform setting d key action path transfer g : StateM Volume _) v =
      let started := g.operate d key action path
      let driven := started.2.driveOnDisk setting.clock started.1 setting.fuel transfer v
      let result := match driven.1.1.result? started.1 with
        | some (.operated result) => result
        | _ => .error (.invalidConfig "the operation has not ended")
      ((.ofResult action key path result, driven.1.2, driven.1.1), driven.2) :=
  rfl

/-- The operation has been undertaken; if its report is that of a success, the task of it has
ended so. -/
theorem perform_undertakes (hclock : ∀ v, (setting.clock v).2 = v) (hb : base.Rooted)
    (hP : Undertaking base keep grounds transfer P) {d : Deployment} {g g' : Gateway}
    (hg : g.tasks = [])
    (hstart : (g.operate d key action path).2.Undertakes base keep grounds 0 P v)
    {report : Report} {transfer' : Transfer}
    (h : (perform setting d key action path transfer g : StateM Volume _) v =
      ((report, transfer', g'), v')) :
    g'.Undertakes base keep grounds 0 P v' ∧ (report.isOk = true → ∃ effect,
      report.result = .ok effect ∧ g'.task? 0 = some (.finished (.operated (.ok effect)))) := by
  have hid : (g.operate d key action path).1 = 0 := by
    rw [FileCall.operate_fst, hg]
    rfl
  have hdriven := hstart.drive hb hP hclock 0 setting.fuel
  rw [perform_eq] at h
  simp only [hid] at h
  generalize (g.operate d key action path).2.driveOnDisk setting.clock 0 setting.fuel transfer v =
    driven at h hdriven
  cases h
  refine ⟨hdriven, fun hok => ?_⟩
  simp only [Report.isOk, Report.ofResult] at hok ⊢
  split at hok
  · next result hresult =>
    cases result with
    | error e => cases hok
    | ok effect => exact ⟨effect, rfl, Gateway.result?_eq.1 hresult⟩
  · cases hok

/-- A success is that of a configured connection. -/
theorem find_of_isOk (hclock : ∀ v, (setting.clock v).2 = v) (hb : base.Rooted)
    (ha : base.Alike v) {report : Report} {transfer' : Transfer} {g' : Gateway}
    (h : (perform setting ⟨file, .standard⟩ key action path transfer (.start writer) :
      StateM Volume _) v = ((report, transfer', g'), v')) (hok : report.isOk = true) :
    ∃ config, file.find? key = some config := by
  cases hfind : file.find? key with
  | some config => exact ⟨config, rfl⟩
  | none =>
    exfalso
    have hnothing : Undertaking base (fun _ => True) (.disk, path, .default) transfer
        (fun t _ => ∃ e, t = .finished (.operated (.error e))) := by
      refine ⟨fun hP _ => hP, ?_⟩
      rintro t v s p answer transfer' v' ⟨e, rfl⟩ - - - hp
      cases hp
    obtain ⟨hend, hended⟩ :=
      perform_undertakes hclock hb hnothing rfl (operate_unknown ha hfind) h
    obtain ⟨effect, -, heffect⟩ := hended hok
    obtain ⟨t, ht, e, rfl⟩ := hend.task
    rw [heffect] at ht
    cases ht

/-- The gateway is driven to the end of closing. -/
theorem closeAll_eq (setting : Setting (StateM Volume)) (space : String) {g : Gateway}
    (hruns : g.isAborted = false) (v : Volume) : (closeAll setting space g : StateM Volume _) v =
      let started := g.shutdown space
      let driven := started.2.driveOnDisk setting.clock started.1 setting.fuel .plain v
      (driven.1.1, driven.2) := by
  simp only [closeAll, hruns]
  rfl

/-- A process that has aborted closes nothing. -/
theorem closeAll_aborted (setting : Setting (StateM Volume)) (space : String) {g : Gateway}
    (habort : g.isAborted = true) (v : Volume) :
    (closeAll setting space g : StateM Volume _) v = (g, v) := by
  simp only [closeAll, habort]
  rfl

/-- What has come of an operation lasts while the connections are closed. -/
theorem closeAll_lasts (hclock : ∀ v, (setting.clock v).2 = v) (hb : base.Rooted)
    {g g' : Gateway} {result : TaskResult} {Q : Volume → Prop}
    (h : g.Undertakes base keep grounds 0 (fun t v => t = .finished result ∧ Q v) v)
    (hQ : ∀ {v v'}, Q v → v.Aside keep v' → Q v') {space : String}
    (hclose : (closeAll setting space g : StateM Volume _) v = (g', v')) : Q v' := by
  have hfinished : Undertaking base keep grounds .plain
      (fun t v => t = .finished result ∧ Q v) := by
    refine ⟨fun hP ha => ⟨hP.1, hQ hP.2 ha⟩, ?_⟩
    rintro t v s p answer transfer' v' ⟨rfl, -⟩ - - - hp
    cases hp
  cases habort : g.isAborted with
  | true =>
    rw [closeAll_aborted setting space habort] at hclose
    cases hclose
    obtain ⟨t, -, -, hQ'⟩ := h.task
    exact hQ'
  | false =>
    have hdriven := (h.shutdown space).drive hb hfinished hclock (g.shutdown space).1 setting.fuel
    rw [closeAll_eq setting space habort] at hclose
    cases hclose
    obtain ⟨t, -, -, hQ'⟩ := hdriven.task
    exact hQ'

/-- What an operation has come to, once it has succeeded, is so at the end. -/
theorem perform_lasts (hclock : ∀ v, (setting.clock v).2 = v) (hb : base.Rooted)
    (hP : Undertaking base keep grounds transfer P) {Q : Nat → Volume → Prop}
    (hdone : ∀ {effect v}, P (.finished (.operated (.ok effect))) v →
      ∃ count, effect = .copied count ∧ Q count v)
    (hQ : ∀ {count v v'}, Q count v → v.Aside keep v' → Q count v') {d : Deployment}
    {g g' : Gateway} (hg : g.tasks = [])
    (hstart : (g.operate d key action path).2.Undertakes base keep grounds 0 P v)
    {report : Report} {transfer' : Transfer}
    (h : (perform setting d key action path transfer g : StateM Volume _) v =
      ((report, transfer', g'), v')) (hok : report.isOk = true) {space : String}
    {closed : Gateway} {last : Volume}
    (hclose : (closeAll setting space g' : StateM Volume _) v' = (closed, last)) :
    ∃ count, report.result = .ok (.copied count) ∧ Q count last := by
  obtain ⟨hend, hended⟩ := perform_undertakes hclock hb hP hg hstart h
  obtain ⟨effect, hresult, htask⟩ := hended hok
  obtain ⟨t, ht, hfinished⟩ := hend.task
  rw [htask] at ht
  cases ht
  obtain ⟨count, rfl, hcount⟩ := hdone hfinished
  exact ⟨count, hresult, closeAll_lasts hclock hb
    ⟨hend.alike, hend.spares, hend.grounds, ⟨_, htask, rfl, hcount⟩, hend.bystanders⟩ hQ hclose⟩

end

/-! ## The execution -/

/-- Without a log file, the connections file is loaded first. -/
theorem execute_eq {inv : Invocation} (hlog : inv.debugLog = none)
    (setting : Setting (StateM Volume)) (v : Volume) :
    (execute setting inv : StateM Volume _) v =
      match (loadFile inv.config setting.fuel : StateM Volume (Result ConnectionsFile)) v with
      | (.error f, v') => ((.error f, none), v')
      | (.ok file, v') =>
        let carried := (carryOut setting file inv.connection inv.command (.start setting.writer) :
          StateM Volume _) v'
        let closed := (closeAll setting inv.connection.space carried.1.2 :
          StateM Volume _) carried.2
        ((carried.1.1, some closed.1), closed.2) := by
  simp only [execute, openLog, hlog, stateM_bind, stateM_pure]
  generalize (loadFile inv.config setting.fuel : StateM Volume (Result ConnectionsFile)) v = loaded
  obtain ⟨_ | _, v'⟩ := loaded <;> rfl

/-- An invocation that ends with a report has gone through all stages. -/
theorem execute_ok {inv : Invocation} {report : Report} {g : Option Gateway}
    (hlog : inv.debugLog = none)
    (h : (execute setting inv : StateM Volume _) v = ((.ok report, g), v')) :
    ∃ v₁ v₂ file g₁ g₂, (loadFile inv.config setting.fuel : StateM Volume _) v = (.ok file, v₁) ∧
      (carryOut setting file inv.connection inv.command (.start setting.writer) :
        StateM Volume _) v₁ = ((.ok report, g₁), v₂) ∧
      (closeAll setting inv.connection.space g₁ : StateM Volume _) v₂ = (g₂, v') := by
  rw [execute_eq hlog] at h
  generalize hloaded : (loadFile inv.config setting.fuel : StateM Volume _) v = loaded at h
  obtain ⟨_ | file, v₁⟩ := loaded
  · cases h
  · injection h with hresult hvolume
    injection hresult with hresult _
    exact ⟨v₁, _, file, _, _, rfl, Prod.ext (Prod.ext hresult rfl) rfl, Prod.ext rfl hvolume⟩

/-- A program prints what its invocation ends with, unless it has aborted. -/
theorem program_eq {args : List String} {inv : Invocation} (hread : Invocation.read args = .ok inv)
    (setting : Setting (StateM Volume)) (v : Volume) :
    ((program setting args : StateM Volume Ending) v).1 =
      let executed := ((execute setting inv : StateM Volume _) v).1
      if executed.2.any Gateway.isAborted then .aborted else inv.ending executed.1 := by
  simp only [program, hread]
  rfl

end CommandLine

end FileGateway

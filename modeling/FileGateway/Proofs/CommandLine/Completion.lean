import FileGateway.Proofs.CommandLine.Beginning
import FileGateway.Proofs.Operation.Fetch
import FileGateway.Proofs.Operation.Intake

/-!
# Commands that come to an end

What a command begins comes to an end if there is an end to the bytes that it moves
(`Command.exists_endsWithin`). There is none if it reads from the device without an end, or appends
to a file what it reads from that file itself (`Command.Endless`).
-/

namespace FileGateway

namespace CommandLine

/-- There is no end to what a command on a connection in a directory moves: it reads from the device
that has none, or what it reads is what it has written itself. -/
def Command.EndlessIn (dir : Path) (v : Volume) : Command → Prop
  | .read path _ =>
    ∃ source, v.Reaches .follow (dir.join path) source ∧
      v.tree.node? source = some (.device .full)
  | .write path (.input input) append _ _ =>
    ∃ source, v.walk .follow input = .ok source ∧
      (source.node = some (.device .full) ∨
        append = true ∧ v.tree.bytes source.place ≠ [] ∧
          v.Reaches .create (dir.join path) source.place)
  | _ => False

/-- There is no end to what a command moves. -/
def Command.Endless (file : ConnectionsFile) (key : ConnectionKey) (v : Volume)
    (command : Command) : Prop :=
  ∃ config, file.find? key = some config ∧ command.EndlessIn config.workingDir v

variable {setting : Setting (StateM Volume)} {base v v' : Volume} {file : ConnectionsFile}
  {key : ConnectionKey} {d : Deployment} {action : Action} {path : Path} {transfer : Transfer}
  {grounds : Backend × Path × LockConfig}

/-! ## Operations -/

/-- An operation that begins is at no guard. -/
theorem operate_guards (writer : Diagnostics) (d : Deployment) (key : ConnectionKey)
    (action : Action) (path : Path) :
    ((Gateway.start writer).operate d key action path).2.shared.guards = .empty := by
  simp only [Gateway.operate]
  split
  · rfl
  · simp only [Operation.start, Resolve.start]
    split
    · rfl
    · split <;> rfl

/-- An operation that moves no bytes comes to its end. -/
theorem perform_brief (hclock : ∀ v, (setting.clock v).2 = v)
    (hstart : ((Gateway.start setting.writer).operate d key action path).2.Abides grounds
      Task.IsBrief) (hfuel : Operation.toGo 0 < setting.fuel) (transfer : Transfer) (v : Volume) :
    ∃ result, ((perform setting d key action path transfer (.start setting.writer) :
      StateM Volume _) v).1.2.2.task? 0 = some (.finished result) := by
  have hown : 0 < ((Gateway.start setting.writer).operate d key action path).2.tasks.length := by
    obtain ⟨t, htasks, -⟩ := tasks_operate setting.writer d key action path
    rw [htasks]
    exact Nat.one_pos
  rw [perform_eq]
  simp only [FileCall.operate_fst]
  exact hstart.ends (Task.abiding_isBrief grounds) (fun t ht => ht.within 0)
    (fun t s p ht hp => ht.opens hp) hown hclock
    (Nat.lt_of_le_of_lt (Gateway.toGo_operate 0 setting.writer d key action path) hfuel)

/-- An operation that is pursued comes to its end. -/
theorem perform_pursued (hclock : ∀ v, (setting.clock v).2 = v) (hb : base.Rooted)
    {keep : Place → Prop} {size : Nat} {P : Task → Guards → Transfer → Volume → Prop}
    (hP : Pursuit base keep grounds size P)
    (hstart : ((Gateway.start setting.writer).operate d key action path).2.Undertakes base keep
      grounds 0 (fun t v => P t .empty transfer v) v)
    (hfuel : Operation.toGo size < setting.fuel) :
    ∃ result, ((perform setting d key action path transfer (.start setting.writer) :
      StateM Volume _) v).1.2.2.task? 0 = some (.finished result) := by
  have hpursues : ((Gateway.start setting.writer).operate d key action path).2.Pursues base keep
      grounds 0 P transfer v := by
    unfold Gateway.Pursues
    rw [operate_guards]
    exact hstart
  rw [perform_eq]
  simp only [FileCall.operate_fst]
  exact hpursues.ends hb hP hclock
    (Nat.lt_of_le_of_lt (Gateway.toGo_operate size setting.writer d key action path) hfuel)

/-- A read of which there is an end comes to its end. -/
theorem perform_fetch (hclock : ∀ v, (setting.clock v).2 = v) {x : Fetch} (hb : x.base.Rooted)
    (ha : x.base.Alike v) (hawaits : x.Awaits transfer v) {config : ConnectionConfig}
    (hfind : file.find? key = some config) (hpath : x.path = config.workingDir.join path)
    (hfuel : Operation.toGo x.size < setting.fuel) :
    ∃ result, ((perform setting ⟨file, .standard⟩ key .read path transfer (.start setting.writer) :
      StateM Volume _) v).1.2.2.task? 0 = some (.finished result) :=
  perform_pursued hclock hb (x.pursuit hb (.disk, config.workingDir, config.lock))
    (operate_undertakes ha hfind (fun _ => trivial)
      fun _ _ hr => ⟨rfl, hr.trans hpath.symm, hawaits⟩) hfuel

/-- A write of which there is an end comes to its end. -/
theorem perform_intake (hclock : ∀ v, (setting.clock v).2 = v) (hb : base.Rooted)
    (ha : base.Alike v) {config : ConnectionConfig} (hfind : file.find? key = some config)
    {mode : WriteMode} (x : Intake base (config.workingDir.join path) mode.append)
    (hawaits : x.Awaits transfer v) (hfuel : Operation.toGo x.size < setting.fuel) :
    ∃ result, ((perform setting ⟨file, .standard⟩ key (.write mode) path transfer
      (.start setting.writer) : StateM Volume _) v).1.2.2.task? 0 = some (.finished result) :=
  perform_pursued hclock hb (x.pursuit hb config.workingDir config.lock)
    (operate_undertakes ha hfind (fun _ => trivial)
      fun _ _ hr => ⟨rfl, hr, Guards.free_empty, hawaits⟩) hfuel

/-! ## What a command begins -/

/-- Whatever a command begins comes to its end, if there is fuel to move so many bytes. -/
def Command.EndsWithin (file : ConnectionsFile) (key : ConnectionKey) (v : Volume)
    (command : Command) (size : Nat) : Prop :=
  ∀ (setting : Setting (StateM Volume)) (v₁ v₂ : Volume) (action : Action) (transfer : Transfer),
    (∀ v, (setting.clock v).2 = v) → Operation.toGo size < setting.fuel → v.Streamed v₁ →
      command.Begins file key v₁ action transfer v₂ →
        ∃ result, ((perform setting ⟨file, .standard⟩ key action command.path transfer
          (.start setting.writer) : StateM Volume _) v₂).1.2.2.task? 0 = some (.finished result)

/-- A read of which there is an end comes to its end, wherever it is read to. -/
theorem read_ends (hv : v.Rooted) {config : ConnectionConfig}
    (hfind : file.find? key = some config) {output : Option Path}
    (hends : ¬ (Command.read path output).EndlessIn config.workingDir v) :
    ∃ size, (Command.read path output).EndsWithin file key v size := by
  -- where the path leads to, if it leads anywhere
  obtain ⟨source, hreached⟩ : ∃ source, ∀ place,
      v.Reaches .follow (config.workingDir.join path) place → place = source := by
    by_cases hreaches : ∃ source, v.Reaches .follow (config.workingDir.join path) source
    · obtain ⟨source, hsource⟩ := hreaches
      exact ⟨source, fun place hplace => hsource.unique hplace⟩
    · exact ⟨[], fun place hplace => absurd ⟨place, hplace⟩ hreaches⟩
  have hbounded : ∀ {v₁ : Volume}, v.Streamed v₁ →
      v.Reaches .follow (config.workingDir.join path) source →
        v₁.Bounded (v.tree.bytes source).length source := fun hstreamed hsource =>
    Volume.bounded_of_agreeAt (FileTree.agreeAt_of_eq (by rw [hstreamed.tree]))
      fun hfull => hends ⟨source, hsource, hfull⟩
  let x (outlet? : Option StreamId) : Fetch :=
    ⟨v, config.workingDir.join path, source, (v.tree.bytes source).length, outlet?, hreached⟩
  refine ⟨(v.tree.bytes source).length, fun _ _ _ _ _ hclock hfuel hstreamed hbegins => ?_⟩
  cases hbegins with
  | read path =>
    exact perform_fetch (x := x none) hclock hv hstreamed.alike ⟨rfl, hbounded hstreamed, nofun⟩
      hfind rfl hfuel
  | readTo path output id v₂ opened =>
    obtain ⟨sink, -, hopens⟩ := Volume.openWrite_ok hstreamed.alike hv opened
    refine perform_fetch (x := x (some id)) hclock hv (hstreamed.alike.trans hopens.alike)
      ⟨rfl, fun hsource => ?_, fun hsource outlet houtlet => ?_⟩ hfind rfl hfuel
    · exact (hopens.bounded (hbounded hstreamed hsource) nofun).1
    · cases houtlet
      exact (hopens.bounded (hbounded hstreamed hsource) nofun).2

/-- A write of which there is an end comes to its end, wherever its bytes come from. -/
theorem write_ends (hv : v.Rooted) {config : ConnectionConfig}
    (hfind : file.find? key = some config) {content : Content} {append : Bool}
    {scheme : Option LockScheme} {expiry : Option Duration}
    (hends : ¬ (Command.write path content append scheme expiry).EndlessIn config.workingDir v) :
    ∃ size, (Command.write path content append scheme expiry).EndsWithin file key v size := by
  cases content with
  | text data =>
    refine ⟨(Text.writeUtf8 data).length, fun _ _ _ _ _ hclock hfuel hstreamed hbegins => ?_⟩
    cases hbegins with
    | write path data append scheme expiry lock chosen =>
      exact perform_intake hclock hv hstreamed.alike hfind
        (.text v (config.workingDir.join path) append (Text.writeUtf8 data)) rfl hfuel
  | input input =>
    cases hwalk : v.walk .follow input with
    | error e =>
      refine ⟨0, fun _ _ _ _ _ hclock hfuel hstreamed hbegins => ?_⟩
      cases hbegins with
      | writeFrom path input append scheme expiry lock id v₂ chosen opened =>
        obtain ⟨source, hwalk', -⟩ := Volume.openRead_ok hstreamed.alike hv opened
        cases hwalk.symm.trans hwalk'
    | ok source =>
      have hfull : v.tree.node? source.place ≠ some (.device .full) := fun hfull =>
        hends ⟨source, hwalk, .inl ((FileTree.told_walk hv.tree hv.here hwalk).trans hfull)⟩
      have hself : append = true → v.Reaches .create (config.workingDir.join path) source.place →
          v.tree.bytes source.place = [] := by
        intro happend hsame
        by_contra hbytes
        exact hends ⟨source, hwalk, .inr ⟨happend, hbytes, hsame⟩⟩
      refine ⟨(v.tree.bytes source.place).length,
        fun _ v₁ _ _ _ hclock hfuel hstreamed hbegins => ?_⟩
      cases hbegins with
      | writeFrom path input append scheme expiry lock id v₂ chosen opened =>
        obtain ⟨source', hwalk', hpresent, rfl, rfl⟩ := Volume.openRead_ok hstreamed.alike hv opened
        cases hwalk.symm.trans hwalk'
        have ha : v.Alike { v₁ with streams := v₁.streams ++ [⟨source.place, 0, false⟩] } :=
          hstreamed.alike.trans ⟨rfl, .refl _⟩
        exact perform_intake hclock hv ha hfind
          (.stream hv _ append source.place v₁.streams.length hfull hself)
          ⟨rfl, List.getElem?_concat_length, hpresent,
            FileTree.agreeAt_of_eq (by rw [← hstreamed.tree])⟩ hfuel

/-- What a command begins comes to its end, unless there is none. How much fuel it takes depends on
nothing but the command and the files. -/
theorem Command.exists_endsWithin (hv : v.Rooted) {command : Command}
    (hends : ¬ command.Endless file key v) :
    ∃ size, command.EndsWithin file key v size := by
  cases hfind : file.find? key with
  | none =>
    refine ⟨0, fun _ _ _ _ _ hclock hfuel _ _ => ?_⟩
    exact perform_brief hclock ((operate_idle hfind (.disk, command.path, .default)).mono
      fun _ => Task.IsBrief.of_isIdle) hfuel _ _
  | some config =>
    have hendsIn : ¬ command.EndlessIn config.workingDir v := fun h => hends ⟨config, hfind, h⟩
    cases command with
    | probe path =>
      refine ⟨0, fun _ _ _ _ _ hclock hfuel _ hbegins => ?_⟩
      cases hbegins
      exact perform_brief hclock (operate_abides hfind (fun _ => trivial) fun _ _ => .inl rfl) hfuel
        _ _
    | delete path =>
      refine ⟨0, fun _ _ _ _ _ hclock hfuel _ hbegins => ?_⟩
      cases hbegins
      exact perform_brief hclock (operate_abides hfind (fun _ => trivial) fun _ _ => .inr rfl) hfuel
        _ _
    | read path output => exact read_ends hv hfind hendsIn
    | write path content append scheme expiry => exact write_ends hv hfind hendsIn

end CommandLine

end FileGateway

import FileGateway.Proofs.CommandLine.Run
import FileGateway.Proofs.Operation.Delivery
import FileGateway.Proofs.Operation.Retrieval

/-!
# What transfers bring

A command line that moves bytes between a file of the machine and a file of a connection, and ends
with the report of a success, has brought what it reports (`execute_brings`): the target holds what
it keeps and, behind it, all that there was to be read. If it is not appended to, that is all there
is in it.

The local file may be any file, and in particular the very file that the path stands for. A target
that is not appended to is emptied when it is opened, which is before anything is read. So a file
that is copied to itself is not left as it was, but is emptied, and the report tells of 0 bytes
(`not_verbatim`).

A place of a volume is one file: there is no second name for it but by links that are followed.
-/

namespace FileGateway

open CommandLine (Transfer)

/-- What was to be brought from one place to another has been brought, and nothing else. -/
structure Passage.Brought (x : Passage) (v v' : Volume) (report : Report) : Prop where
  reported : report.result = .ok (.copied x.content.length)
  holds : v'.tree.node? x.target = some (x.holding (x.kept ++ x.content))
  source : x.source ≠ x.target → v'.tree.bytes x.source = v.tree.bytes x.source

theorem Passage.Arrived.brought {v v' : Volume} {source target : Place} {append : Bool}
    {count : Nat} {report : Report} (h : (between v.tree source target append).Arrived v' count)
    (hreport : report.result = .ok (.copied count)) :
    (between v.tree source target append).Brought v v' report where
  reported := by
    rw [hreport, h.count]
  holds := h.holds
  source := fun hne =>
    (FileTree.bytes_of_content? h.content).trans (content_between (Or.inl hne))

namespace CommandLine

variable {setting : Setting (StateM Volume)} {v v' v'' : Volume} {report : Report}
  {g g' : Gateway} {key : ConnectionKey} {file : ConnectionsFile}

/-- An invocation names a connection that is configured so in the connections file, as it is after
the log file was opened. -/
def Invocation.Connects (inv : Invocation) (setting : Setting (StateM Volume)) (v : Volume)
    (config : ConnectionConfig) : Prop :=
  ∃ file, ((loadFile inv.config setting.fuel : StateM Volume _)
      ((openLog inv.debugLog : StateM Volume _) v).2).1 = .ok file ∧
    file.find? inv.connection = some config

/-- What a command has brought from a file of the machine or to it. Only a write under a lock whose
target is the marker of itself has nothing to be said of. -/
def Command.Brings (connects : ConnectionConfig → Prop) (v v' : Volume) (report : Report) :
    Command → Prop
  | .write path (.input input) append scheme _ =>
    ∃ config, connects config ∧
      ((scheme.getD config.lock.scheme = .marker →
          ¬ v.MarksItself (config.workingDir.join path)) →
        ∃ source target, v.walk .follow input = .ok source ∧
          v.Reaches .create (config.workingDir.join path) target ∧
          (Passage.between v.tree source.place target append).Brought v v' report)
  | .read path (some output) =>
    ∃ config, connects config ∧
      ∃ source sink, v.Reaches .follow (config.workingDir.join path) source ∧
        v.walk .create output = .ok sink ∧
        (Passage.between v.tree source sink.place false).Brought v v' report
  | _ => True

/-! ## Writes -/

/-- What the command line says of the lock goes before the connection. -/
theorem scheme_of_chosenLock {config : ConnectionConfig} {scheme : Option LockScheme}
    {expiry : Option Duration} {lock : Option LockConfig} (hfind : file.find? key = some config)
    (h : chosenLock file key scheme expiry = .ok lock) :
    (lock.getD config.lock).scheme = scheme.getD config.lock.scheme := by
  unfold chosenLock at h
  split at h
  · next hnone =>
    cases h
    cases scheme with
    | none => rfl
    | some s => cases hnone
  · rw [hfind] at h
    simp only at h
    split at h
    · cases h
    · cases h
      rfl

/-- The local file is opened, and the write is performed. -/
theorem carryOut_write {path input : Path} {append : Bool} {scheme : Option LockScheme}
    {expiry : Option Duration}
    (h : (carryOut setting file key (.write path (.input input) append scheme expiry) g :
      StateM Volume _) v = ((.ok report, g'), v')) :
    ∃ lock id v₁ transfer', chosenLock file key scheme expiry = .ok lock ∧
      v.openRead input = .ok (id, v₁) ∧
      (perform setting ⟨file, .standard⟩ key (.write ⟨append, lock⟩) path
        ⟨.stream id, .collected []⟩ g : StateM Volume _) v₁ = ((report, transfer', g'), v') := by
  simp only [carryOut] at h
  cases hlock : chosenLock file key scheme expiry with
  | error f =>
    rw [hlock] at h
    cases h
  | ok lock =>
    rw [hlock] at h
    simp only [openContent, stateM_bind, FileAccess.openRead, Volume.act] at h
    cases hopen : v.openRead input with
    | error e =>
      rw [hopen] at h
      cases h
    | ok opened =>
      obtain ⟨id, v₁⟩ := opened
      rw [hopen] at h
      simp only [stateM_pure, stateM_bind] at h
      generalize hperform : (perform setting ⟨file, .standard⟩ key (.write ⟨append, lock⟩) path
        ⟨.stream id, .collected []⟩ g : StateM Volume _) v₁ = performed at h
      cases h
      exact ⟨lock, id, v₁, _, rfl, rfl, hperform⟩

/-- A delivery that was performed with success has arrived, and stays so to the end. -/
theorem delivery_arrives (hclock : ∀ v, (setting.clock v).2 = v) {x : Delivery}
    (hb : x.base.Rooted) (ha : x.base.Alike v) (hawaits : x.Awaits v) {config : ConnectionConfig}
    (hfind : file.find? key = some config) {path : Path}
    (hpath : x.path = config.workingDir.join path)
    (hmarks : (x.mode.lock.getD config.lock).scheme = .marker → ¬ x.base.MarksItself x.path)
    {target : Target} {transfer : Transfer}
    (hperform : (perform setting ⟨file, .standard⟩ key (.write x.mode) path
      ⟨.stream x.inlet, target⟩ (.start setting.writer) : StateM Volume _) v =
        ((report, transfer, g), v'))
    (hok : report.isOk = true) {space : String}
    (hclose : (closeAll setting space g : StateM Volume _) v' = (g', v'')) :
    ∃ count, report.result = .ok (.copied count) ∧ x.Arrived v'' count := by
  have hstart : ((Gateway.start setting.writer).operate ⟨file, .standard⟩ key (.write x.mode)
      path).2.Undertakes x.base x.keep (.disk, config.workingDir, config.lock) 0 x.Delivers v :=
    operate_undertakes ha hfind (fun _ => Delivery.delivers_failed)
      fun id r hr => .resolving hawaits (hr.trans hpath.symm)
  exact perform_lasts hclock hb (Delivery.undertaking hb hmarks rfl) Delivery.Delivers.arrived
    Delivery.Arrived.aside rfl hstart hperform hok hclose

/-- What a write from a local file brings. -/
theorem write_brings (hclock : ∀ v, (setting.clock v).2 = v) (hv : v.Rooted)
    (hstreamed : v.Streamed v') {path input : Path} {append : Bool} {scheme : Option LockScheme}
    {expiry : Option Duration}
    (h : (carryOut setting file key (.write path (.input input) append scheme expiry)
      (.start setting.writer) : StateM Volume _) v' = ((.ok report, g), v''))
    (hok : report.isOk = true) {space : String} {closed : Gateway} {last : Volume}
    (hclose : (closeAll setting space g : StateM Volume _) v'' = (closed, last)) :
    (Command.write path (.input input) append scheme expiry).Brings
      (fun config => file.find? key = some config) v last report := by
  obtain ⟨lock, id, v₁, transfer, hlock, hopen, hperform⟩ := carryOut_write h
  obtain ⟨spot, hwalk, hpresent, rfl, rfl⟩ := Volume.openRead_ok hstreamed.alike hv hopen
  have ha : v.Alike { v' with streams := v'.streams ++ [⟨spot.place, 0, false⟩] } :=
    hstreamed.alike.trans ⟨rfl, .refl _⟩
  obtain ⟨config, hfind⟩ := find_of_isOk hclock hv ha hperform hok
  refine ⟨config, hfind, fun hmarks => ?_⟩
  rw [← scheme_of_chosenLock hfind hlock] at hmarks
  let x : Delivery :=
    ⟨v, spot.place, v'.streams.length, config.workingDir.join path, ⟨append, lock⟩⟩
  have hawaits : x.Awaits { v' with streams := v'.streams ++ [⟨spot.place, 0, false⟩] } :=
    ⟨List.getElem?_concat_length, hpresent, fun place _ => hstreamed.agreeAt place⟩
  obtain ⟨count, hreport, target, hreaches, harrived⟩ :=
    delivery_arrives hclock (x := x) hv ha hawaits hfind rfl hmarks hperform hok hclose
  exact ⟨spot, target, hwalk, hreaches, harrived.brought hreport⟩

/-! ## Reads -/

/-- The local file is opened, and the read is performed. -/
theorem carryOut_read {path output : Path}
    (h : (carryOut setting file key (.read path (some output)) g : StateM Volume _) v =
      ((.ok report, g'), v')) :
    ∃ id v₁ transfer', v.openWrite output false = .ok (id, v₁) ∧
      (perform setting ⟨file, .standard⟩ key .read path ⟨.text [], .stream id⟩ g :
        StateM Volume _) v₁ = ((report, transfer', g'), v') := by
  simp only [carryOut, openOutput, stateM_bind, FileAccess.openWrite, Volume.act] at h
  cases hopen : v.openWrite output false with
  | error e =>
    rw [hopen] at h
    cases h
  | ok opened =>
    obtain ⟨id, v₁⟩ := opened
    rw [hopen] at h
    simp only [stateM_pure, stateM_bind] at h
    generalize hperform : (perform setting ⟨file, .standard⟩ key .read path ⟨.text [], .stream id⟩ g
      : StateM Volume _) v₁ = performed at h
    -- the report shows what was read only where there is no output
    obtain ⟨⟨read, transfer', g''⟩, v₂⟩ := performed
    have hsame : withContent (some output) read transfer' = read := by
      simp [withContent]
    simp only [hsame] at h
    cases h
    exact ⟨id, v₁, transfer', rfl, hperform⟩

/-- A retrieval that was performed with success has arrived, and stays so to the end. -/
theorem retrieval_arrives (hclock : ∀ v, (setting.clock v).2 = v) {x : Retrieval}
    (hb : x.base.Rooted) (ha : x.base.Alike v) (hawaits : x.Awaits v) {config : ConnectionConfig}
    (hfind : file.find? key = some config) {path : Path}
    (hpath : x.path = config.workingDir.join path)
    {supply : Supply} {transfer : Transfer}
    (hperform : (perform setting ⟨file, .standard⟩ key .read path ⟨supply, .stream x.outlet⟩
      (.start setting.writer) : StateM Volume _) v = ((report, transfer, g), v'))
    (hok : report.isOk = true) {space : String}
    (hclose : (closeAll setting space g : StateM Volume _) v' = (g', v'')) :
    ∃ count, report.result = .ok (.copied count) ∧ x.Arrived v'' count := by
  have hstart : ((Gateway.start setting.writer).operate ⟨file, .standard⟩ key .read
      path).2.Undertakes x.base x.keep (.disk, config.workingDir, config.lock) 0 x.Retrieves v :=
    operate_undertakes ha hfind (fun _ => Retrieval.retrieves_failed)
      fun id r hr => .resolving hawaits (hr.trans hpath.symm)
  exact perform_lasts hclock hb (Retrieval.undertaking hb _ rfl) Retrieval.Retrieves.arrived
    Retrieval.Arrived.aside rfl hstart hperform hok hclose

/-- What a read into a local file brings. -/
theorem read_brings (hclock : ∀ v, (setting.clock v).2 = v) (hv : v.Rooted)
    (hstreamed : v.Streamed v') {path output : Path}
    (h : (carryOut setting file key (.read path (some output)) (.start setting.writer) :
      StateM Volume _) v' = ((.ok report, g), v''))
    (hok : report.isOk = true) {space : String} {closed : Gateway} {last : Volume}
    (hclose : (closeAll setting space g : StateM Volume _) v'' = (closed, last)) :
    (Command.read path (some output)).Brings
      (fun config => file.find? key = some config) v last report := by
  obtain ⟨id, v₁, transfer, hopen, hperform⟩ := carryOut_read h
  obtain ⟨spot, hwalk, hopens⟩ := Volume.openWrite_ok hstreamed.alike hv hopen
  have ha : v.Alike v₁ := hstreamed.alike.trans hopens.alike
  obtain ⟨config, hfind⟩ := find_of_isOk hclock hv ha hperform hok
  let x : Retrieval := ⟨v, spot.place, id, config.workingDir.join path⟩
  have hawaits : x.Awaits v₁ := by
    refine ⟨hopens.stream, ?_, fun place _ hne => ?_⟩
    · rw [hopens.node, Function.update_self, (hstreamed.agreeAt _).opened]
    · exact (hstreamed.agreeAt place).trans (FileTree.agreeAt_of_eq (hopens.elsewhere hne))
  obtain ⟨count, hreport, source, hreaches, harrived⟩ :=
    retrieval_arrives hclock (x := x) hv ha hawaits hfind rfl hperform hok hclose
  exact ⟨config, hfind, source, spot, hreaches, hwalk, harrived.brought hreport⟩

/-! ## Command lines -/

/-- Whatever files there are, a transfer that ends with the report of a success has brought what it
reports, and has left what it has read as it was, unless that is what it has written to. There is no
log file, which might be one of the two: what is written to it is not known. -/
theorem execute_brings {inv : Invocation} {closed : Option Gateway} (hlog : inv.debugLog = none)
    (hclock : ∀ v, (setting.clock v).2 = v) (hv : v.Rooted)
    (h : (execute setting inv : StateM Volume _) v = ((.ok report, closed), v'))
    (hok : report.isOk = true) : inv.command.Brings (inv.Connects setting v) v v' report := by
  obtain ⟨v₁, v₂, file, g₁, g₂, hload, hcarry, hclose⟩ := execute_ok hlog h
  have hloaded := streamed_loadFile inv.config setting.fuel v
  rw [hload] at hloaded
  have hconnects : ∀ {config}, file.find? inv.connection = some config →
      inv.Connects setting v config := by
    intro config hfind
    refine ⟨file, ?_, hfind⟩
    rw [hlog]
    exact congrArg Prod.fst hload
  cases hcommand : inv.command with
  | write path content append scheme expiry =>
    cases content with
    | text data => trivial
    | input input =>
      rw [hcommand] at hcarry
      obtain ⟨config, hfind, hbrings⟩ := write_brings hclock hv hloaded hcarry hok hclose
      exact ⟨config, hconnects hfind, hbrings⟩
  | read path output =>
    cases output with
    | none => trivial
    | some output =>
      rw [hcommand] at hcarry
      obtain ⟨config, hfind, hbrings⟩ := read_brings hclock hv hloaded hcarry hok hclose
      exact ⟨config, hconnects hfind, hbrings⟩
  | _ => trivial

/-! ### At a desk -/

/-- A clock that stands still. -/
def still : Setting (StateM Volume) :=
  ⟨⟨"host", "address", 1⟩, fun v => (0, v), 40⟩

/-- A volume with a connection to the directory `/data`, a file in it, and another elsewhere. -/
def desk : Volume :=
  .ofTree
    ⟨[(["c"], .file (Text.writeUtf8
        ("\x7b\"connections\": [\x7b\"name\": \"l\", \"namespace\": \"o\", " ++
          "\"protocol\": \"file\", \"working_dir\": \"/data\"\x7d]\x7d"))),
      (["data"], .directory), (["data", "f"], .file [97, 98, 99]), (["in"], .file [100, 101])]⟩ []

/-- The file in the directory is written from a local file. -/
def fromFile (input : Path) (append : Bool) : Invocation :=
  ⟨⟨"/c"⟩, ⟨"o", "l"⟩, .write ⟨"f"⟩ (.input input) append (some .marker) none, 0, false, none, 0, 0⟩

theorem rooted_desk : desk.Rooted := by
  refine ⟨?_, rfl⟩
  unfold FileTree.Rooted
  decide

/-- The other file is appended to it under a lock. -/
theorem execute_brings_appended :
    ∃ report, ((execute still (fromFile ⟨"/in"⟩ true) : StateM Volume _) desk).1.1 = .ok report ∧
      report.isOk = true ∧
      (fromFile ⟨"/in"⟩ true).command.Brings ((fromFile ⟨"/in"⟩ true).Connects still desk) desk
        ((execute still (fromFile ⟨"/in"⟩ true) : StateM Volume _) desk).2 report := by
  have hrun : ((execute still (fromFile ⟨"/in"⟩ true) : StateM Volume _) desk).1.1.toOption.map
      Report.isOk = some true := by decide +kernel
  cases hreport : ((execute still (fromFile ⟨"/in"⟩ true) : StateM Volume _) desk).1.1 with
  | error f =>
    rw [hreport] at hrun
    cases hrun
  | ok report =>
    rw [hreport] at hrun
    have hok : report.isOk = true := Option.some.inj hrun
    exact ⟨report, rfl, hok,
      execute_brings rfl (fun _ => rfl) rooted_desk (Prod.ext (Prod.ext hreport rfl) rfl) hok⟩

/-- All the bytes that the local file or the file of the path held before are brought to the other
one, whichever it is. -/
def Command.Verbatim (connects : ConnectionConfig → Prop) (v v' : Volume) (report : Report) :
    Command → Prop
  | .write path (.input input) append _ _ =>
    ∃ config source target, connects config ∧ v.walk .follow input = .ok source ∧
      v.Reaches .create (config.workingDir.join path) target ∧
      v'.tree.bytes target =
        (if append then v.tree.bytes target else []) ++ v.tree.bytes source.place ∧
      report.result = .ok (.copied (v.tree.bytes source.place).length)
  | .read path (some output) =>
    ∃ config source sink, connects config ∧
      v.Reaches .follow (config.workingDir.join path) source ∧
      v.walk .create output = .ok sink ∧ v'.tree.bytes sink.place = v.tree.bytes source ∧
      v'.tree.bytes source = v.tree.bytes source ∧
      report.result = .ok (.copied (v.tree.bytes source).length)
  | _ => True

/-- A file that is written from itself is emptied before it is read. -/
theorem not_verbatim :
    ¬ ∀ {setting : Setting (StateM Volume)} {inv : Invocation} {v v' : Volume} {report : Report}
      {closed : Option Gateway}, (∀ v, (setting.clock v).2 = v) → v.Rooted →
      (execute setting inv : StateM Volume _) v = ((.ok report, closed), v') →
      report.isOk = true → inv.command.Verbatim (inv.Connects setting v) v v' report := by
  intro h
  have hrun : (((execute still (fromFile ⟨"/data/f"⟩ false) : StateM Volume _)
      desk).1.1.toOption.bind fun report => report.result.toOption) = some (.copied 0) := by
    decide +kernel
  have hwalk : (desk.walk .follow ⟨"/data/f"⟩).toOption.map
      (fun spot => desk.tree.bytes spot.place) = some [97, 98, 99] := by decide +kernel
  cases hreport : ((execute still (fromFile ⟨"/data/f"⟩ false) : StateM Volume _) desk).1.1 with
  | error f =>
    rw [hreport] at hrun
    cases hrun
  | ok report =>
    rw [hreport] at hrun
    have hok : report.isOk = true := by
      unfold Report.isOk
      cases hresult : report.result with
      | error e => simp [hresult, Except.toOption] at hrun
      | ok effect => rfl
    obtain ⟨config, source, target, -, hsource, -, -, hcopied⟩ :=
      h (fun _ => rfl) rooted_desk (Prod.ext (Prod.ext hreport rfl) rfl) hok
    rw [hsource] at hwalk
    have hbytes : desk.tree.bytes source.place = [97, 98, 99] := Option.some.inj hwalk
    rw [hbytes] at hcopied
    simp [hcopied, Except.toOption] at hrun

end CommandLine

end FileGateway

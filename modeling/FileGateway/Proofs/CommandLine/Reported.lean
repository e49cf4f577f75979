import FileGateway.Proofs.CommandLine.Abort
import FileGateway.Proofs.CommandLine.Completion
import FileGateway.Proofs.CommandLine.Loading
import FileGateway.Proofs.Operation.Account

/-!
# What the program reports

A command line that is accepted ends in one of two ways (`program_reports`). If there is nothing to
run the operation on, because the connections file is not loaded, or the lock or the local file of
the command is refused (`Invocation.Unready`), the program exits with 1 and prints nothing on its
standard output. Otherwise it prints one report of what has come of the operation, and exits with 0
just if that is a success (`Invocation.Reports`). Wherever the connections file was loaded, the
connections of the namespace are closed at the end.

Two things are not reported: what has no end (`Command.Endless`), and what aborts the program
(`Command.Aborts`). There is a connections file that is accepted, and with which the program aborts
(`not_always_reported`).
-/

namespace FileGateway

namespace CommandLine

/-! ## Outcomes -/

/-- There is nothing to run an operation on: the connections file is not loaded, or the lock or the
local file of the command is refused. -/
def Invocation.Unready (inv : Invocation) (v : Volume) : Prop :=
  ∀ file, v.Loads inv.config file → inv.command.Refused file inv.connection v

/-- The name of the operation that a command asks for. -/
def Command.name : Command → String
  | probe _ => "exists"
  | read _ _ => "read"
  | write _ _ _ _ _ => "write"
  | delete _ => "delete"

/-- What a report shows of the result of a command: the code and the message of an error, or else
what belongs to the command. Of a read without an output, that is also the text of all the bytes. -/
inductive Command.Shows : Command → Except Error Effect → List (String × Json.Value) → Prop where
  | failed (command : Command) (e : Error) :
      Shows command (.error e)
        [("error", .object [("code", .string e.code.name), ("message", .string e.message)])]
  | probed (path : Path) (found : Bool) :
      Shows (.probe path) (.ok (.present found)) [("exists", .bool found)]
  | deleted (path : Path) (found : Bool) :
      Shows (.delete path) (.ok (.deleted found)) [("deleted", .bool found)]
  | written (path : Path) (content : Content) (append : Bool) (scheme : Option LockScheme)
      (expiry : Option Duration) (count : Nat) :
      Shows (.write path content append scheme expiry) (.ok (.copied count))
        [("bytes", .number count)]
  | readTo (path output : Path) (count : Nat) :
      Shows (.read path (some output)) (.ok (.copied count)) [("bytes", .number count)]
  | read (path : Path) (bytes : Bytes) :
      Shows (.read path none) (.ok (.copied bytes.length))
        [("bytes", .number bytes.length), ("content", .string (Text.readUtf8Lossy bytes))]

/-- The program has ended with a report of a result. -/
def Invocation.Reports (inv : Invocation) (result : Except Error Effect) (ending : Ending) : Prop :=
  ∃ shown, inv.command.Shows result shown ∧
    ending.output = (Json.Value.object
      ([("ok", .bool result.isOk), ("operation", .string inv.command.name),
        ("connection", .string (inv.connection.space ++ "/" ++ inv.connection.name)),
        ("path", .string inv.command.path.text)] ++ shown)).write ++ "\n" ∧
    (ending.status = 0 ↔ result.isOk = true) ∧ (ending.status = 1 ↔ result.isOk = false)

variable {setting : Setting (StateM Volume)} {v v' : Volume} {file : ConnectionsFile}
  {key : ConnectionKey} {command : Command} {action : Action} {transfer : Transfer}

/-! ## After the operation -/

theorem Command.Begins.name_eq (h : command.Begins file key v action transfer v') :
    action.name = command.name := by
  cases h <;> rfl

/-- Nothing was read yet. -/
theorem Command.Begins.gathers (h : command.Begins file key v action transfer v') :
    transfer.Gathers transfer.target.outlet? 0 := by
  cases h with
  | readTo path output id v' opened => rfl
  | _ => exact ⟨[], rfl, rfl⟩

theorem isOk_ofResult (action : Action) (key : ConnectionKey) (path : Path)
    (result : Except Error Effect) :
    (Report.ofResult action key path result).isOk = result.isOk := by
  cases result <;> rfl

/-- Nothing but what was read comes to the report of an operation. -/
theorem finish_eq (command : Command) (report : Report) (transfer : Transfer) :
    ∃ content, command.finish report transfer = { report with content := content } := by
  cases command with
  | read path output =>
    simp only [Command.finish, withContent]
    split
    · exact ⟨_, rfl⟩
    · exact ⟨report.content, rfl⟩
  | _ => exact ⟨report.content, rfl⟩

/-- And to that of a failure, not even that. -/
theorem finish_error (command : Command) (e : Error) (transfer : Transfer) :
    command.finish (.ofResult action key command.path (.error e)) transfer =
      .ofResult action key command.path (.error e) := by
  cases command <;> rfl

/-- What is shown belongs to the command. -/
theorem Command.Begins.shows (h : command.Begins file key v action transfer v')
    {result : Except Error Effect} {transfer' : Transfer}
    (hyields : ∀ effect, result = .ok effect →
      action.Yields transfer.target.outlet? transfer' effect) :
    command.Shows result
      (command.finish (.ofResult action key command.path result) transfer').resultMembers := by
  cases result with
  | error e =>
    rw [finish_error]
    exact .failed command e
  | ok effect =>
    have heffect := hyields effect rfl
    cases h with
    | probe path =>
      cases heffect with
      | present found => exact .probed path found
    | delete path =>
      cases heffect with
      | deleted found => exact .deleted path found
    | write path data append scheme expiry lock chosen =>
      cases heffect with
      | written mode count => exact .written path (.text data) append scheme expiry count
    | writeFrom path input append scheme expiry lock id v' chosen opened =>
      cases heffect with
      | written mode count => exact .written path (.input input) append scheme expiry count
    | readTo path output id v' opened =>
      cases heffect with
      | read count gathers => exact .readTo path output count
    | read path =>
      cases heffect with
      | read count gathers =>
        obtain ⟨bytes, htarget, rfl⟩ := gathers
        have hcollected : transfer'.collected = bytes := by
          rw [Transfer.collected, htarget]
        have hshows := Command.Shows.read path bytes
        rw [← hcollected] at hshows ⊢
        exact hshows

/-- The report that is printed names the operation, and the status tells of its success. -/
theorem Command.Begins.reports {inv : Invocation}
    (h : inv.command.Begins file inv.connection v action transfer v')
    {result : Except Error Effect} {transfer' : Transfer}
    (hyields : ∀ effect, result = .ok effect →
      action.Yields transfer.target.outlet? transfer' effect) :
    inv.Reports result (inv.ending (.ok (inv.command.finish
      (.ofResult action inv.connection inv.command.path result) transfer'))) := by
  have hshows := h.shows hyields
  obtain ⟨content, hfinish⟩ := finish_eq inv.command
    (.ofResult action inv.connection inv.command.path result) transfer'
  rw [hfinish] at hshows ⊢
  have hok : Report.isOk { Report.ofResult action inv.connection inv.command.path result with
      content := content } = result.isOk :=
    isOk_ofResult action inv.connection inv.command.path result
  refine ⟨_, hshows, ?_, ?_, ?_⟩
  · simp only [Invocation.ending, Report.toJson]
    rw [hok, ← h.name_eq]
    rfl
  · simp only [Invocation.ending]
    rw [hok]
    cases result.isOk <;> simp
  · simp only [Invocation.ending]
    rw [hok]
    cases result.isOk <;> simp

/-! ## The gateway -/

/-- Account of an operation is kept while it is performed. -/
theorem perform_accounts (hclock : ∀ v, (setting.clock v).2 = v) {outlet? : Option StreamId}
    (hgathers : transfer.Gathers outlet? 0) (d : Deployment) (key : ConnectionKey)
    (action : Action) (path : Path) (v : Volume) :
    let performed := (perform setting d key action path transfer (.start setting.writer) :
      StateM Volume _) v
    performed.1.2.2.Accounts 0 action outlet? performed.1.2.1 := by
  obtain ⟨t, htasks, ht⟩ := tasks_operate setting.writer d key action path
  have hstart : ((Gateway.start setting.writer).operate d key action path).2.Accounts 0 action
      outlet? transfer := by
    refine ⟨⟨t, ?_, ?_⟩, fun id u hu hid => ?_⟩
    · rw [Gateway.task?, htasks]
      rfl
    · rcases ht with ⟨e, rfl⟩ | ⟨handle, r, rfl⟩
      · intro effect heffect
        cases heffect
      · exact ⟨rfl, hgathers⟩
    · rw [Gateway.task?, htasks] at hu
      rcases id with _ | id
      · exact absurd rfl hid
      · cases hu
  rw [perform_eq]
  exact hstart.drive hclock _ setting.fuel v

/-- Closing the connections of a namespace takes them out of the registry. -/
theorem closeAll_registry (hclock : ∀ v, (setting.clock v).2 = v) (space : String) {g : Gateway}
    (hruns : g.isAborted = false) (v : Volume) {key : ConnectionKey} (hkey : key.space = space) :
    ((closeAll setting space g : StateM Volume _) v).1.shared.registry.lookup? key = none := by
  have hstart : (g.shutdown space).2.shared.registry.lookup? key = none := by
    refine (RegistryUse.lookup_evict g.shared.registry space key).trans ?_
    rw [if_pos hkey]
  rw [closeAll_eq setting space hruns]
  refine Gateway.drive_induction hclock (I := fun g _ _ => g.shared.registry.lookup? key = none)
    (fun _ h => h) (fun {g} _ _ id h => ?_) (fun {g} _ _ id p answer _ _ h hp _ => ?_) _
    setting.fuel hstart
  · exact (congrArg (List.lookup key) (Deployment.lasting_table.fire g id)).trans h
  · obtain ⟨t, q, -, hq, -, rfl⟩ := Gateway.pending?_eq hp
    exact (congrArg (List.lookup key) (Deployment.lasting_table.next? hq _ _)).trans h

/-- What somebody waits for is left as it is while the connections are closed. -/
theorem closeAll_task? (hclock : ∀ v, (setting.clock v).2 = v) (space : String) {g : Gateway}
    {id : TaskId} {t : Task} (ht : g.task? id = some t) (hwaited : t.isBackground = false)
    (v : Volume) : ((closeAll setting space g : StateM Volume _) v).1.task? id = some t := by
  have hlt : id < g.tasks.length := (List.getElem?_eq_some_iff.1 ht).1
  have hstart : (g.shutdown space).2.task? id = some t :=
    (List.getElem?_append_left hlt).trans ht
  cases habort : g.isAborted with
  | true =>
    rw [closeAll_aborted setting space habort]
    exact ht
  | false =>
    rw [closeAll_eq setting space habort]
    exact Gateway.task?_driveOnDisk hclock (Nat.ne_of_lt hlt) hstart hwaited setting.fuel _ v

/-- An operation that has ended is reported with its result. -/
theorem perform_report {d : Deployment} {path : Path} {result : Except Error Effect}
    (h : ((perform setting d key action path transfer (.start setting.writer) :
      StateM Volume _) v).1.2.2.task? 0 = some (.finished (.operated result))) :
    ((perform setting d key action path transfer (.start setting.writer) :
      StateM Volume _) v).1.1 = .ofResult action key path result := by
  rw [perform_eq] at h ⊢
  simp only [FileCall.operate_fst] at h ⊢
  have hresult := Gateway.result?_eq.2 h
  simp only [Gateway.start, List.length_nil] at hresult ⊢
  rw [hresult]

/-- An operation that has begun is reported, once the connections are closed, if it has ended. -/
theorem Command.Begins.comes (hclock : ∀ v, (setting.clock v).2 = v) {inv : Invocation}
    (h : inv.command.Begins file inv.connection v action transfer v') :
    let performed := (perform setting ⟨file, .standard⟩ inv.connection action inv.command.path
      transfer (.start setting.writer) : StateM Volume _) v'
    let closed := (closeAll setting inv.connection.space performed.1.2.2 : StateM Volume _)
      performed.2
    (∃ result, closed.1.result? 0 = some (.operated result) ∧ inv.Reports result
        (inv.ending (.ok (inv.command.finish performed.1.1 performed.1.2.1)))) ∨
      closed.1.result? 0 = none ∧ ∀ result, performed.1.2.2.task? 0 ≠ some (.finished result) := by
  intro performed closed
  obtain ⟨t, ht, haccounts⟩ := (perform_accounts hclock h.gathers ⟨file, .standard⟩ inv.connection
    action inv.command.path v').task
  rcases haccounts.ended with ⟨id, place, rfl⟩ | ⟨result, rfl, hyields⟩
  · right
    have hclosed : closed.1.task? 0 = some (.operating id place) :=
      closeAll_task? hclock inv.connection.space ht rfl performed.2
    refine ⟨?_, fun result hresult => ?_⟩
    · rw [Gateway.result?, hclosed]
    · cases ht.symm.trans hresult
  · refine .inl ⟨result, Gateway.result?_eq.2
      (closeAll_task? hclock inv.connection.space ht rfl performed.2), ?_⟩
    have hreports := h.reports hyields
    rw [← perform_report ht] at hreports
    exact hreports

/-! ## Command lines -/

theorem loads_unique {path : Path} {file' : ConnectionsFile} (h : v.Loads path file)
    (h' : v.Loads path file') : file' = file := by
  obtain ⟨spot, content, text, hwalk, -, hnode, htext, hparse⟩ := h
  obtain ⟨spot', content', text', hwalk', -, hnode', htext', hparse'⟩ := h'
  cases hwalk.symm.trans hwalk'
  cases hnode.symm.trans hnode'
  cases htext.symm.trans htext'
  exact Except.ok.inj (hparse'.symm.trans hparse)

theorem sound_of_loads {path : Path} (h : v.Loads path file) : file.Sound := by
  obtain ⟨spot, content, text, -, -, -, -, hparse⟩ := h
  exact (ConnectionsFile.parse_eq_ok_iff.1 hparse).2

theorem line_ne (text : String) : text ++ "\n" ≠ "" := by
  intro h
  have hlength := congrArg String.length h
  simp at hlength

/-- A report is not nothing. -/
theorem output_ne (inv : Invocation) (report : Report) : (inv.ending (.ok report)).output ≠ "" :=
  line_ne _

theorem Invocation.Reports.output_ne {inv : Invocation} {result : Except Error Effect}
    {ending : Ending} (h : inv.Reports result ending) : ending.output ≠ "" := by
  obtain ⟨shown, -, houtput, -⟩ := h
  rw [houtput]
  exact line_ne _

/-- Without a connections file, there is no report. -/
theorem execute_unloaded (setting : Setting (StateM Volume)) {inv : Invocation}
    (hlog : inv.debugLog = none)
    (hload : ∀ file,
      ((loadFile inv.config setting.fuel : StateM Volume (Result ConnectionsFile)) v).1 ≠
        .ok file) :
    ∃ f, ((execute setting inv : StateM Volume _) v).1 = (.error f, none) := by
  rw [execute_eq hlog]
  generalize (loadFile inv.config setting.fuel : StateM Volume (Result ConnectionsFile)) v = loaded
    at hload ⊢
  obtain ⟨f | file, v'⟩ := loaded
  · exact ⟨f, rfl⟩
  · exact absurd rfl (hload file)

/-- What the execution of an invocation comes to that has loaded a connections file, and has read
the clock as its operation began. -/
structure Invocation.Comes (inv : Invocation) (file : ConnectionsFile) (moment : Instant)
    (v : Volume) (result : Result Report) (g : Gateway) : Prop where
  closed : g.isAborted = false →
    ∀ key, key.space = inv.connection.space → g.shared.registry.lookup? key = none
  aborts : g.isAborted = true ↔
    ¬ inv.command.Refused file inv.connection v ∧
      inv.command.Aborts file inv.connection moment v
  refused : inv.command.Refused file inv.connection v → ∃ f, result = .error f
  reported : ¬ inv.command.Refused file inv.connection v → (∃ report, result = .ok report) ∧
    ((∃ effect, g.result? 0 = some (.operated effect) ∧ inv.Reports effect (inv.ending result)) ∨
      inv.command.Endless file inv.connection v ∧ g.result? 0 = none)

/-- If the command is refused, nothing was begun and there is no connection to close. -/
theorem Invocation.comes_refused (hclock : ∀ v, (setting.clock v).2 = v) {inv : Invocation}
    (hrefused : inv.command.Refused file inv.connection v) (f : Failure) (moment : Instant)
    (v' : Volume) :
    inv.Comes file moment v (.error f) ((closeAll setting inv.connection.space
      (.start setting.writer) : StateM Volume _) v').1 := by
  have hidle : (Gateway.start setting.writer).Settled [] := ⟨rfl, fun t ht => by cases ht⟩
  have hruns := (closeAll_settles hclock hidle inv.connection.space v').isAborted
  constructor
  · exact fun _ key hkey => closeAll_registry hclock _ rfl _ hkey
  · constructor
    · intro habort
      cases hruns.symm.trans habort
    · rintro ⟨hready, -⟩
      exact absurd hrefused hready
  · exact fun _ => ⟨f, rfl⟩
  · exact fun hready => absurd hrefused hready

/-- Otherwise an operation was begun, and the connections are closed after it. -/
theorem Invocation.comes_begun (hclock : ∀ v, (setting.clock v).2 = v) (hfile : file.Sound)
    {inv : Invocation} (hready : ¬ inv.command.Refused file inv.connection v)
    {loaded : Volume} (halike : v.Alike v')
    (hbegins : inv.command.Begins file inv.connection loaded action transfer v')
    (hfuel : 0 < setting.fuel)
    (hends : ¬ inv.command.Endless file inv.connection v →
      ∃ result, ((perform setting ⟨file, .standard⟩ inv.connection action inv.command.path
        transfer (.start setting.writer) : StateM Volume _) v').1.2.2.task? 0 =
          some (.finished result)) :
    let performed := (perform setting ⟨file, .standard⟩ inv.connection action inv.command.path
      transfer (.start setting.writer) : StateM Volume _) v'
    inv.Comes file (setting.clock v').1 v
      (.ok (inv.command.finish performed.1.1 performed.1.2.1))
      ((closeAll setting inv.connection.space performed.1.2.2 : StateM Volume _)
        performed.2).1 := by
  intro performed
  obtain ⟨policies, hperformed, hoverflows⟩ := perform_settles hclock hfile hfuel inv.connection
    action inv.command.path transfer v'
  have hclosed := closeAll_settles hclock hperformed inv.connection.space performed.2
  constructor
  · intro hruns
    rw [hclosed.isAborted, ← hperformed.isAborted] at hruns
    exact fun key hkey => closeAll_registry hclock _ hruns _ hkey
  · rw [hclosed.isAborted, hoverflows]
    constructor
    · intro haborts
      exact ⟨hready, Command.Aborts.alike haborts halike.symm⟩
    · rintro ⟨-, haborts⟩
      exact haborts.alike halike
  · exact fun hrefused => absurd hrefused hready
  · refine fun _ => ⟨⟨_, rfl⟩, ?_⟩
    rcases hbegins.comes hclock with hreports | ⟨hnone, hunended⟩
    · exact .inl hreports
    · refine .inr ⟨?_, hnone⟩
      by_contra hfinite
      obtain ⟨ended, hended⟩ := hends hfinite
      exact hunended ended hended

/-- The connections file was loaded: what the program comes to, once the connections are closed. -/
theorem execute_loaded (setting : Setting (StateM Volume)) (hclock : ∀ v, (setting.clock v).2 = v)
    (hv : v.Rooted) {inv : Invocation} (hlog : inv.debugLog = none)
    (hloads : v.Loads inv.config file)
    (hload : ((loadFile inv.config setting.fuel : StateM Volume (Result ConnectionsFile)) v).1 =
      .ok file)
    {size : Nat} (hfuel : Operation.toGo size < setting.fuel)
    (hends : ¬ inv.command.Endless file inv.connection v →
      inv.command.EndsWithin file inv.connection v size) :
    ∃ result g v', ((execute setting inv : StateM Volume _) v).1 = (result, some g) ∧
      v.Alike v' ∧ inv.Comes file (setting.clock v').1 v result g := by
  have hstreamed := streamed_loadFile inv.config setting.fuel v
  rw [execute_eq hlog]
  generalize (loadFile inv.config setting.fuel : StateM Volume (Result ConnectionsFile)) v = loaded
    at hload hstreamed ⊢
  obtain ⟨result, v₁⟩ := loaded
  cases hload
  simp only
  rcases carryOut_cases (sound_of_loads hloads) hstreamed inv.command with
    ⟨hrefused, f, hcarry⟩ | ⟨hready, action, transfer, v₂, hbegins, hcarry⟩
  · rw [hcarry]
    exact ⟨_, _, v, rfl, .refl v, Invocation.comes_refused hclock hrefused f _ _⟩
  · rw [hcarry]
    have halike : v.Alike v₂ := hbegins.alike hstreamed.alike hv
    refine ⟨_, _, v₂, rfl, halike, Invocation.comes_begun hclock (sound_of_loads hloads) hready
      halike hbegins (Nat.zero_lt_of_lt hfuel) ?_⟩
    intro hfinite
    exact hends hfinite setting v₁ v₂ action transfer hclock hfuel hstreamed hbegins

/-- The program exits with 1 and without a report just if the lock or the local file is refused. -/
theorem Invocation.Comes.silent_iff {inv : Invocation} {moment : Instant} {result : Result Report}
    {g : Gateway} (h : inv.Comes file moment v result g) :
    let ending := if g.isAborted then Ending.aborted else inv.ending result
    ending.output = "" ∧ ending.status = 1 ↔ inv.command.Refused file inv.connection v := by
  intro ending
  by_cases hrefused : inv.command.Refused file inv.connection v
  · obtain ⟨f, hfailed⟩ := h.refused hrefused
    have hruns : ¬ g.isAborted = true := fun habort => (h.aborts.1 habort).1 hrefused
    have hending : ending = inv.ending (.error f) := (if_neg hruns).trans (by rw [hfailed])
    rw [hending]
    exact ⟨fun _ => hrefused, fun _ => ⟨rfl, rfl⟩⟩
  · obtain ⟨⟨report, hreport⟩, -⟩ := h.reported hrefused
    constructor
    · rintro ⟨houtput, hstatus⟩
      by_cases habort : g.isAborted = true
      · have hending : ending = .aborted := if_pos habort
        rw [hending] at hstatus
        cases hstatus
      · have hending : ending = inv.ending (.ok report) := (if_neg habort).trans (by rw [hreport])
        rw [hending] at houtput
        exact absurd houtput (output_ne inv report)
    · intro h
      exact absurd h hrefused

/-- With fuel enough, this is what becomes of an invocation whose connections file is in order. -/
theorem execute_comes (setting : Setting (StateM Volume)) (hclock : ∀ v, (setting.clock v).2 = v)
    (hv : v.Rooted) {inv : Invocation} (hlog : inv.debugLog = none)
    (hloads : v.Loads inv.config file) :
    ∃ enough, ∀ fuel ≥ enough, ∃ result g v',
      ((execute { setting with fuel := fuel } inv : StateM Volume _) v).1 = (result, some g) ∧
        v.Alike v' ∧ inv.Comes file (setting.clock v').1 v result g := by
  obtain ⟨enough, henough⟩ := loadFile_eq_ok_iff hv inv.config
  -- the fuel that it takes if there is an end
  obtain ⟨size, hsize⟩ : ∃ size, ¬ inv.command.Endless file inv.connection v →
      inv.command.EndsWithin file inv.connection v size := by
    by_cases hendless : inv.command.Endless file inv.connection v
    · exact ⟨0, fun h => absurd hendless h⟩
    · obtain ⟨size, hsize⟩ := Command.exists_endsWithin hv hendless
      exact ⟨size, fun _ => hsize⟩
  refine ⟨max enough (Operation.toGo size + 1), fun fuel hfuel => ?_⟩
  have hload := (henough fuel (Nat.le_trans (Nat.le_max_left _ _) hfuel) file).2 hloads
  exact execute_loaded { setting with fuel := fuel } hclock hv hlog hloads hload
    (Nat.le_trans (Nat.le_max_right _ _) hfuel) hsize

/-- An operation that aborts whenever it begins is not reported. -/
theorem program_aborts (setting : Setting (StateM Volume)) (hclock : ∀ v, (setting.clock v).2 = v)
    (hv : v.Rooted) {args : List String} {inv : Invocation}
    (hread : Invocation.read args = .ok inv) (hlog : inv.debugLog = none)
    (hloads : v.Loads inv.config file) (hready : ¬ inv.command.Refused file inv.connection v)
    (haborts : ∀ now, inv.command.Aborts file inv.connection now v) :
    ∃ enough, ∀ fuel ≥ enough,
      ((program { setting with fuel := fuel } args : StateM Volume _) v).1 = .aborted := by
  obtain ⟨enough, henough⟩ := execute_comes setting hclock hv hlog hloads
  refine ⟨enough, fun fuel hfuel => ?_⟩
  obtain ⟨result, g, v', hexecute, -, hcomes⟩ := henough fuel hfuel
  have habort : g.isAborted = true := hcomes.aborts.2 ⟨hready, haborts _⟩
  simp only [program_eq hread, hexecute]
  exact if_pos habort

/-- Whatever command line is accepted, and whatever files there are, with fuel enough: the program
prints nothing and exits with 1 just if there is nothing to run an operation on. Otherwise, the
operation has ended and the program reports its result, unless there is no end to it; and if the
connections file was loaded, no connection of the namespace is registered any more. All of this but
the first is for programs that do not abort. They abort just if their operation makes them do so at
the moment at which it has begun. -/
theorem program_reports (setting : Setting (StateM Volume)) (hclock : ∀ v, (setting.clock v).2 = v)
    {v : Volume} (hv : v.Rooted) {args : List String} {inv : Invocation}
    (hread : Invocation.read args = .ok inv) (hlog : inv.debugLog = none) :
    ∃ enough, ∀ fuel ≥ enough,
      let ending := ((program { setting with fuel := fuel } args : StateM Volume _) v).1
      let gateway := ((execute { setting with fuel := fuel } inv : StateM Volume _) v).1.2
      (ending.output = "" ∧ ending.status = 1 ↔ inv.Unready v) ∧
      ∀ file, v.Loads inv.config file → ∃ g, gateway = some g ∧
        (∃ v', v.Alike v' ∧ (g.isAborted = true ↔
          ¬ inv.Unready v ∧ inv.command.Aborts file inv.connection (setting.clock v').1 v)) ∧
        (g.isAborted = true → ending = .aborted) ∧
        (g.isAborted = false →
          (∀ key, key.space = inv.connection.space → g.shared.registry.lookup? key = none) ∧
          (¬ inv.Unready v →
            (∃ result, g.result? 0 = some (.operated result) ∧ inv.Reports result ending) ∨
              inv.command.Endless file inv.connection v ∧ g.result? 0 = none)) := by
  by_cases hloads : ∃ file, v.Loads inv.config file
  · obtain ⟨file, hfile⟩ := hloads
    have hunready : inv.Unready v ↔ inv.command.Refused file inv.connection v :=
      ⟨fun h => h file hfile, fun h file' hfile' => loads_unique hfile hfile' ▸ h⟩
    obtain ⟨enough, henough⟩ := execute_comes setting hclock hv hlog hfile
    refine ⟨enough, fun fuel hfuel => ?_⟩
    obtain ⟨result, g, v', hexecute, halike, hcomes⟩ := henough fuel hfuel
    simp only [program_eq hread, hexecute, hunready]
    refine ⟨hcomes.silent_iff, fun file' hfile' => ?_⟩
    cases loads_unique hfile hfile'
    refine ⟨g, rfl, ⟨v', halike, hcomes.aborts⟩, fun habort => if_pos habort, fun hruns => ?_⟩
    refine ⟨hcomes.closed hruns, fun hready => ?_⟩
    have hending : (if Option.any Gateway.isAborted (some g) then Ending.aborted
        else inv.ending result) = inv.ending result :=
      if_neg (Bool.eq_false_iff.1 hruns)
    rw [hending]
    exact (hcomes.reported hready).2
  · obtain ⟨enough, henough⟩ := loadFile_eq_ok_iff hv inv.config
    refine ⟨enough, fun fuel hfuel => ⟨⟨fun _ file hfile => ?_, fun _ => ?_⟩, fun file hfile => ?_⟩⟩
    · exact absurd ⟨file, hfile⟩ hloads
    · obtain ⟨f, hf⟩ := execute_unloaded { setting with fuel := fuel } hlog
        fun file h => hloads ⟨file, (henough fuel hfuel file).1 h⟩
      simp only [program_eq hread, hf]
      exact ⟨rfl, rfl⟩
    · exact absurd ⟨file, hfile⟩ hloads

/-! ### At a desk -/

/-- A volume that holds a connections file which is in order, loads it. -/
theorem loads_of_any {path : Path} {spot : Spot} {content : Bytes}
    {holds : ConnectionsFile → Bool} (hwalk : v.walk .follow path = .ok spot)
    (hslashed : spot.slashed = false) (hnode : spot.node = some (.file content))
    (hholds : (parseFile path content).toOption.any holds = true) :
    ∃ file, v.Loads path file ∧ holds file = true := by
  cases hparse : parseFile path content with
  | error f =>
    rw [hparse] at hholds
    cases hholds
  | ok file =>
    rw [hparse] at hholds
    obtain ⟨text, htext, hparse⟩ := parseFile_eq_ok_iff.1 hparse
    exact ⟨file, ⟨spot, content, text, hwalk, hslashed, hnode, htext, hparse⟩, hholds⟩

/-- The connection at the desk. -/
def atDesk : ConnectionKey := ⟨"o", "l"⟩

/-- Reads the file in the directory into the report. -/
def readAtDesk : List String :=
  ["--config", "/c", "--namespace", "o", "--connection", "l", "read", "f"]

/-- The connections file at the desk is in order, and the connection is not suspended for a single
failure. -/
theorem loads_desk : ∃ file, desk.Loads ⟨"/c"⟩ file ∧
    (file.find? atDesk).any (fun config => config.maxFailures = 3) = true := by
  have hwalk : desk.walk .follow ⟨"/c"⟩ =
      .ok ⟨["c"], some (.file (desk.tree.bytes ["c"])), false⟩ := by
    decide +kernel
  exact loads_of_any hwalk rfl rfl (by decide +kernel)

/-- There is no device at the desk that has no end. -/
theorem node?_desk (place : Place) : desk.tree.node? place ≠ some (.device .full) := by
  cases place with
  | nil => nofun
  | cons name names =>
    intro h
    obtain ⟨before, after, hentries, -⟩ := List.lookup_eq_some_iff.1 h
    have hmem : (name :: names, Node.device .full) ∈ desk.tree.entries := by
      rw [hentries]
      exact List.mem_append_right _ List.mem_cons_self
    have hnone : ∀ entry ∈ desk.tree.entries, entry.2 ≠ .device .full := by decide
    exact hnone _ hmem rfl

/-- The file is read, and the program reports that. -/
theorem program_reports_read :
    ∃ inv, Invocation.read readAtDesk = .ok inv ∧ ¬ inv.Unready desk ∧
      ∃ enough, ∀ fuel ≥ enough, ∃ result, inv.Reports result
        ((program { still with fuel := fuel } readAtDesk : StateM Volume _) desk).1 := by
  have hread : Invocation.read readAtDesk = .ok
      ⟨⟨"/c"⟩, atDesk, .read ⟨"f"⟩ none, 0, false, none, 0, 0⟩ := by
    decide +kernel
  obtain ⟨file, hfile, hlimit⟩ := loads_desk
  refine ⟨_, hread, fun h => h file hfile, ?_⟩
  obtain ⟨enough, henough⟩ := program_reports still (fun _ => rfl) rooted_desk hread rfl
  refine ⟨enough, fun fuel hfuel => ?_⟩
  obtain ⟨g, -, ⟨v', -, haborts⟩, -, hruns⟩ := (henough fuel hfuel).2 file hfile
  have hruns' : g.isAborted = false := by
    rw [Bool.eq_false_iff]
    intro habort
    obtain ⟨-, config, hfind, hover⟩ := haborts.1 habort
    rw [hfind, Option.any_some, decide_eq_true_eq, hover.limit] at hlimit
    cases hlimit
  rcases (hruns hruns').2 fun h => h file hfile with
    ⟨result, -, hreports⟩ | ⟨⟨config, -, source, -, hfull⟩, -⟩
  · exact ⟨result, hreports⟩
  · exact absurd hfull (node?_desk source)

/-- A desk whose connection is suspended for too long for any clock, by the first failure. -/
def longDesk : Volume :=
  .ofTree
    ⟨[(["c"], .file (Text.writeUtf8
        ("\x7b\"connections\": [\x7b\"name\": \"l\", \"namespace\": \"o\", " ++
          "\"protocol\": \"file\", \"working_dir\": \"/data\", " ++
          "\"max_failure_retry_count\": 1, \"suspend_duration\": \"9223372036854775808s\", " ++
          "\"max_backoff\": \"9223372036854775808s\"\x7d]\x7d"))),
      (["data"], .directory)]⟩ []

/-- Looks for a file in a directory that is not there. -/
def probeAtDesk : List String :=
  ["--config", "/c", "--namespace", "o", "--connection", "l", "exists", "missing/f"]

/-- What makes an operation on a connection to the directory abort. -/
def isOverlong (config : ConnectionConfig) : Bool :=
  config.protocol = .file ∧ config.workingDir = ⟨"/data"⟩ ∧ config.maxFailures = 1 ∧
    clockEnd ≤ ((SuspensionConfig.ofConfig config).duration 1).nanos

theorem loads_longDesk : ∃ file, longDesk.Loads ⟨"/c"⟩ file ∧
    (file.find? atDesk).any isOverlong = true := by
  have hwalk : longDesk.walk .follow ⟨"/c"⟩ =
      .ok ⟨["c"], some (.file (longDesk.tree.bytes ["c"])), false⟩ := by
    decide +kernel
  exact loads_of_any hwalk rfl rfl (by decide +kernel)

/-- At that desk, the probe aborts whenever it begins. -/
theorem aborts_longDesk {file : ConnectionsFile}
    (hfile : (file.find? atDesk).any isOverlong = true) (now : Instant) :
    (Command.probe ⟨"missing/f"⟩).Aborts file atDesk now longDesk := by
  obtain ⟨config, hfind, hlong⟩ := (Option.any_eq_true _ _).1 hfile
  obtain ⟨hprotocol, hdir, hlimit, hlate⟩ := of_decide_eq_true hlong
  refine ⟨config, hfind, hprotocol, ?_, ?_, hlimit, Nat.le_trans hlate (Nat.le_add_left _ _)⟩
  · rw [hdir]
    decide
  · rw [hdir]
    rintro ⟨found, hfound⟩
    have hmissing : ((DiskStore.resolve ((⟨"/data"⟩ : Path).join ⟨"missing/f"⟩) :
        StateM Volume (Result FileRef)) longDesk).1.toOption = none := by
      decide +kernel
    cases hmissing.symm.trans (congrArg Except.toOption hfound)

/-- A program that has something to run an operation on, and whose operation has an end, may end
without a report. -/
theorem not_always_reported :
    ¬ ∀ {setting : Setting (StateM Volume)} {v : Volume} {args : List String} {inv : Invocation},
      (∀ v, (setting.clock v).2 = v) → v.Rooted → Invocation.read args = .ok inv →
      inv.debugLog = none → ¬ inv.Unready v →
      (∀ file, v.Loads inv.config file → ¬ inv.command.Endless file inv.connection v) →
      ∃ enough, ∀ fuel ≥ enough, ∃ result, inv.Reports result
        ((program { setting with fuel := fuel } args : StateM Volume _) v).1 := by
  intro h
  have hread : Invocation.read probeAtDesk = .ok
      ⟨⟨"/c"⟩, atDesk, .probe ⟨"missing/f"⟩, 0, false, none, 0, 0⟩ := by
    decide +kernel
  have hrooted : longDesk.Rooted := by
    refine ⟨?_, rfl⟩
    unfold FileTree.Rooted
    decide
  obtain ⟨file, hloads, hlong⟩ := loads_longDesk
  obtain ⟨enough, hreported⟩ := @h still longDesk probeAtDesk _ (fun _ => rfl) hrooted hread rfl
    (fun hunready => hunready file hloads) fun _ _ ⟨_, _, hendless⟩ => hendless
  obtain ⟨enough', haborted⟩ := program_aborts still (fun _ => rfl) hrooted hread rfl hloads id
    (aborts_longDesk hlong)
  obtain ⟨result, hreports⟩ := hreported (max enough enough') (Nat.le_max_left _ _)
  rw [haborted _ (Nat.le_max_right _ _)] at hreports
  exact hreports.output_ne rfl

end CommandLine

end FileGateway

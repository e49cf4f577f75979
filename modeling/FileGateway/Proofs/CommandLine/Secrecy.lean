import FileGateway.CommandLine.Program
import FileGateway.Proofs.CommandLine.Faithful
import FileGateway.Proofs.CommandLine.Loading
import FileGateway.Proofs.Connection.Passwords
import FileGateway.Proofs.Gateway.Blindness
import FileGateway.Proofs.Gateway.Scene

/-!
# Passwords are not seen

Two connections files that are the same without their passwords cannot be told apart by anything
that is done with them, as long as the factories ignore passwords (`ConnectionsFile.indistinct`).

For the library, the reason is that a gateway takes nothing of a deployment but its handles, and
these are the same (`Gateway.operate_withoutPasswords`). For the command line there is more to be
said, since it reads the connections file itself: what it has loaded is all that it keeps of it. The
stream it has read from is not used any more, and what is in the file is not looked at again, unless
the command line was told to work on that very file (`CommandLine.execute_twins`).
-/

namespace FileGateway

/-! ## The library -/

theorem Gateway.operate_withoutPasswords {d : Deployment} (h : d.factories.IgnorePasswords)
    (g : Gateway) (key : ConnectionKey) (action : Action) (path : Path) :
    g.operate d.withoutPasswords key action path = g.operate d key action path := by
  unfold Gateway.operate
  rw [Deployment.provide_withoutPasswords h]

/-- A call, with its operation on another deployment. -/
def Call.under (d : Deployment) : Call → Call
  | operate _ key action path => operate d key action path
  | call => call

/-- An event, with its operation on another deployment. -/
def Event.under (d : Deployment) : Event → Event
  | call c => call (c.under d)
  | e => e

namespace Scene

variable {ε : Type} {d : Deployment}

theorem step_withoutPasswords (h : d.factories.IgnorePasswords) (w : World ε) (c : Scene ε)
    (e : Event) : c.step w (e.under d.withoutPasswords) = c.step w (e.under d) := by
  cases e with
  | call call =>
    cases call with
    | operate d' key action path =>
      simp only [Event.under, Call.under, step, Gateway.call]
      rw [Gateway.operate_withoutPasswords h]
    | _ => rfl
  | _ => rfl

theorem run_withoutPasswords (h : d.factories.IgnorePasswords) (w : World ε) (c : Scene ε)
    (events : List Event) :
    c.run w (events.map (Event.under d.withoutPasswords)) =
      c.run w (events.map (Event.under d)) := by
  induction events generalizing c with
  | nil => rfl
  | cons e events ih =>
    simp only [List.map_cons, run, List.foldl_cons]
    rw [step_withoutPasswords h]
    exact ih _

end Scene

namespace CommandLine

open Volume (Blind Twins CallTwins)

/-! ## Commands -/

section

variable {m : Type → Type} [Monad m] [FileAccess m] (setting : Setting m)

theorem perform_withoutPasswords {d : Deployment} (h : d.factories.IgnorePasswords)
    (key : ConnectionKey) (action : Action) (path : Path) (transfer : Transfer) (g : Gateway) :
    perform setting d.withoutPasswords key action path transfer g =
      perform setting d key action path transfer g := by
  unfold perform
  rw [Gateway.operate_withoutPasswords h]

theorem chosenLock_withoutPasswords (file : ConnectionsFile) (key : ConnectionKey)
    (scheme : Option LockScheme) (expiry : Option Duration) :
    chosenLock file.withoutPasswords key scheme expiry = chosenLock file key scheme expiry := by
  unfold chosenLock
  rw [ConnectionsFile.find?_withoutPasswords]
  cases file.find? key <;> rfl

/-- A command is carried out in the same way without passwords. -/
theorem carryOut_withoutPasswords (file : ConnectionsFile) (key : ConnectionKey)
    (command : Command) (g : Gateway) :
    carryOut setting file.withoutPasswords key command g = carryOut setting file key command g := by
  have hperform : ∀ action path transfer g,
      perform setting ⟨file.withoutPasswords, .standard⟩ key action path transfer g =
        perform setting ⟨file, .standard⟩ key action path transfer g :=
    perform_withoutPasswords setting (d := ⟨file, .standard⟩) Factories.standard_ignore key
  unfold carryOut
  cases command <;> simp only [hperform, chosenLock_withoutPasswords]

end

/-! ## Commands that see nothing hidden -/

/-- The clock of a setting is no matter of what is under a veil. -/
structure Setting.Impartial (setting : Setting (StateM Volume)) (z : Veil) : Prop where
  still : ∀ v, (setting.clock v).2 = v
  same : ∀ v v', v.Twins z v' → (setting.clock v').1 = (setting.clock v).1

variable {setting : Setting (StateM Volume)} {z : Veil} {v v' : Volume} {g : Gateway}
  {transfer : Transfer}

theorem Setting.Impartial.blind_clock (h : setting.Impartial z) :
    Blind z setting.clock fun _ => True where
  keeps v _ := by rw [h.still]
  fits _ _ := trivial
  same v v' htwins _ _ := ⟨h.same v v' htwins, by rwa [h.still, h.still]⟩

/-- An operation is the next task, and the gateway is driven to the end of it. -/
theorem blind_perform (h : setting.Impartial z) (d : Deployment) (key : ConnectionKey)
    (action : Action) (path : Path) (ht : transfer.Sees z) :
    Blind z (perform setting d key action path transfer (.start setting.writer))
      fun r => r.2.2.Sees z := by
  have hstart : ((Gateway.start setting.writer).operate d key action path).2.Sees z := by
    obtain ⟨t, htasks, hcases⟩ := tasks_operate setting.writer d key action path
    intro t' ht'
    rw [htasks] at ht'
    cases List.mem_singleton.1 ht'
    rcases hcases with ⟨e, rfl⟩ | ⟨id, r, rfl⟩
    · exact .of_none rfl rfl
    · exact .of_none rfl rfl
  exact (Gateway.blind_drive h.blind_clock _ setting.fuel hstart ht).bind fun r hr => .pure hr.1

theorem blind_openOutput (output : Option Path) :
    Blind z (openOutput output : StateM Volume (Result Target)) fun r =>
      ∀ id, r = .ok (.stream id) → z.first ≤ id := by
  cases output with
  | none => exact .pure fun id h => by cases h
  | some path =>
    refine (Volume.blind_openWrite path false).bind fun r hr => ?_
    cases r with
    | error e => exact .pure fun id h => by cases h
    | ok id' => exact .pure fun id h => hr id (by cases h; rfl)

theorem blind_openContent (content : Content) :
    Blind z (openContent content : StateM Volume (Result Supply)) fun r =>
      ∀ id, r = .ok (.stream id) → z.first ≤ id := by
  cases content with
  | text data => exact .pure fun id h => by cases h
  | input path =>
    refine (Volume.blind_openRead path).bind fun r hr => ?_
    cases r with
    | error e => exact .pure fun id h => by cases h
    | ok id' => exact .pure fun id h => hr id (by cases h; rfl)

/-- A command that is carried out is blind to what is under a veil. -/
theorem blind_carryOut (h : setting.Impartial z) (file : ConnectionsFile) (key : ConnectionKey)
    (command : Command) :
    Blind z (carryOut setting file key command (.start setting.writer)) fun r => r.2.Sees z := by
  have hidle : (Gateway.start setting.writer).Sees z := fun t ht => by cases ht
  cases command with
  | probe path => exact (blind_perform h _ _ _ _ .plain).bind fun r hr => .pure hr
  | delete path => exact (blind_perform h _ _ _ _ .plain).bind fun r hr => .pure hr
  | read path output =>
    refine (blind_openOutput output).bind fun r hr => ?_
    cases r with
    | error f => exact .pure hidle
    | ok target =>
      have ht : Transfer.Sees z ⟨.text [], target⟩ := .ofText fun id hid => hr id (by rw [← hid])
      exact (blind_perform h _ _ _ _ ht).bind fun r hr => .pure hr
  | write path content append scheme expiry =>
    simp only [carryOut]
    cases chosenLock file key scheme expiry with
    | error f => exact .pure hidle
    | ok lock =>
      refine (blind_openContent content).bind fun r hr => ?_
      cases r with
      | error f => exact .pure hidle
      | ok supply =>
        have ht : Transfer.Sees z ⟨supply, .collected []⟩ :=
          .collecting fun id hid => hr id (by rw [← hid])
        exact (blind_perform h _ _ _ _ ht).bind fun r hr => .pure hr

theorem blind_closeAll (h : setting.Impartial z) (space : String) (hg : g.Sees z) :
    Blind z (closeAll setting space g) fun _ => True := by
  unfold closeAll
  split
  · exact .pure trivial
  · have hstart : (g.shutdown space).2.Sees z := hg.add (.ofEvicted _ _) _
    exact (Gateway.blind_drive h.blind_clock _ setting.fuel hstart .plain).bind
      fun _ _ => .pure trivial

/-! ## Loading -/

/-- The log file is opened, and the connections file is loaded. -/
def Invocation.load (inv : Invocation) (fuel : Nat) : StateM Volume (Result ConnectionsFile) := do
  let _ ← openLog inv.debugLog
  loadFile inv.config fuel

/-- The command is carried out with the connections that were loaded, and they are closed. -/
def Invocation.conclude (inv : Invocation) (setting : Setting (StateM Volume))
    (file : ConnectionsFile) : StateM Volume (Result Report × Option Gateway) := do
  let (result, g) ← carryOut setting file inv.connection inv.command (.start setting.writer)
  let g ← closeAll setting inv.connection.space g
  return (result, some g)

variable {inv : Invocation} {file : ConnectionsFile} {fuel : Nat} {hidden : Place → Prop}

/-- An invocation that loads a connections file concludes with it, if there is no trouble with the
log file. -/
theorem execute_load (hload : (inv.load setting.fuel v).1 = .ok file) :
    (execute setting inv : StateM Volume _) v =
      match (openLog inv.debugLog : StateM Volume (Result Unit)) v with
      | (.error f, v') => ((.error f, none), v')
      | (.ok (), _) => inv.conclude setting file (inv.load setting.fuel v).2 := by
  simp only [Invocation.load, stateM_bind] at hload ⊢
  rw [execute, stateM_bind]
  generalize (openLog inv.debugLog : StateM Volume (Result Unit)) v = logged at hload ⊢
  obtain ⟨_ | _, v₁⟩ := logged
  · rfl
  · simp only [stateM_bind] at hload ⊢
    generalize (loadFile inv.config setting.fuel : StateM Volume (Result ConnectionsFile)) v₁ =
      loaded at hload ⊢
    obtain ⟨_, v₂⟩ := loaded
    cases hload
    rfl

theorem openLog_twins (h : v.Twins z v') (log : Option Path) :
    CallTwins z ((openLog log : StateM Volume (Result Unit)) v)
      ((openLog log : StateM Volume (Result Unit)) v') := by
  cases log with
  | none => exact ⟨rfl, h⟩
  | some path =>
    have hboth := Volume.openWrite_twins h path true
    simp only [openLog, stateM_bind, FileAccess.openWrite, Volume.act]
    generalize v.openWrite path true = r at hboth ⊢
    generalize v'.openWrite path true = r' at hboth ⊢
    cases hboth with
    | refused e => exact ⟨rfl, h⟩
    | given fits => exact ⟨rfl, fits.2⟩

theorem places_openLog (log : Option Path) (v : Volume) :
    v.places <+: ((openLog log : StateM Volume (Result Unit)) v).2.places := by
  cases log with
  | none => exact List.prefix_rfl
  | some path =>
    simp only [openLog, stateM_bind, FileAccess.openWrite, Volume.act]
    cases hopen : v.openWrite path true with
    | error e => exact List.prefix_rfl
    | ok opened => exact (Volume.lengthens_openWrite hopen).places

theorem places_readToEnd (id : StreamId) (fuel : Nat) (v : Volume) :
    ((FileAccess.readToEnd id fuel : StateM Volume (SystemResult Bytes)) v).2.places =
      v.places := by
  induction fuel generalizing v with
  | zero => rfl
  | succ fuel ih =>
    rw [Volume.readToEnd_succ]
    cases hread : v.read id with
    | error e => rfl
    | ok found =>
      obtain ⟨_ | ⟨first, rest⟩, v'⟩ := found
      · exact Volume.places_read hread
      · exact (ih v').trans (Volume.places_read hread)

/-- For a connections file that is loaded, one stream is opened. -/
theorem length_loadFile {path : Path}
    (h : ((loadFile path fuel : StateM Volume (Result ConnectionsFile)) v).1 = .ok file) :
    ((loadFile path fuel : StateM Volume (Result ConnectionsFile)) v).2.streams.length =
      v.streams.length + 1 := by
  obtain ⟨content, hcontent, -⟩ := loadFile_read.1 h
  have hread : ((FileAccess.readFile path fuel : StateM Volume _) v).2.streams.length =
      v.streams.length + 1 := by
    rw [Volume.readFile_eq] at hcontent ⊢
    cases hopen : v.openRead path with
    | error e =>
      rw [hopen] at hcontent
      cases hcontent
    | ok opened =>
      obtain ⟨id, v'⟩ := opened
      obtain ⟨-, stream, hstreams⟩ := Volume.lengthens_openRead hopen
      have hplaces := congrArg List.length (places_readToEnd id fuel v')
      simp only [Volume.places, List.length_map] at hplaces
      simp only [hplaces, hstreams, List.length_append, List.length_singleton]
  rw [← hread]
  simp only [loadFile, stateM_bind]
  generalize (FileAccess.readFile path fuel : StateM Volume (SystemResult Bytes)) v = read
  obtain ⟨_ | _, v'⟩ := read <;> rfl

/-- What cannot be seen of a volume once the connections file was loaded: some files, and the
streams that were opened by then. -/
def Invocation.veil (inv : Invocation) (fuel : Nat) (hidden : Place → Prop) (v : Volume) : Veil :=
  ⟨hidden, (inv.load fuel v).2.streams.length⟩

theorem length_load (hload : (inv.load fuel v).1 = .ok file) :
    v.streams.length ≤ (inv.load fuel v).2.streams.length := by
  have hlogged := Volume.length_of_places (places_openLog inv.debugLog v)
  simp only [Invocation.load, stateM_bind] at hload ⊢
  rw [length_loadFile hload]
  exact Nat.le_succ_of_le hlogged

/-- Whatever two connections files are loaded, twins are left. -/
theorem load_twins {config' : Path} {file' : ConnectionsFile}
    (h : v.Twins ⟨hidden, v.streams.length⟩ v') (hload : (inv.load fuel v).1 = .ok file)
    (hload' : (({ inv with config := config' } : Invocation).load fuel v').1 = .ok file') :
    (inv.load fuel v).2.Twins (inv.veil fuel hidden v)
      (({ inv with config := config' } : Invocation).load fuel v').2 := by
  obtain ⟨-, hlogged⟩ := openLog_twins h inv.debugLog
  unfold Invocation.veil
  simp only [Invocation.load, stateM_bind] at hload hload' ⊢
  generalize ((openLog inv.debugLog : StateM Volume (Result Unit)) v).2 = v₁ at hlogged hload ⊢
  generalize ((openLog inv.debugLog : StateM Volume (Result Unit)) v').2 = v₁' at hlogged hload' ⊢
  have hlength := length_loadFile hload
  have hlength' := length_loadFile hload'
  have hs := streamed_loadFile inv.config fuel v₁
  have hs' := streamed_loadFile config' fuel v₁'
  generalize ((loadFile inv.config fuel : StateM Volume (Result ConnectionsFile)) v₁).2 = v₂
    at hlength hs ⊢
  generalize ((loadFile config' fuel : StateM Volume (Result ConnectionsFile)) v₁').2 = v₂'
    at hlength' hs' ⊢
  have hopened : v₂'.streams.length = v₂.streams.length := by
    rw [hlength, hlength', hlogged.opened]
  constructor
  · rw [hs.tree, hs'.tree]
    exact hlogged.tree
  · rw [hs.here, hs'.here]
    exact hlogged.here
  · exact hopened
  · intro id hid
    -- no stream was opened since
    rw [List.getElem?_eq_none hid, List.getElem?_eq_none (hopened ▸ hid)]

/-- Whatever is under a veil, a command line concludes in the same way, and leaves twins. -/
theorem blind_conclude (h : setting.Impartial z) (inv : Invocation) (file : ConnectionsFile) :
    Blind z (inv.conclude setting file) fun _ => True :=
  (blind_carryOut h file inv.connection inv.command).bind fun _ hg =>
    (blind_closeAll h inv.connection.space hg).bind fun _ _ => .pure trivial

theorem conclude_withoutPasswords (setting : Setting (StateM Volume)) (inv : Invocation)
    (file : ConnectionsFile) :
    inv.conclude setting file.withoutPasswords = inv.conclude setting file := by
  unfold Invocation.conclude
  rw [carryOut_withoutPasswords]

/-! ## Command lines -/

/-- Two volumes that differ in hidden files alone; from one of them a connections file is loaded,
and from the other one that is the same without passwords. What is done then is the same. -/
theorem execute_twins {file file' : ConnectionsFile}
    (hfiles : file'.withoutPasswords = file.withoutPasswords) {config' : Path}
    (h : v.Twins ⟨hidden, v.streams.length⟩ v') (hload : (inv.load setting.fuel v).1 = .ok file)
    (hload' : (({ inv with config := config' } : Invocation).load setting.fuel v').1 = .ok file')
    (hclock : setting.Impartial (inv.veil setting.fuel hidden v))
    (hdiscreet : ((execute setting inv : StateM Volume _) v).2.Discreet
      (inv.veil setting.fuel hidden v)) :
    CallTwins (inv.veil setting.fuel hidden v) ((execute setting inv : StateM Volume _) v)
      ((execute setting { inv with config := config' } : StateM Volume _) v') := by
  have hloaded := load_twins h hload hload'
  have hsame : ({ inv with config := config' } : Invocation).conclude setting file' =
      inv.conclude setting file := by
    rw [← conclude_withoutPasswords, hfiles, conclude_withoutPasswords]
    rfl
  obtain ⟨hlog, hlogged⟩ := openLog_twins (h.later (length_load hload)) inv.debugLog
  rw [execute_load hload] at hdiscreet ⊢
  rw [execute_load hload', hsame]
  generalize (openLog inv.debugLog : StateM Volume (Result Unit)) v = logged at *
  generalize (openLog inv.debugLog : StateM Volume (Result Unit)) v' = logged' at *
  obtain ⟨result, v₁⟩ := logged
  obtain ⟨result', v₁'⟩ := logged'
  cases hlog
  cases result with
  | error f => exact ⟨rfl, hlogged⟩
  | ok _ => exact (blind_conclude hclock inv file).same _ _ hloaded (Nat.le_refl _) hdiscreet

/-- Two command lines, each on a volume of its own, come to the same: the result is the same, and
so is the gateway with the health of its connections; the program exits with one status and prints
the same; and all files that are not hidden hold the same. -/
structure SameEnd (setting : Setting (StateM Volume)) (hidden : Place → Prop)
    (inv inv' : Invocation) (v v' : Volume) : Prop where
  outcome : ((execute setting inv' : StateM Volume _) v').1 =
    ((execute setting inv : StateM Volume _) v).1
  ending : ∀ args args', Invocation.read args = .ok inv → Invocation.read args' = .ok inv' →
    ((program setting args' : StateM Volume Ending) v').1 =
      ((program setting args : StateM Volume Ending) v).1
  files : ∀ place, ¬ hidden place →
    ((execute setting inv' : StateM Volume _) v').2.tree.node? place =
      ((execute setting inv : StateM Volume _) v).2.tree.node? place

theorem SameEnd.of_twins {config' : Path}
    (h : CallTwins z ((execute setting inv : StateM Volume _) v)
      ((execute setting { inv with config := config' } : StateM Volume _) v')) :
    SameEnd setting z.hidden inv { inv with config := config' } v v' where
  outcome := h.1
  ending args args' hread hread' := by
    simp only [program_eq hread, program_eq hread', h.1]
    rfl
  files place hseen := h.2.tree.seen hseen

end CommandLine

open CommandLine (Setting Invocation SameEnd)

/-- Nothing that is done with them tells two connections files apart: whether they are accepted,
how they are printed, what handles are made of them, and what a gateway does under them in whatever
world.

Nor does the command line, if the two files are on one volume and it names one or the other
(`beside`), or if the one file is in the place of the other and it works on other files
(`instead`). -/
structure ConnectionsFile.Indistinct (file file' : ConnectionsFile) (fs : Factories) : Prop where
  fault : firstFault? [] file'.connections = firstFault? [] file.connections
  printed : file'.toJson = file.toJson
  connected : ∀ r : Registry,
    (file'.connections.map fun c => r.connect c fs) = file.connections.map fun c => r.connect c fs
  provided : ∀ r key, Deployment.provide ⟨file', fs⟩ r key = Deployment.provide ⟨file, fs⟩ r key
  run : ∀ {ε : Type} (w : World ε) (c : Scene ε) (events : List Event),
    c.run w (events.map (Event.under ⟨file', fs⟩)) = c.run w (events.map (Event.under ⟨file, fs⟩))
  beside : ∀ {setting : Setting (StateM Volume)} {inv : Invocation} {config' : Path} {v : Volume},
    (inv.load setting.fuel v).1 = .ok file →
      (({ inv with config := config' } : Invocation).load setting.fuel v).1 = .ok file' →
        setting.Impartial (inv.veil setting.fuel (fun _ => False) v) →
          SameEnd setting (fun _ => False) inv { inv with config := config' } v v
  instead : ∀ {setting : Setting (StateM Volume)} {inv : Invocation} {hidden : Place → Prop}
    {v v' : Volume}, v.Twins ⟨hidden, v.streams.length⟩ v' →
      (inv.load setting.fuel v).1 = .ok file → (inv.load setting.fuel v').1 = .ok file' →
        setting.Impartial (inv.veil setting.fuel hidden v) →
          ((CommandLine.execute setting inv : StateM Volume _) v).2.Discreet
            (inv.veil setting.fuel hidden v) →
            SameEnd setting hidden inv inv v v'

/-- Two connections files that are the same without their passwords cannot be told apart, if the
factories ignore passwords. -/
theorem ConnectionsFile.indistinct {file file' : ConnectionsFile} {fs : Factories}
    (h : file'.withoutPasswords = file.withoutPasswords) (hfs : fs.IgnorePasswords) :
    file.Indistinct file' fs where
  fault := by
    rw [← file'.firstFault?_withoutPasswords, h, file.firstFault?_withoutPasswords]
  printed := by
    rw [← file'.toJson_withoutPasswords, h, file.toJson_withoutPasswords]
  connected r := by
    have hconnects : ∀ f : ConnectionsFile, (f.withoutPasswords.connections.map fun c =>
        r.connect c fs) = f.connections.map fun c => r.connect c fs := by
      intro f
      rw [ConnectionsFile.withoutPasswords, List.map_map]
      exact List.map_congr_left fun c _ => c.registry_connect_withoutPassword hfs r
    rw [← hconnects file', h, hconnects file]
  provided r key := by
    have hprovide : ∀ f : ConnectionsFile, Deployment.provide ⟨f.withoutPasswords, fs⟩ r key =
        Deployment.provide ⟨f, fs⟩ r key :=
      fun f => Deployment.provide_withoutPasswords (d := ⟨f, fs⟩) hfs r key
    rw [← hprovide file', h, hprovide file]
  run w c events := by
    have hrun : ∀ f : ConnectionsFile,
        c.run w (events.map (Event.under ⟨f.withoutPasswords, fs⟩)) =
          c.run w (events.map (Event.under ⟨f, fs⟩)) :=
      fun f => Scene.run_withoutPasswords (d := ⟨f, fs⟩) hfs w c events
    rw [← hrun file', h, hrun file]
  beside hload hload' hclock :=
    .of_twins (CommandLine.execute_twins h (.refl _) hload hload' hclock fun _ _ hfalse => hfalse)
  instead htwins hload hload' hclock hdiscreet :=
    .of_twins (CommandLine.execute_twins h htwins hload hload' hclock hdiscreet)

/-! ### At a desk -/

namespace CommandLine

/-- The connection to the directory `/data`, with a password or without. -/
def deskFile (password : Option String) : ConnectionsFile :=
  ⟨[{ ConnectionConfig.onDisk "o" "l" ⟨"/data"⟩ with password := password }]⟩

/-- The text of the connections file, with this member. -/
def deskText (member : String) : Bytes :=
  Text.writeUtf8
    ("\x7b\"connections\": [\x7b\"name\": \"l\", \"namespace\": \"o\", " ++ member ++
      "\"protocol\": \"file\", \"working_dir\": \"/data\"\x7d]\x7d")

/-- The desk with two connections files: one without a password, and one with this member. -/
def deskWith (member : String) : Volume :=
  { desk with
    tree := (desk.tree.put ["d"] (.file (deskText ""))).put ["c"] (.file (deskText member)) }

/-- The desk with a password. -/
def lockedDesk : Volume :=
  deskWith "\"password\": \"p\", "

/-- A local file is appended to a file of the connection under a lock. -/
def appending : Invocation :=
  fromFile ⟨"/in"⟩ true

/-- With the password, without it, and with a connections file that has none, the local file is
appended. -/
theorem indistinct_desk :
    (deskFile none).withoutPasswords = (deskFile (some "p")).withoutPasswords ∧
      (deskFile (some "p")).Indistinct (deskFile none) .standard ∧
      SameEnd still (fun _ => False) appending { appending with config := ⟨"/d"⟩ } lockedDesk
        lockedDesk ∧
      SameEnd still (· = ["c"]) appending appending lockedDesk (deskWith "") ∧
      ((execute still appending : StateM Volume _) lockedDesk).1.1.toOption.map Report.isOk =
        some true := by
  have hloads : ∀ {inv : Invocation} {v : Volume} {file : ConnectionsFile},
      (inv.load still.fuel v).1.toOption = some file → (inv.load still.fuel v).1 = .ok file := by
    intro inv v file h
    generalize (inv.load still.fuel v).1 = r at h ⊢
    cases r with
    | error e => cases h
    | ok found => exact congrArg Except.ok (Option.some.inj h)
  have hlocked : (appending.load still.fuel lockedDesk).1 = .ok (deskFile (some "p")) :=
    hloads (by decide +kernel)
  have hfile : (deskFile (some "p")).Indistinct (deskFile none) .standard :=
    ConnectionsFile.indistinct rfl Factories.standard_ignore
  refine ⟨rfl, hfile, ?_, ?_, by decide +kernel⟩
  · exact hfile.beside hlocked (hloads (by decide +kernel)) ⟨fun _ => rfl, fun _ _ _ => rfl⟩
  · have htwins : lockedDesk.Twins ⟨(· = ["c"]), lockedDesk.streams.length⟩ (deskWith "") :=
      ⟨(FileTree.Twins.refl _).put (.veiled rfl _ _), rfl, rfl, fun _ _ => rfl⟩
    refine hfile.instead htwins hlocked (hloads (by decide +kernel))
      ⟨fun _ => rfl, fun _ _ _ => rfl⟩ ?_
    change ∀ place ∈ _, ¬ place = ["c"]
    decide +kernel

end CommandLine

end FileGateway

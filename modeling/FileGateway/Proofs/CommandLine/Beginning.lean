import FileGateway.Proofs.CommandLine.Locking

/-!
# What a command begins

Before its operation, a command settles its lock and opens its local file. Either one of them is
refused (`Command.Refused`), and that is all that is done; or the operation is performed, and what
is reported is its result (`Command.Performs`). What it is performed with is `Command.Begins`.
-/

namespace FileGateway.CommandLine

/-- The lock of a command is void, or its local file is not opened. -/
def Command.Refused (file : ConnectionsFile) (key : ConnectionKey) (v : Volume) : Command → Prop
  | .read _ (some output) => ∃ e, v.openWrite output false = .error e
  | .write _ content _ scheme expiry =>
    ((file.lockOf key).overriddenBy scheme expiry).isVoid = true ∨
      ∃ input e, content = .input input ∧ v.openRead input = .error e
  | _ => False

/-- The path that a command is about. -/
def Command.path : Command → Path
  | probe path | read path _ | write path _ _ _ _ | delete path => path

/-- What a command begins with: its operation and the two ends of its transfer, once its lock is
settled and its local file is open. -/
inductive Command.Begins (file : ConnectionsFile) (key : ConnectionKey) (v : Volume) :
    Command → Action → Transfer → Volume → Prop where
  | probe (path : Path) : Begins file key v (.probe path) .probe .plain v
  | delete (path : Path) : Begins file key v (.delete path) .delete .plain v
  | read (path : Path) : Begins file key v (.read path none) .read ⟨.text [], .collected []⟩ v
  | readTo (path output : Path) (id : StreamId) (v' : Volume)
      (opened : v.openWrite output false = .ok (id, v')) :
      Begins file key v (.read path (some output)) .read ⟨.text [], .stream id⟩ v'
  | write (path : Path) (data : String) (append : Bool) (scheme : Option LockScheme)
      (expiry : Option Duration) (lock : Option LockConfig)
      (chosen : chosenLock file key scheme expiry = .ok lock) :
      Begins file key v (.write path (.text data) append scheme expiry) (.write ⟨append, lock⟩)
        ⟨.text (Text.writeUtf8 data), .collected []⟩ v
  | writeFrom (path input : Path) (append : Bool) (scheme : Option LockScheme)
      (expiry : Option Duration) (lock : Option LockConfig) (id : StreamId) (v' : Volume)
      (chosen : chosenLock file key scheme expiry = .ok lock)
      (opened : v.openRead input = .ok (id, v')) :
      Begins file key v (.write path (.input input) append scheme expiry) (.write ⟨append, lock⟩)
        ⟨.stream id, .collected []⟩ v'

variable {v v' : Volume} {file : ConnectionsFile} {key : ConnectionKey}

theorem openRead_error_iff (hs : v.Streamed v') {path : Path} {e : SystemError} :
    v'.openRead path = .error e ↔ v.openRead path = .error e := by
  unfold Volume.openRead
  rw [hs.walk]
  cases v.walk .follow path with
  | error e' => exact Iff.rfl
  | ok spot =>
    simp only [bind, Except.bind]
    split
    · exact Iff.rfl
    · exact ⟨nofun, nofun⟩
    · split
      · exact Iff.rfl
      · exact ⟨nofun, nofun⟩

theorem openWrite_error_iff (hs : v.Streamed v') {path : Path} {append : Bool} {e : SystemError} :
    v'.openWrite path append = .error e ↔ v.openWrite path append = .error e := by
  unfold Volume.openWrite
  rw [hs.walk]
  cases v.walk .create path with
  | error e' => exact Iff.rfl
  | ok spot =>
    simp only [bind, Except.bind]
    split
    · exact ⟨nofun, nofun⟩
    · exact ⟨nofun, nofun⟩
    · exact ⟨nofun, nofun⟩
    · exact Iff.rfl

/-- What a command makes of the report of its operation. -/
def Command.finish : Command → Report → Transfer → Report
  | .read _ output, report, transfer => withContent output report transfer
  | _, report, _ => report

/-- A command is carried out on a gateway with one operation. -/
def Command.Performs (file : ConnectionsFile) (key : ConnectionKey) (v : Volume)
    (command : Command) : Prop :=
  ∃ action transfer v', command.Begins file key v action transfer v' ∧
    ∀ (setting : Setting (StateM Volume)) g,
      (carryOut setting file key command g : StateM Volume _) v =
        let performed := (perform setting ⟨file, .standard⟩ key action command.path transfer g :
          StateM Volume _) v'
        ((.ok (command.finish performed.1.1 performed.1.2.1), performed.1.2.2), performed.2)

/-- A command is refused, or it is carried out. -/
theorem carryOut_cases (hfile : file.Sound) (hs : v.Streamed v') (command : Command) :
    (command.Refused file key v ∧ ∃ f, ∀ (setting : Setting (StateM Volume)) g,
      (carryOut setting file key command g : StateM Volume _) v' = ((.error f, g), v')) ∨
    (¬ command.Refused file key v ∧ command.Performs file key v') := by
  cases command with
  | probe path => exact .inr ⟨id, _, _, _, .probe path, fun _ _ => rfl⟩
  | delete path => exact .inr ⟨id, _, _, _, .delete path, fun _ _ => rfl⟩
  | read path output =>
    cases output with
    | none => exact .inr ⟨id, _, _, _, .read path, fun _ _ => rfl⟩
    | some output =>
      cases hopen : v'.openWrite output false with
      | error e =>
        refine .inl ⟨⟨e, (openWrite_error_iff hs).1 hopen⟩,
          openingFailure "failed creating output file" output e, fun setting g => ?_⟩
        simp only [carryOut, openOutput, stateM_bind, FileAccess.openWrite, Volume.act, hopen]
        rfl
      | ok opened =>
        obtain ⟨id, v''⟩ := opened
        refine .inr ⟨?_, _, _, _, .readTo path output id v'' hopen, fun setting g => ?_⟩
        · rintro ⟨e, he⟩
          cases hopen.symm.trans ((openWrite_error_iff hs).2 he)
        · simp only [carryOut, openOutput, stateM_bind, FileAccess.openWrite, Volume.act, hopen]
          rfl
  | write path content append scheme expiry =>
    cases hlock : chosenLock file key scheme expiry with
    | error f =>
      refine .inl ⟨.inl (isVoid_of_chosenLock hlock), f, fun setting g => ?_⟩
      simp only [carryOut, hlock]
      rfl
    | ok lock =>
      have hvalid := (chosenLock_valid hfile hlock).2
      cases content with
      | text data =>
        refine .inr ⟨?_, _, _, _, .write path data append scheme expiry lock hlock,
          fun setting g => ?_⟩
        · rintro (hvoid | ⟨input, e, hinput, -⟩)
          · cases hvalid.symm.trans hvoid
          · cases hinput
        · simp only [carryOut, hlock]
          rfl
      | input input =>
        cases hopen : v'.openRead input with
        | error e =>
          refine .inl ⟨.inr ⟨input, e, rfl, (openRead_error_iff hs).1 hopen⟩,
            openingFailure "failed opening input file" input e, fun setting g => ?_⟩
          simp only [carryOut, hlock, openContent, stateM_bind, FileAccess.openRead, Volume.act,
            hopen]
          rfl
        | ok opened =>
          obtain ⟨id, v''⟩ := opened
          refine .inr ⟨?_, _, _, _,
            .writeFrom path input append scheme expiry lock id v'' hlock hopen, fun setting g => ?_⟩
          · rintro (hvoid | ⟨input', e, hinput, he⟩)
            · cases hvalid.symm.trans hvoid
            · cases hinput
              cases hopen.symm.trans ((openRead_error_iff hs).2 he)
          · simp only [carryOut, hlock, openContent, stateM_bind, FileAccess.openRead, Volume.act,
              hopen]
            rfl

end FileGateway.CommandLine

import FileGateway.Proofs.Gateway.Calls
import FileGateway.Proofs.Gateway.Lasting
import FileGateway.Proofs.Connection.Accepted
import FileGateway.Proofs.Operation.Mapping
import FileGateway.Proofs.Registry.Checkout

/-!
# Sessions

A session is a sequence of calls to probe, read, write and delete files on configured connections to
the local disk, run one after another, however long each of their answers takes. `Explained` tells
it by a map from places to what is there: a call that ends well does on the map what its action does
at the normal form of its path, and any other call changes nothing. Every session is explained, and
every call that is made in it ends (`Session.explained`).
-/

namespace FileGateway

open CommandLine (Transfer)

/-- A call of the library to do something with a file. If it writes, it writes its `source`. -/
structure FileCall where
  key : ConnectionKey
  action : Action
  path : Path
  source : Bytes

/-- A call is made, and carried on from one moment to the next. No lease expires meanwhile. -/
def FileCall.run (file : ConnectionsFile) (c : FileCall) (r : Run (Transfer × Volume))
    (moments : List Instant) : Run (Transfer × Volume) :=
  let (id, g) := r.gateway.operate ⟨file, .standard⟩ c.key c.action c.path
  Run.carry diskWorld id ⟨g, (⟨.text c.source, .collected []⟩, r.world.2), r.due⟩ moments

/-- A call has ended with a result, and has brought some bytes to its caller. -/
structure FileCall.Ends (file : ConnectionsFile) (c : FileCall) (before : Run (Transfer × Volume))
    (result : Except Error Effect) (bytes : Bytes) (after : Run (Transfer × Volume)) : Prop where
  carried : ∃ moments, after = c.run file before moments
  result : after.gateway.result? before.gateway.tasks.length = some (.operated result)
  bytes : after.world.1.collected = bytes

/-- What is known of a call that has ended. -/
structure FileEntry where
  call : FileCall
  result : Except Error Effect
  bytes : Bytes

/-- Calls are made, each when the one before has ended. -/
inductive Session (file : ConnectionsFile) :
    Run (Transfer × Volume) → List FileEntry → Run (Transfer × Volume) → Prop where
  | nil (r : Run (Transfer × Volume)) : Session file r [] r
  | cons {before middle after : Run (Transfer × Volume)} {entry : FileEntry}
      {log : List FileEntry}
      (ends : entry.call.Ends file before entry.result entry.bytes middle)
      (rest : Session file middle log after) : Session file before (entry :: log) after

/-- What a call has done, told by the map: a call that ends well does its action at the normal form
of its path, and any other call changes nothing. -/
inductive FileCall.Told (file : ConnectionsFile) (c : FileCall) (nodes : Place → Option Node) :
    Except Error Effect → Bytes → (Place → Option Node) → Prop where
  | failed (e : Error) (bytes : Bytes) : Told file c nodes (.error e) bytes nodes
  | done {effect : Effect} {bytes : Bytes} {nodes' : Place → Option Node}
      (config : ConnectionConfig) (place : Place)
      (connection : file.find? c.key = some config)
      (normal : (config.workingDir.join c.path).normal = .ok (.ofNames true place))
      (acts : c.action.on c.source place nodes = some (effect, bytes, nodes')) :
      Told file c nodes (.ok effect) bytes nodes'

/-- What is at each place before and after a sequence of calls, told by the map. -/
inductive Explained (file : ConnectionsFile) :
    (Place → Option Node) → List FileEntry → (Place → Option Node) → Prop where
  | nil (nodes : Place → Option Node) : Explained file nodes [] nodes
  | cons {nodes nodes' nodes'' : Place → Option Node} {entry : FileEntry} {log : List FileEntry}
      (told : entry.call.Told file nodes entry.result entry.bytes nodes')
      (rest : Explained file nodes' log nodes'') : Explained file nodes (entry :: log) nodes''

/-! ## Directories of connections -/

/-- A part of what is shared that lasts is there after a task was carried on. -/
theorem Shared.Lasting.carry {α ε : Type} {part : Shared → α} (h : Shared.Lasting part)
    (hnow : ∀ s now, part { s with now := now } = part s) (w : World ε) (id : TaskId)
    (r : Run ε) (moments : List Instant) :
    part (r.carry w id moments).gateway.shared = part r.gateway.shared := by
  induction moments generalizing r with
  | nil => rfl
  | cons moment moments ih =>
    rw [Run.carry, List.foldl_cons]
    refine (ih _).trans ?_
    have hadvance : part (r.advanceTo moment).gateway.shared = part r.gateway.shared := hnow _ _
    rw [← hadvance]
    simp only [Run.goOn]
    split
    · rfl
    · next p hp =>
      obtain ⟨t, q, -, hq, -, rfl⟩ := Gateway.pending?_eq hp
      split
      · exact h.next? hq _ _
      · rfl

/-- The directories in which handles work last. -/
theorem Shared.lasting_directories :
    Shared.Lasting fun s => s.registry.built.map Handle.baseDir := by
  refine ⟨⟨fun _ _ => rfl, fun _ _ => rfl, fun _ _ => rfl⟩, fun s id change hchange => ?_⟩
  have hsame : (s.registry.built.modify id change).map Handle.baseDir =
      (s.registry.built.map Handle.baseDir).modify id fun dir => dir := by
    refine map_modify (fun h => ?_) _ _
    obtain ⟨options, modified, policy, hchanged⟩ := hchange h
    rw [hchanged]
  exact hsame.trans (List.modify_id _ _)

/-- The registered handles work in the directories that their connections are configured with. -/
def Placed (file : ConnectionsFile) (r : Registry) : Prop :=
  ∀ key id, r.lookup? key = some id → ∃ config, file.find? key = some config ∧
    (r.handle? id).map Handle.baseDir = some config.workingDir

namespace Placed

variable {file : ConnectionsFile} {r r' : Registry} {key : ConnectionKey}

theorem congr (h : Placed file r) (htable : r'.table = r.table)
    (hdirs : r'.built.map Handle.baseDir = r.built.map Handle.baseDir) : Placed file r' := by
  intro key id hid
  rw [Registry.lookup?, htable] at hid
  obtain ⟨config, hfind, hdir⟩ := h key id hid
  refine ⟨config, hfind, ?_⟩
  rw [Registry.handle?, ← List.getElem?_map, hdirs, List.getElem?_map]
  exact hdir

/-- A handle that is built for a configured connection works in the directory of it. -/
theorem connect_eq {config : ConnectionConfig} {factories : Factories} {h : Handle}
    (hconnect : connect config factories = .ok h) :
    h.key = config.key ∧ h.baseDir = config.workingDir := by
  unfold connect at hconnect
  split at hconnect
  · cases hconnect
  · split at hconnect
    · cases hconnect
    · split at hconnect
      · cases hconnect
      · cases hconnect
        exact ⟨rfl, rfl⟩

/-- A new handle is registered under the key of its connection. -/
theorem enter (h : Placed file r) {config : ConnectionConfig} {new : Handle}
    (hfind : file.find? key = some config) (hdir : new.baseDir = config.workingDir) :
    Placed file ((r.build new).2.enter key r.built.length) := by
  intro other id hid
  rw [RegistryUse.lookup_enter] at hid
  cases hl : r.lookup? other with
  | some registered =>
    have hold : (r.build new).2.lookup? other = some registered := hl
    rw [hold, Option.some_or] at hid
    cases hid
    obtain ⟨config', hfind', hdir'⟩ := h other id hl
    obtain ⟨handle, hhandle, hplace⟩ := Option.map_eq_some_iff.1 hdir'
    refine ⟨config', hfind', ?_⟩
    have hlt : id < r.built.length := (List.getElem?_eq_some_iff.1 hhandle).1
    have hkept : (r.built ++ [new])[id]? = some handle :=
      (List.getElem?_append_left hlt).trans hhandle
    exact (congrArg (Option.map Handle.baseDir) hkept).trans (congrArg some hplace)
  | none =>
    have hold : (r.build new).2.lookup? other = none := hl
    rw [hold, Option.none_or] at hid
    split at hid
    · next hkey =>
      cases hid
      subst hkey
      refine ⟨config, hfind, ?_⟩
      have hnew : (r.built ++ [new])[r.built.length]? = some new := List.getElem?_concat_length
      exact (congrArg (Option.map Handle.baseDir) hnew).trans (congrArg some hdir)
    · cases hid

/-- A checkout leaves the handles where they work, and gives one that works in the directory of its
connection. -/
theorem provide (h : Placed file r) (factories : Factories) (key : ConnectionKey) :
    let creation := Deployment.provide ⟨file, factories⟩ r key
    Placed file creation.registry ∧ ∀ id, creation.handle = .ok id →
      creation.registry.lookup? key = some id := by
  cases hl : r.lookup? key with
  | some registered =>
    simp only [Deployment.provide, hl]
    exact ⟨h, fun id hid => congrArg some (Except.ok.inj hid)⟩
  | none =>
    cases hfind : file.find? key with
    | none =>
      simp only [Deployment.provide, hl, hfind]
      exact ⟨h, fun id hid => by cases hid⟩
    | some config =>
      obtain ⟨-, rfl⟩ := ConnectionsFile.mem_of_find? hfind
      simp only [Deployment.provide, hl, hfind, Registry.connect, Registry.provide]
      cases hconnect : connect config factories with
      | error e => exact ⟨h, fun id hid => by cases hid⟩
      | ok new =>
        obtain ⟨hkey, hdir⟩ := connect_eq hconnect
        simp only [hkey, if_true]
        refine ⟨h.enter hfind hdir, fun id hid => ?_⟩
        cases hid
        have hold : (r.build new).2.lookup? config.key = none := hl
        rw [RegistryUse.lookup_enter, hold, if_pos rfl]
        rfl

end Placed

/-! ## Calls -/

/-- What holds between calls: there are only files and directories, nobody is about, and the handles
work where they should. -/
structure Serving (file : ConnectionsFile) (r : Run (Transfer × Volume)) : Prop where
  plain : r.world.2.tree.Plain
  free : r.gateway.shared.guards.Free
  placed : Placed file r.gateway.shared.registry

namespace FileCall

variable {file : ConnectionsFile} {r : Run (Transfer × Volume)}

/-- An operation as a task. -/
theorem next?_operating (id : HandleId) (s : Shared) (place : Operation.Place) :
    (Task.operating id place).next? s =
      some ((Operation.next id s.writer place).map fun move s =>
        Solo.taskOf (.operating id)
          (fun result s => (.operated result, { s with registry := s.registry.giveBack id }))
          (move s)) := by
  refine congrArg (fun go => some ((Operation.next id s.writer place).map go)) ?_
  funext move s
  obtain ⟨step, s'⟩ := move s
  cases step <;> rfl

theorem ofOperation_eq (id : HandleId) (step : Step Operation.Place (Except Error Effect))
    (s : Shared) : Task.ofOperation id step s =
      Solo.taskOf (.operating id)
        (fun result s => (.operated result, { s with registry := s.registry.giveBack id }))
        (step, s) := by
  cases step <;> rfl

/-- A call leaves the handles where they work. -/
theorem placed_run (h : Placed file r.gateway.shared.registry) (c : FileCall)
    (moments : List Instant) : Placed file (c.run file r moments).gateway.shared.registry := by
  have hlasts : ∀ {α : Type} {part : Shared → α}, Shared.Lasting part →
      (∀ s now, part { s with now := now } = part s) →
      part (c.run file r moments).gateway.shared = part { r.gateway.shared with
        registry := (Deployment.provide ⟨file, .standard⟩ r.gateway.shared.registry
          c.key).registry } :=
    fun h hnow => (h.carry hnow _ _ _ _).trans (h.operate _ _ _ _ _)
  exact (h.provide .standard c.key).1.congr (hlasts Deployment.lasting_table fun _ _ => rfl)
    (hlasts Shared.lasting_directories fun _ _ => rfl)

/-- A call has ended with a result, and the map tells what it has done. -/
structure Served (file : ConnectionsFile) (c : FileCall) (before : Run (Transfer × Volume))
    (result : Except Error Effect) (after : Run (Transfer × Volume)) : Prop where
  ended : after.gateway.result? before.gateway.tasks.length = some (.operated result)
  told : c.Told file before.world.2.tree.node? result after.world.1.collected
    after.world.2.tree.node?
  plain : after.world.2.tree.Plain
  free : after.gateway.shared.guards.Free

theorem result?_among {x : Solo} {tasks : List Task} {result : TaskResult}
    {due : List (TaskId × Instant)} :
    (x.among tasks (.finished result) due).gateway.result? tasks.length = some result := by
  simp only [Gateway.result?, Solo.task?_among]

/-- A call that is carried on long enough ends. -/
theorem served_run (h : Serving file r) (c : FileCall) :
    ∃ n, ∀ moments, n ≤ moments.length →
      ∃ result, c.Served file r result (c.run file r moments) := by
  obtain ⟨⟨s, tasks⟩, ⟨transfer, volume⟩, due⟩ := r
  obtain ⟨hplain, hfree, hplaced⟩ := h
  obtain ⟨hplaced', hlookup⟩ := hplaced.provide .standard c.key
  simp only [run, Gateway.operate, Gateway.add]
  generalize hcreation : Deployment.provide ⟨file, .standard⟩ s.registry c.key = creation at *
  cases hhandle : creation.handle with
  | error e =>
    refine ⟨0, fun moments _ => ⟨.error e, ?_⟩⟩
    obtain ⟨now, hcarry⟩ := Solo.carry_finished
      ⟨{ s with registry := creation.registry }, ⟨.text c.source, .collected []⟩, volume⟩ tasks
      (.operated (.error e)) due moments
    refine hcarry.symm ▸ ?_
    exact ⟨result?_among, .failed e _, hplain, hfree⟩
  | ok id =>
    -- the handle works in the directory of its connection
    obtain ⟨config, hfind, hdir⟩ := hplaced' c.key id (hlookup id hhandle)
    obtain ⟨handle, hget, hbase⟩ := Option.map_eq_some_iff.1 hdir
    obtain ⟨n, hled⟩ : ∃ n, Solo.Leads (Operation.next id) (Operation.Ended c.action c.source
        (handle.place c.path) volume.tree.node?) n _ _ :=
      Operation.leads_start
        (x := ⟨{ s with registry := creation.registry }, ⟨.text c.source, .collected []⟩, volume⟩)
        hplain hfree rfl rfl hget c.path
    refine ⟨n, fun moments hn => ?_⟩
    obtain ⟨result, y, now, hended, hcarry⟩ :=
      hled.carry (next?_operating id) tasks due hn
    rw [← ofOperation_eq] at hcarry
    refine ⟨result, hcarry.symm ▸ ?_⟩
    cases hended with
    | failed e y settled =>
      have htold : c.Told file volume.tree.node? (.error e) y.transfer.collected
          y.volume.tree.node? := settled.nodes ▸ .failed e _
      exact ⟨result?_among, htold, settled.plain, settled.free⟩
    | done effect place nodes' y normal acts settled =>
      have hnormal : (config.workingDir.join c.path).normal = .ok (.ofNames true place) := by
        rw [← hbase]
        exact normal
      rw [← settled.nodes] at acts
      exact ⟨result?_among, .done config place hfind hnormal acts, settled.plain, settled.free⟩

/-- A call is given the next number. -/
theorem operate_fst (g : Gateway) (d : Deployment) (key : ConnectionKey) (action : Action)
    (path : Path) : (g.operate d key action path).1 = g.tasks.length := by
  simp only [Gateway.operate]
  cases (d.provide g.shared.registry key).handle <;> rfl

/-- However a call has ended, the map tells what it has done. -/
theorem served_of_ends {c : FileCall} {result : Except Error Effect} {bytes : Bytes}
    {after : Run (Transfer × Volume)} (h : Serving file r)
    (ends : c.Ends file r result bytes after) : c.Served file r result after := by
  obtain ⟨⟨moments, hrun⟩, hresult, -⟩ := ends
  obtain ⟨n, hserved⟩ := served_run h c
  -- were it carried on for long enough, nothing would change any more
  obtain ⟨result', hended, htold, hplain, hfree⟩ :=
    hserved (moments ++ List.replicate n 0) (by simp)
  have hfinished : after.gateway.task? r.gateway.tasks.length =
      some (.finished (.operated result)) := by
    simp only [Gateway.result?] at hresult
    split at hresult
    · next heq => rw [heq, Option.some.inj hresult]
    · cases hresult
  obtain ⟨now, hstill⟩ := Solo.carry_still diskWorld after r.gateway.tasks.length
    (fun s => by rw [hfinished]; rfl) (List.replicate n 0)
  have hmore : c.run file r (moments ++ List.replicate n 0) =
      after.carry diskWorld r.gateway.tasks.length (List.replicate n 0) := by
    rw [hrun, ← operate_fst r.gateway ⟨file, .standard⟩ c.key c.action c.path]
    exact List.foldl_append
  rw [hmore, hstill] at hended htold hplain hfree
  cases hended.symm.trans hresult
  exact ⟨hresult, htold, hplain, hfree⟩

theorem serving_of_ends {c : FileCall} {result : Except Error Effect} {bytes : Bytes}
    {after : Run (Transfer × Volume)} (h : Serving file r)
    (ends : c.Ends file r result bytes after) : Serving file after := by
  obtain ⟨-, -, hplain, hfree⟩ := served_of_ends h ends
  obtain ⟨⟨moments, rfl⟩, -, -⟩ := ends
  exact ⟨hplain, hfree, placed_run h.placed c moments⟩

/-- A call ends, however long its answers take. -/
theorem ends_run (h : Serving file r) (c : FileCall) :
    ∃ n, ∀ moments, n ≤ moments.length →
      ∃ result bytes, c.Ends file r result bytes (c.run file r moments) := by
  obtain ⟨n, hserved⟩ := served_run h c
  refine ⟨n, fun moments hn => ?_⟩
  obtain ⟨result, hended, -⟩ := hserved moments hn
  exact ⟨result, _, ⟨moments, rfl⟩, hended, rfl⟩

end FileCall

namespace Session

variable {file : ConnectionsFile} {before after : Run (Transfer × Volume)} {log : List FileEntry}

theorem serving (h : Session file before log after) (hserving : Serving file before) :
    Serving file after := by
  induction h with
  | nil r => exact hserving
  | cons ends rest ih => exact ih (FileCall.serving_of_ends hserving ends)

theorem explained_of_serving (h : Session file before log after) (hserving : Serving file before) :
    Explained file before.world.2.tree.node? log after.world.2.tree.node? := by
  induction h with
  | nil r => exact .nil _
  | cons ends rest ih =>
    have htold := (FileCall.served_of_ends hserving ends).told
    rw [ends.bytes] at htold
    exact .cons htold (ih (FileCall.serving_of_ends hserving ends))

/-- Whatever files there are to begin with, each session is explained by the map, and whatever call
is made then ends. -/
theorem explained {file : ConnectionsFile} {tree : FileTree} {here : Place} {writer : Diagnostics}
    {log : List FileEntry} {run : Run (Transfer × Volume)} (hplain : tree.Plain)
    (h : Session file (.start (.start writer) (.plain, .ofTree tree here)) log run) :
    Explained file tree.node? log run.world.2.tree.node? ∧
      ∀ c : FileCall, ∃ n, ∀ moments, n ≤ moments.length →
        ∃ result bytes, c.Ends file run result bytes (c.run file run moments) := by
  have hserving : Serving file (.start (.start writer) (.plain, .ofTree tree here)) :=
    ⟨hplain, Guards.free_empty, fun _ _ hid => by cases hid⟩
  exact ⟨h.explained_of_serving hserving, FileCall.ends_run (h.serving hserving)⟩

/-- A file is written under a lock, and added to without one by another spelling of its path. Then
it is read, deleted and looked for. -/
def note : List FileEntry :=
  [⟨⟨⟨"default", "out"⟩, .write ⟨false, none⟩, ⟨"./b/../a"⟩, [104]⟩, .ok (.copied 1), []⟩,
    ⟨⟨⟨"default", "out"⟩, .write ⟨true, some .default⟩, ⟨"/a/"⟩, [105]⟩, .ok (.copied 1), []⟩,
    ⟨⟨⟨"default", "out"⟩, .read, ⟨"a"⟩, []⟩, .ok (.copied 2), [104, 105]⟩,
    ⟨⟨⟨"default", "out"⟩, .delete, ⟨"b/..//a"⟩, []⟩, .ok (.deleted true), []⟩,
    ⟨⟨⟨"default", "out"⟩, .probe, ⟨"a"⟩, []⟩, .ok (.present false), []⟩]

theorem explained_note :
    let file : ConnectionsFile := ⟨[{ ConnectionConfig.onDisk "default" "out" ⟨"/"⟩ with
      lock := ⟨.marker, LockConfig.default.expiry⟩ }]⟩
    let start : Run (Transfer × Volume) :=
      .start (.start ⟨"host", "address", 1⟩) (.plain, .ofTree .empty [])
    FileTree.empty.Plain ∧ ∃ run, Session file start note run ∧
      Explained file FileTree.empty.node? note run.world.2.tree.node? := by
  intro file start
  have hends : ∀ {c : FileCall} {r : Run (Transfer × Volume)} {result : Except Error Effect}
      {bytes : Bytes}, (c.run file r (List.range 20)).gateway.result? r.gateway.tasks.length =
        some (.operated result) → (c.run file r (List.range 20)).world.1.collected = bytes →
      c.Ends file r result bytes (c.run file r (List.range 20)) :=
    fun hresult hbytes => ⟨⟨_, rfl⟩, hresult, hbytes⟩
  have hsession : ∃ run, Session file start note run :=
    ⟨_, .cons (hends (by decide +kernel) (by decide +kernel)) <|
      .cons (hends (by decide +kernel) (by decide +kernel)) <|
      .cons (hends (by decide +kernel) (by decide +kernel)) <|
      .cons (hends (by decide +kernel) (by decide +kernel)) <|
      .cons (hends (by decide +kernel) (by decide +kernel)) <| .nil _⟩
  obtain ⟨run, hrun⟩ := hsession
  exact ⟨FileTree.plain_empty, run, hrun, (explained FileTree.plain_empty hrun).1⟩

end Session

end FileGateway

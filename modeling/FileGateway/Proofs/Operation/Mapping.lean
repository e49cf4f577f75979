import FileGateway.Proofs.Operation.Alone

/-!
# Files as a map

On the local disk the files are a map from places to what is there, and an operation is one step on
it (`Action.on`): it looks a place up, or it changes what is at one place. What place that is, is
said by the normal form of the path alone. An operation that fails changes nothing
(`Operation.leads`).
-/

namespace FileGateway

open CommandLine (Transfer)

/-- What an action on a place comes to, if it does not fail: its effect, what it brings to the
caller, and what is at each place then. The source is what the caller writes. -/
def Action.on (source : Bytes) (place : Place) (nodes : Place → Option Node) :
    Action → Option (Effect × Bytes × (Place → Option Node))
  | probe => some (.present (nodes place).isSome, [], nodes)
  | read =>
    match nodes place with
    | some (.file content) => some (.copied content.length, content, nodes)
    | _ => none
  | write mode =>
    match nodes place with
    | none =>
      some (.copied source.length, [], Function.update nodes place (some (.file source)))
    | some (.file content) =>
      some (.copied source.length, [], Function.update nodes place
        (some (.file (if mode.append then content ++ source else source))))
    | _ => none
  | delete =>
    match nodes place with
    | none => some (.deleted false, [], nodes)
    | some (.file _) => some (.deleted true, [], Function.update nodes place none)
    | _ => none

namespace Operation

/-- What an operation comes to that is alone. -/
inductive Ended (action : Action) (source : Bytes) (path : Path)
    (nodes : FileGateway.Place → Option Node) : Except Error Effect → Solo → Prop where
  | failed (e : Error) (y : Solo) (settled : y.Settled nodes) :
      Ended action source path nodes (.error e) y
  | done (effect : Effect) (place : FileGateway.Place) (nodes' : FileGateway.Place → Option Node)
      (y : Solo) (normal : path.normal = .ok (.ofNames true place))
      (acts : action.on source place nodes = some (effect, y.transfer.collected, nodes'))
      (settled : y.Settled nodes') : Ended action source path nodes (.ok effect) y

variable {action : Action} {source : Bytes} {path : Path} {id : HandleId} {x : Solo}
  {place : FileGateway.Place}

theorem next_reading (id : HandleId) (backend : Backend) (file : FileRef) (writer : Diagnostics)
    (place : Read.Place) :
    next id writer (.reading backend file place) =
      (Read.activity backend file writer place).map fun move s =>
        Solo.lift (.reading backend file) (fun r s => (.done (onFile file .copied r), s))
          (move s) := by
  have hread : (Read.next backend file place).map (fun step s =>
      (step.map (.reading backend file) (onFile file .copied), s)) =
      ((Read.next backend file place).map (fun step s =>
        Solo.lift (.reading backend file) (fun r s => (.done (onFile file .copied r), s))
          (Solo.still step s)) : Pending (Move Place (Except Error Effect))) := by
    congr 1
    funext step s
    cases step <;> rfl
  exact hread

theorem next_writing (id : HandleId) (t : Write.Target) (writer : Diagnostics)
    (place : Write.Place) :
    next id writer (.writing t place) = (Write.next t writer place).map fun move s =>
      Solo.lift (.writing t) (fun r s => (.done (r.map .copied), s)) (move s) := by
  rw [next]
  congr 1
  funext move s
  obtain ⟨step, s'⟩ := move s
  cases step <;> rfl

theorem lift_writing (t : Write.Target) (step : Step Write.Place (Except Error Nat))
    (s : Shared) : Solo.lift (.writing t) (fun r s => (.done (r.map .copied), s)) (step, s) =
      (writeStep t step, s) := by
  cases step <;> rfl

section Actions

variable {backend : Backend} (hfinds : x.volume.Finds place) (hguards : x.shared.guards.Free)
  (htarget : x.transfer.target = .collected [])
  (hnormal : path.normal = .ok (.ofNames true place))

include hfinds hguards in
theorem settled_atTime (now : Instant) : (x.atTime now).Settled x.volume.tree.node? :=
  ⟨hfinds.plain, hguards, rfl⟩

include htarget in
theorem collected_of_target : x.transfer.collected = [] := by
  rw [Transfer.collected, htarget]

include hfinds hguards htarget hnormal

theorem leads_probing : Solo.Leads (next id) (Ended .probe source path x.volume.tree.node?) 1
    (.paused (.probing backend (.ofNames place))) x := by
  have hsettled := settled_atTime hfinds hguards
  have hacts : Action.on source place x.volume.tree.node? .probe =
      some (.present (x.volume.tree.node? place).isSome, x.transfer.collected,
        x.volume.tree.node?) := by
    rw [collected_of_target htarget]
    rfl
  cases hfree : FileTree.barred? place with
  | some e =>
    obtain ⟨f, hprobe⟩ := DiskStore.probe_barred hfinds hfree
    exact .store rfl hprobe fun now => .done (.failed _ _ (hsettled now))
  | none =>
    cases hnode : x.volume.tree.node? place with
    | none =>
      rw [hnode] at hacts
      exact .store rfl (DiskStore.probe_vacant hfinds hfree hnode) fun now => .done
        (.done _ place _ _ hnormal hacts (hsettled now))
    | some node =>
      rw [hnode] at hacts
      exact .store rfl (DiskStore.probe_taken hfinds hfree hnode) fun now => .done
        (.done _ place _ _ hnormal hacts (hsettled now))

theorem leads_deleting : Solo.Leads (next id) (Ended .delete source path x.volume.tree.node?) 1
    (.paused (.deleting backend (.ofNames place))) x := by
  have hsettled := settled_atTime hfinds hguards
  have hcollected := collected_of_target htarget
  cases hfree : FileTree.barred? place with
  | some e =>
    obtain ⟨f, hdelete⟩ := DiskStore.delete_barred hfinds hfree
    exact .store rfl hdelete fun now => .done (.failed _ _ (hsettled now))
  | none =>
    cases hnode : x.volume.tree.node? place with
    | none =>
      have hacts : Action.on source place x.volume.tree.node? .delete =
          some (.deleted false, x.transfer.collected, x.volume.tree.node?) := by
        simp only [Action.on, hnode, hcollected]
      exact .store rfl (DiskStore.delete_vacant hfinds hfree hnode) fun now => .done
        (.done _ place _ _ hnormal hacts (hsettled now))
    | some node =>
      rcases hfinds.plain place node hnode with rfl | ⟨content, rfl⟩
      · obtain ⟨f, hdelete⟩ := DiskStore.delete_directory hfinds hfree hnode
        exact .store rfl hdelete fun now => .done (.failed _ _ (hsettled now))
      · have hacts : Action.on source place x.volume.tree.node? .delete =
            some (.deleted true, x.transfer.collected,
              Function.update x.volume.tree.node? place none) := by
          simp only [Action.on, hnode, hcollected]
        exact .store rfl (DiskStore.delete_file hfinds hfree hnode) fun now => .done
          (.done _ place _ _ hnormal hacts ⟨hfinds.plain.erase place, hguards,
            FileTree.node?_erase _ hfinds.nonempty⟩)

theorem leads_reading : Solo.Leads (next id) (Ended .read source path x.volume.tree.node?)
    (2 * Read.size x.volume.tree.node? place + 3)
    (.paused (.reading backend (.ofNames place) .opening)) x := by
  refine (Read.leads hfinds htarget).within (m := 0) (next_reading id backend _)
    fun r y hended => .done ?_
  cases hended with
  | failed now f transfer streams => exact .failed _ _ ⟨hfinds.plain, hguards, rfl⟩
  | copied now content streams holds =>
    refine .done _ place _ _ hnormal ?_ ⟨hfinds.plain, hguards, rfl⟩
    rw [collected_of_target htarget]
    simp only [Action.on, holds]
    rfl

theorem leads_writing (hsupply : x.transfer.supply = .text source) (mode : WriteMode)
    (options : Options) (lock : LockConfig) : Solo.Leads (next id)
    (Ended (.write mode) source path x.volume.tree.node?) (2 * source.length + 18)
    (writeStep ⟨backend, .ofNames place, mode.append⟩
      (Write.start ⟨backend, .ofNames place, mode.append⟩ options lock x.shared).1)
    ⟨(Write.start ⟨backend, .ofNames place, mode.append⟩ options lock x.shared).2, x.transfer,
      x.volume⟩ := by
  have hled : Solo.Leads (next id) (Ended (.write mode) source path x.volume.tree.node?) _ _ _ :=
    (Write.leads_start hfinds hguards hsupply options lock).within (m := 0)
      (next_writing id ⟨backend, .ofNames place, mode.append⟩) fun r y hended => .done ?_
  · rw [lift_writing] at hled
    exact hled
  · cases hended with
    | failed e y settled => exact .failed e _ ⟨settled.plain, settled.free, settled.nodes⟩
    | written content y holds gathers settled =>
      refine .done _ place _ _ hnormal ?_ ⟨settled.plain, settled.free, settled.nodes⟩
      have hcollected : y.transfer.collected = [] := collected_of_target (gathers.trans htarget)
      have hkept : DiskStore.kept mode.append content ++ source =
          if mode.append then content ++ source else source := by
        cases mode.append <;> rfl
      rcases holds with hnode | ⟨hnode, rfl⟩
      · simp only [Action.on, hnode, hkept]
        rw [← hcollected]
      · have hnil : DiskStore.kept mode.append [] ++ source = source := by
          cases mode.append <;> rfl
        simp only [Action.on, hnode, hnil]
        rw [← hcollected]

end Actions

/-- A resolved action does at its place what it does on the map. -/
theorem leads_resolved (hfinds : x.volume.Finds place) (hguards : x.shared.guards.Free)
    (hsupply : x.transfer.supply = .text source) (htarget : x.transfer.target = .collected [])
    (hnormal : path.normal = .ok (.ofNames true place)) :
    Solo.Leads (next id) (Ended action source path x.volume.tree.node?)
      (2 * Read.size x.volume.tree.node? place + 2 * source.length + 18)
      (resolved action id (.ofNames place) x.shared).1
      ⟨(resolved action id (.ofNames place) x.shared).2, x.transfer, x.volume⟩ := by
  cases hhandle : x.shared.handle? id with
  | none =>
    simp only [resolved, hhandle]
    exact .done (.failed _ _ ⟨hfinds.plain, hguards, rfl⟩)
  | some h =>
    cases action with
    | probe =>
      simp only [resolved, hhandle]
      exact (leads_probing hfinds hguards htarget hnormal).mono (by omega)
    | delete =>
      simp only [resolved, hhandle]
      exact (leads_deleting hfinds hguards htarget hnormal).mono (by omega)
    | read =>
      simp only [resolved, hhandle]
      exact (leads_reading hfinds hguards htarget hnormal).mono (by omega)
    | write mode =>
      simp only [resolved, hhandle]
      exact (leads_writing hfinds hguards htarget hnormal hsupply mode _ _).mono (by omega)

/-- An operation that has asked its store to resolve a path does on the map what its action does at
the normal form of the path, or fails and changes nothing. -/
theorem leads (hplain : x.volume.tree.Plain) (hguards : x.shared.guards.Free)
    (hsupply : x.transfer.supply = .text source) (htarget : x.transfer.target = .collected [])
    (resolve : Resolve) :
    ∃ n, Solo.Leads (next id) (Ended action source resolve.path x.volume.tree.node?) n
      (.paused (.resolving action resolve)) x := by
  have hresolve := DiskStore.reply_resolve resolve.path resolve.options x.volume
  cases hr : ((DiskStore.resolve resolve.path : StateM Volume (Result FileRef)) x.volume).1 with
  | error f =>
    rw [hr] at hresolve
    exact ⟨1, .store rfl hresolve fun now => .done (.failed _ _ ⟨hplain, hguards, rfl⟩)⟩
  | ok file =>
    obtain ⟨place, hfinds, rfl, habsolute, hstack⟩ := DiskStore.finds_of_resolve hplain hr
    have hnormal : resolve.path.normal = .ok (.ofNames true place) :=
      Path.normal_eq_ok_iff.2 ⟨place, hstack, hfinds.nonempty, by rw [habsolute]⟩
    rw [hr] at hresolve
    refine ⟨2 * Read.size x.volume.tree.node? place + 2 * source.length + 18 + 1,
      .store rfl hresolve fun now => ?_⟩
    exact leads_resolved (x := ⟨(resolve.succeed (.ofNames place) (x.atTime now).shared).2,
      x.transfer, x.volume⟩) hfinds hguards hsupply htarget hnormal

/-- An operation on a handle works at the normal form of its path in the directory of the handle. -/
theorem leads_start (hplain : x.volume.tree.Plain) (hguards : x.shared.guards.Free)
    (hsupply : x.transfer.supply = .text source) (htarget : x.transfer.target = .collected [])
    {h : Handle} (hhandle : x.shared.handle? id = some h) (path : Path) :
    ∃ n, Solo.Leads (next id) (Ended action source (h.place path) x.volume.tree.node?) n
      (start action id path x.shared).1
      ⟨(start action id path x.shared).2, x.transfer, x.volume⟩ := by
  cases hattempt : h.policy.attempt x.shared.now with
  | error left =>
    simp only [start, Resolve.start, hhandle, hattempt, resolveStep]
    exact ⟨0, .done (.failed _ _ ⟨hplain, hguards, rfl⟩)⟩
  | ok _ =>
    simp only [start, Resolve.start, hhandle, hattempt, resolveStep]
    exact leads hplain hguards hsupply htarget
      ⟨id, h.key.name, h.backend, h.place path, h.options⟩

end Operation

end FileGateway

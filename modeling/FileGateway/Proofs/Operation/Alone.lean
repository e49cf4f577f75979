import FileGateway.Proofs.Lease.Alone

/-!
# Transfers alone on the disk

What reading and writing a file come to while nobody else is about and the store is the local disk.
A read that ends well has brought the whole content of the file to the caller (`Read.leads`). A copy
has put the whole source into the file, behind what the file keeps (`Copy.leads`), or has left the
file alone. Both go on piece by piece, and what is proved of a piece is carried to the end by
induction on what is left.
-/

namespace FileGateway

open CommandLine (Transfer)

/-- A step that changes nothing of what is shared. -/
def Solo.still {π ρ : Type} (step : Step π ρ) : Move π ρ :=
  fun s => (step, s)

/-! ## Reading -/

namespace Read

/-- A read as an activity. -/
def activity (backend : Backend) (file : FileRef) (_ : Diagnostics) (place : Place) :
    Pending (Move Place (Result Nat)) :=
  (next backend file place).map Solo.still

/-- What a read comes to that is alone. -/
inductive Ended (place : FileGateway.Place) (x : Solo) : Result Nat → Solo → Prop where
  | failed (now : Instant) (f : Failure) (transfer : Transfer) (streams : List OpenFile) :
      Ended place x (.error f)
        ⟨{ x.shared with now := now }, transfer, { x.volume with streams := streams }⟩
  | copied (now : Instant) (content : Bytes) (streams : List OpenFile)
      (holds : x.volume.tree.node? place = some (.file content)) :
      Ended place x (.ok content.length)
        ⟨{ x.shared with now := now },
          { x.transfer with target := .collected (x.transfer.collected ++ content) },
          { x.volume with streams := streams }⟩

variable {backend : Backend} {file : FileRef} {append : Bool} {x : Solo}
  {place : FileGateway.Place} {Q : Result Nat → Solo → Prop}

theorem received_of_ne_nil {stream : StreamId} {count : Nat} {piece : Bytes} (h : piece ≠ []) :
    received stream count piece = .paused (.pushing stream count piece) := by
  cases piece with
  | nil => exact absurd rfl h
  | cons first rest => rfl

section Turns

variable {stream : StreamId} {count offset : Nat} {content collected rest : Bytes}
  (hstream : x.volume.streams[stream]? = some ⟨place, offset, append⟩)
  (hnode : x.volume.tree.node? place = some (.file content))

include hstream hnode

/-- The end of a file is found, and the sink is flushed. -/
theorem leads_end (hrest : content.drop offset = [])
    (h : ∀ now, Q (.ok count)
      ⟨{ x.shared with now := now }, x.transfer,
        { x.volume with streams := x.volume.streams.set stream ⟨place, offset, append⟩ }⟩) :
    Solo.Leads (activity backend file) Q 2 (.paused (.reading stream count)) x := by
  obtain ⟨piece, hpiece, hread⟩ := DiskStore.read_file hstream hnode
  rw [hrest, List.take_nil] at hpiece
  subst hpiece
  exact .store rfl hread fun _ => .answered rfl rfl rfl fun now => .done (h now)

/-- A piece of a file is read, and the sink takes it. -/
theorem leads_piece {n : Nat} (htarget : x.transfer.target = .collected collected)
    (hrest : content.drop offset = rest) (hne : rest.take FileAccess.pieceSize ≠ [])
    (goesOn : ∀ now, Solo.Leads (activity backend file) Q n
      (.paused (.reading stream (count + (rest.take FileAccess.pieceSize).length)))
      ⟨{ x.shared with now := now },
        { x.transfer with
          target := .collected (collected ++ rest.take FileAccess.pieceSize) },
        { x.volume with
          streams := x.volume.streams.set stream
            ⟨place, offset + (rest.take FileAccess.pieceSize).length, append⟩ }⟩) :
    Solo.Leads (activity backend file) Q (n + 2) (.paused (.reading stream count)) x := by
  obtain ⟨piece, hpiece, hread⟩ := DiskStore.read_file hstream hnode
  rw [hrest] at hpiece
  rw [← hpiece] at hne goesOn
  obtain ⟨shared, ⟨supply, target⟩, volume⟩ := x
  cases htarget
  refine .store rfl hread fun _ => ?_
  change Solo.Leads _ Q _ (received stream count piece) _
  rw [received_of_ne_nil hne]
  exact .answered rfl rfl rfl goesOn

/-- What is left of a file is read, and the sink takes it. -/
theorem leads_reading (htarget : x.transfer.target = .collected collected)
    (hrest : content.drop offset = rest)
    (h : ∀ now streams, Q (.ok (count + rest.length))
      ⟨{ x.shared with now := now },
        { x.transfer with target := .collected (collected ++ rest) },
        { x.volume with streams := streams }⟩) :
    Solo.Leads (activity backend file) Q (2 * rest.length + 2) (.paused (.reading stream count))
      x := by
  -- on the bytes that are left: a piece that is not empty leaves fewer
  induction hn : rest.length using Nat.strongRecOn
    generalizing x count offset collected rest with
  | ind n ih =>
    by_cases hempty : rest.take FileAccess.pieceSize = []
    · obtain rfl := eq_nil_of_piece hempty
      refine (leads_end hstream hnode hrest fun now => ?_).mono (Nat.le_add_left 2 _)
      have hend := h now (x.volume.streams.set stream ⟨place, offset, append⟩)
      rw [List.append_nil, ← htarget] at hend
      exact hend
    · have hpos := List.length_pos_iff.2 hempty
      have hlength := length_piece rest
      refine (leads_piece hstream hnode htarget hrest hempty fun now => ?_).mono
        (n := 2 * (rest.drop FileAccess.pieceSize).length + 2 + 2) (by omega)
      have hrest' : content.drop (offset + (rest.take FileAccess.pieceSize).length) =
          rest.drop FileAccess.pieceSize := by
        rw [← List.drop_drop, hrest, drop_piece]
      refine ih _ (by omega) (stream_set hstream _) hnode rfl hrest' (fun now streams => ?_) rfl
      rw [Nat.add_assoc, hlength, append_piece]
      exact h now streams

end Turns

/-- The bytes of the file at a place, if there is one. -/
def size (nodes : FileGateway.Place → Option Node) (place : FileGateway.Place) : Nat :=
  match nodes place with
  | some (.file content) => content.length
  | _ => 0

/-- A read brings the whole content of a file to the caller, or fails and leaves all files as they
are. -/
theorem leads (hfinds : x.volume.Finds place) {collected : Bytes}
    (htarget : x.transfer.target = .collected collected) :
    Solo.Leads (activity backend (.ofNames place)) (Ended place x)
      (2 * size x.volume.tree.node? place + 3) (.paused .opening) x := by
  have hcollected : x.transfer.collected = collected := by
    rw [Transfer.collected, htarget]
  cases hfree : FileTree.barred? place with
  | some e =>
    obtain ⟨f, hopen⟩ := DiskStore.openRead_barred hfinds hfree
    exact .store rfl hopen fun now => .done (.failed now f _ _)
  | none =>
    cases hnode : x.volume.tree.node? place with
    | none =>
      obtain ⟨f, hopen⟩ := DiskStore.openRead_vacant hfinds hfree hnode
      exact .store rfl hopen fun now => .done (.failed now f _ _)
    | some node =>
      have hopen := DiskStore.openRead_taken hfinds hfree hnode
      have hstream : (x.volume.streams ++ [⟨place, 0, false⟩])[x.volume.streams.length]? =
          some ⟨place, 0, false⟩ := by
        simp
      rcases hfinds.plain place node hnode with rfl | ⟨content, rfl⟩
      · obtain ⟨f, hread⟩ := DiskStore.read_directory
          (v := { x.volume with streams := x.volume.streams ++ [⟨place, 0, false⟩] }) hstream hnode
        exact .store rfl hopen fun _ => .store rfl hread fun now => .done (.failed now f _ _)
      · have hsize : size x.volume.tree.node? place = content.length := by
          rw [size, hnode]
        rw [hsize]
        refine .store rfl hopen fun _ => leads_reading hstream hnode htarget rfl
          fun now streams => ?_
        have hcopied := Ended.copied now content streams hnode
        rw [hcollected, ← Nat.zero_add content.length] at hcopied
        exact hcopied

end Read

/-! ## Copying -/

namespace Copy

/-- A copy as an activity. -/
def activity (backend : Backend) (file : FileRef) (append : Bool) (_ : Diagnostics)
    (place : Place) : Pending (Move Place (Result Nat)) :=
  (next backend file append place).map Solo.still

/-- What a copy comes to that is alone. -/
inductive Ended (place : FileGateway.Place) (append : Bool) (source : Bytes) (x : Solo) :
    Result Nat → Solo → Prop where
  | failed (now : Instant) (f : Failure) :
      Ended place append source x (.error f) (x.atTime now)
  | copied (now : Instant) (content : Bytes) (supply : CommandLine.Supply)
      (streams : List OpenFile)
      (holds : x.volume.tree.node? place = some (.file content) ∨
        x.volume.tree.node? place = none ∧ content = []) :
      Ended place append source x (.ok source.length)
        ⟨{ x.shared with now := now }, { x.transfer with supply := supply },
          { x.volume with
            tree := x.volume.tree.put place (.file (DiskStore.kept append content ++ source))
            streams := streams }⟩

variable {backend : Backend} {file : FileRef} {append : Bool} {x : Solo}
  {place : FileGateway.Place} {Q : Result Nat → Solo → Prop}

theorem received_of_ne_nil {stream : StreamId} {count : Nat} {piece : Bytes} (h : piece ≠ []) :
    received stream count piece = .paused (.writing stream count piece) := by
  cases piece with
  | nil => exact absurd rfl h
  | cons first rest => rfl

section Turns

variable {stream : StreamId} {count offset : Nat} {base : FileTree} {content rest : Bytes}
  (hstream : x.volume.streams[stream]? = some ⟨place, offset, append⟩)
  (hoffset : append = false → offset = content.length)
  (htree : x.volume.tree = base.put place (.file content))
  (hsupply : x.transfer.supply = .text rest)

/-- The end of a source is found, and the target is completed. -/
theorem leads_end (hsupply : x.transfer.supply = .text [])
    (h : ∀ now, Q (.ok count) ⟨{ x.shared with now := now }, x.transfer, x.volume⟩) :
    Solo.Leads (activity backend file append) Q 2 (.paused (.pulling stream count)) x := by
  obtain ⟨shared, ⟨supply, target⟩, volume⟩ := x
  cases hsupply
  exact .answered rfl rfl rfl fun _ => .store rfl rfl fun now => .done (h now)

include hstream hoffset htree hsupply

/-- A piece of a source is written behind what was written before. -/
theorem leads_piece {n : Nat} (hplace : place ≠ []) (hne : rest.take FileAccess.pieceSize ≠ [])
    (goesOn : ∀ now, Solo.Leads (activity backend file append) Q n
      (.paused (.pulling stream (count + (rest.take FileAccess.pieceSize).length)))
      ⟨{ x.shared with now := now },
        { x.transfer with supply := .text (rest.drop FileAccess.pieceSize) },
        { x.volume with
          tree := base.put place (.file (content ++ rest.take FileAccess.pieceSize))
          streams := x.volume.streams.set stream
            ⟨place, (content ++ rest.take FileAccess.pieceSize).length, append⟩ }⟩) :
    Solo.Leads (activity backend file append) Q (n + 2) (.paused (.pulling stream count)) x := by
  obtain ⟨shared, ⟨supply, target⟩, ⟨tree, here, streams⟩⟩ := x
  cases hsupply
  cases htree
  have hpull : diskWorld.answer 0 .pull
      (⟨.text rest, target⟩, ⟨base.put place (.file content), here, streams⟩) =
        (.ok (rest.take FileAccess.pieceSize),
          ⟨.text (rest.drop FileAccess.pieceSize), target⟩,
          ⟨base.put place (.file content), here, streams⟩) := rfl
  refine .answered rfl rfl hpull fun _ => ?_
  change Solo.Leads _ Q _ (received stream count (rest.take FileAccess.pieceSize)) _
  rw [received_of_ne_nil hne]
  have hnode : (base.put place (.file content)).node? place = some (.file content) := by
    rw [FileTree.node?_put _ hplace, Function.update_self]
  obtain ⟨start, hstart, hwrite⟩ := DiskStore.write_file
    (v := ⟨base.put place (.file content), here, streams⟩) hstream hnode
    (rest.take FileAccess.pieceSize)
  -- an appending stream writes at the end, any other stands there
  have hlast : start = content.length := by
    rw [hstart]
    cases append with
    | true => rfl
    | false => exact hoffset rfl
  rw [hlast, splice_end, FileTree.put_put, ← List.length_append] at hwrite
  exact .store rfl hwrite goesOn

/-- What is left of a source is written behind what was written before. -/
theorem leads_pulling (hplace : place ≠ [])
    (h : ∀ now supply streams, Q (.ok (count + rest.length))
      ⟨{ x.shared with now := now }, { x.transfer with supply := supply },
        { x.volume with
          tree := base.put place (.file (content ++ rest))
          streams := streams }⟩) :
    Solo.Leads (activity backend file append) Q (2 * rest.length + 2)
      (.paused (.pulling stream count)) x := by
  -- on the bytes that are left, as for a read
  induction hn : rest.length using Nat.strongRecOn
    generalizing x count offset content rest with
  | ind n ih =>
    by_cases hempty : rest.take FileAccess.pieceSize = []
    · obtain rfl := eq_nil_of_piece hempty
      refine (leads_end hsupply fun now => ?_).mono (Nat.le_add_left 2 _)
      have hend := h now x.transfer.supply x.volume.streams
      rw [List.append_nil, ← htree] at hend
      exact hend
    · have hpos := List.length_pos_iff.2 hempty
      have hlength := length_piece rest
      refine (leads_piece hstream hoffset htree hsupply hplace hempty fun now => ?_).mono
        (n := 2 * (rest.drop FileAccess.pieceSize).length + 2 + 2) (by omega)
      refine ih _ (by omega) (stream_set hstream _) (fun _ => rfl) rfl rfl
        (fun now supply streams => ?_) rfl
      rw [Nat.add_assoc, hlength, append_piece]
      exact h now supply streams

end Turns

/-- A copy puts the whole source into the file, behind what the file keeps, or fails and leaves all
files as they are. -/
theorem leads (hfinds : x.volume.Finds place) {source : Bytes}
    (hsupply : x.transfer.supply = .text source) :
    Solo.Leads (activity backend (.ofNames place) append) (Ended place append source x)
      (2 * source.length + 3) (.paused .opening) x := by
  have hcopy : ∀ content : Bytes,
      DiskStore.reply (.openWrite (.ofNames place) append) x.volume =
        (.ok x.volume.streams.length,
          x.volume.opened place (DiskStore.kept append content) append) →
      (x.volume.tree.node? place = some (.file content) ∨
        x.volume.tree.node? place = none ∧ content = []) →
      Solo.Leads (activity backend (.ofNames place) append) (Ended place append source x)
        (2 * source.length + 3) (.paused .opening) x := by
    intro content hopen hholds
    refine .store rfl hopen fun _ => ?_
    have hstream : (x.volume.opened place (DiskStore.kept append content) append).streams[
        x.volume.streams.length]? = some ⟨place, 0, append⟩ := by
      simp [Volume.opened]
    have hoffset : append = false → 0 = (DiskStore.kept append content).length := by
      rintro rfl
      rfl
    refine leads_pulling hstream hoffset rfl hsupply hfinds.nonempty
      fun now supply streams => ?_
    have hcopied : Ended place append source x _ _ :=
      .copied now content supply streams hholds
    rw [← Nat.zero_add source.length] at hcopied
    exact hcopied
  cases hfree : FileTree.barred? place with
  | some e =>
    obtain ⟨f, hopen⟩ := DiskStore.openWrite_barred hfinds hfree append
    exact Solo.Leads.mono (n := 1) (.store rfl hopen fun now => .done (.failed now f))
      (Nat.le_add_left 1 _)
  | none =>
    cases hnode : x.volume.tree.node? place with
    | none =>
      have hopen := DiskStore.openWrite_vacant hfinds hfree hnode append
      have hkept : DiskStore.kept append [] = [] := by
        cases append <;> rfl
      rw [← hkept] at hopen
      exact hcopy [] hopen (.inr ⟨hnode, rfl⟩)
    | some node =>
      rcases hfinds.plain place node hnode with rfl | ⟨content, rfl⟩
      · obtain ⟨f, hopen⟩ := DiskStore.openWrite_directory hfinds hfree hnode append
        exact Solo.Leads.mono (n := 1) (.store rfl hopen fun now => .done (.failed now f))
          (Nat.le_add_left 1 _)
      · exact hcopy content (DiskStore.openWrite_file hfinds hfree hnode append) (.inl hnode)

end Copy

/-! ## Writing -/

/-- What is at each place of a plain volume on which nobody holds a guard. -/
structure Solo.Settled (x : Solo) (nodes : Place → Option Node) : Prop where
  plain : x.volume.tree.Plain
  free : x.shared.guards.Free
  nodes : x.volume.tree.node? = nodes

namespace Write

/-- What a write comes to that is alone, if this is what was at each place: the file is written, or
all is as it was. -/
inductive Ended (place : FileGateway.Place) (append : Bool) (source : Bytes)
    (target : CommandLine.Target) (nodes : FileGateway.Place → Option Node) :
    Except Error Nat → Solo → Prop where
  | failed (e : Error) (y : Solo) (settled : y.Settled nodes) :
      Ended place append source target nodes (.error e) y
  | written (content : Bytes) (y : Solo)
      (holds : nodes place = some (.file content) ∨ nodes place = none ∧ content = [])
      (gathers : y.transfer.target = target)
      (settled : y.Settled (Function.update nodes place
        (some (.file (DiskStore.kept append content ++ source))))) :
      Ended place append source target nodes (.ok source.length) y

variable {t : Target} {x : Solo} {place marker : FileGateway.Place} {id : LeaseId}
  {Q : Except Error Nat → Solo → Prop}

theorem next_locking (t : Target) (a : Acquire) (writer : Diagnostics) (place : Acquire.Place) :
    next t writer (.locking a place) = (a.next writer place).map fun move s =>
      Solo.lift (.locking a) (fun r s => (locked a r, s)) (move s) := by
  rw [next]
  congr 1
  funext move s
  obtain ⟨step, s'⟩ := move s
  cases step <;> rfl

theorem next_copying (t : Target) (lease : Option LeaseId) (writer : Diagnostics)
    (place : Copy.Place) :
    next t writer (.copying lease place) =
      (Copy.activity t.backend t.file t.append writer place).map fun move s =>
        Solo.lift (.copying lease) (copied t lease) (move s) := by
  rw [next]
  change _ = (Copy.next t.backend t.file t.append place).map fun step s =>
    Solo.lift (.copying lease) (copied t lease) (Solo.still step s)
  congr 1
  funext step
  cases step <;> rfl

theorem next_unlocking (t : Target) (lease : LeaseId) (path : Path) (result : Result Nat)
    (writer : Diagnostics) (place : Surrender.Place) :
    next t writer (.unlocking lease path place result) =
      (Surrender.next ⟨lease, false⟩ place).map fun move s =>
        Solo.lift (fun place => .unlocking lease path place result)
          (fun removed s => (.done (released t result (Release.result path removed)), s))
          (move s) := by
  rw [next]
  congr 1
  funext move s
  obtain ⟨step, s'⟩ := move s
  cases step <;> rfl

/-- When the copy has ended, the marker is removed and the copy's result stands. -/
theorem leads_copied {l : Lease} {backend : Backend} {content : Bytes}
    (hlease : x.shared.lease? id = some l) (hactive : l.state = .active)
    (hheld : l.held = some ⟨backend, .ofNames marker⟩) (hfinds : x.volume.Finds marker)
    (hfree : FileTree.barred? marker = none)
    (hnode : x.volume.tree.node? marker = some (.file content)) (result : Result Nat)
    (h : ∀ y : Solo, y.shared.guards = x.shared.guards → y.transfer = x.transfer →
      y.volume.tree = x.volume.tree.erase marker → Q (outcome t result) y) :
    Solo.Leads (next t) Q 5 (copied t (some id) result x.shared).1
      ⟨(copied t (some id) result x.shared).2, x.transfer, x.volume⟩ := by
  have hcopied : copied t (some id) result x.shared =
      (.paused (.unlocking id l.marker .taking result),
        x.shared.modifyLease id fun l => { l with state := .released }) := by
    simp only [copied, Release.start, hlease, if_pos hactive, Option.map_some, Option.getD_some]
    rfl
  rw [hcopied]
  have hled := Surrender.leads (r := ⟨id, false⟩)
    (x := ⟨x.shared.modifyLease id fun l => { l with state := .released }, x.transfer, x.volume⟩)
  refine hled.within (m := 0) (next_unlocking t id l.marker result) fun removed y hended => ?_
  have hlease' : x.shared.leases[id]? = some l := hlease
  have hholds : ((x.shared.modifyLease id fun l => { l with state := .released }).lease? id).bind
      Lease.held = some ⟨backend, .ofNames marker⟩ := by
    simp [Shared.lease?, Shared.modifyLease, hlease', hheld]
  cases hended with
  | nothing now free => exact absurd (hholds.symm.trans free) (Option.some_ne_none _)
  | removed now held holds =>
    cases Option.some.inj (hholds.symm.trans holds)
    have hdelete := DiskStore.delete_file hfinds hfree hnode
    simp only [hdelete]
    exact .done (h _ rfl rfl rfl)

variable {backend : Backend} {append : Bool} {source : Bytes}

theorem leads_unlocked (hfinds : x.volume.Finds place) (hguards : x.shared.guards.Free)
    (hsupply : x.transfer.supply = .text source) :
    Solo.Leads (next ⟨backend, .ofNames place, append⟩)
      (Ended place append source x.transfer.target x.volume.tree.node?) (2 * source.length + 3)
      (.paused (.copying none .opening)) x := by
  have hled : Solo.Leads (Copy.activity backend (.ofNames place) append) _ _ _ x :=
    Copy.leads hfinds hsupply
  refine hled.within (m := 0) (next_copying ⟨backend, .ofNames place, append⟩ none)
    fun r y hended => .done ?_
  cases hended with
  | failed now f => exact .failed _ _ ⟨hfinds.plain, hguards, rfl⟩
  | copied now content supply streams holds =>
    refine .written content _ holds rfl ⟨hfinds.plain.put_file _ _, hguards, ?_⟩
    exact FileTree.node?_put _ hfinds.nonempty _

/-- A write that has its lease copies, and its marker is gone when it ends. -/
theorem leads_acquired {l : Lease} {holder : Backend} {diagnostics : Bytes}
    {nodes : FileGateway.Place → Option Node}
    (hfinds : x.volume.Finds place) (hguards : x.shared.guards.Free)
    (hsupply : x.transfer.supply = .text source) (hmarker : x.volume.Finds marker)
    (hfree : FileTree.barred? marker = none)
    (hnode : x.volume.tree.node? marker = some (.file diagnostics)) (hne : place ≠ marker)
    (hlease : x.shared.lease? id = some l) (hactive : l.state = .active)
    (hheld : l.held = some ⟨holder, .ofNames marker⟩)
    (hnodes : Function.update x.volume.tree.node? marker none = nodes) :
    Solo.Leads (next ⟨backend, .ofNames place, append⟩)
      (Ended place append source x.transfer.target nodes)
      (2 * source.length + 3 + 5) (.paused (.copying (some id) .opening)) x := by
  subst hnodes
  have hled : Solo.Leads (Copy.activity backend (.ofNames place) append) _ _ _ x :=
    Copy.leads hfinds hsupply
  refine hled.within (next_copying ⟨backend, .ofNames place, append⟩ (some id))
    fun r y hended => ?_
  cases hended with
  | failed now f =>
    refine leads_copied (x := x.atTime now) hlease hactive hheld hmarker hfree hnode (.error f)
      fun y hy _ htree => .failed _ y ⟨?_, ?_, ?_⟩
    · exact htree ▸ hfinds.plain.erase marker
    · exact hy ▸ hguards
    · rw [htree]
      exact FileTree.node?_erase _ hmarker.nonempty
  | copied now content supply streams holds =>
    have hother : x.volume.tree.node? place ≠ some .directory := by
      rcases holds with holds | ⟨holds, -⟩ <;> simp [holds]
    have hnode' : (x.volume.tree.put place
        (.file (DiskStore.kept append content ++ source))).node? marker =
          some (.file diagnostics) := by
      rw [FileTree.node?_put _ hfinds.nonempty, Function.update_of_ne (Ne.symm hne), hnode]
    refine leads_copied
      (x := ⟨{ x.shared with now := now }, { x.transfer with supply := supply },
        { x.volume with
          tree := x.volume.tree.put place (.file (DiskStore.kept append content ++ source))
          streams := streams }⟩)
      hlease hactive hheld (hmarker.put hother _ streams) hfree hnode' (.ok source.length)
      fun y hy htransfer htree => .written content y ?_ (htransfer ▸ rfl) ⟨?_, ?_, ?_⟩
    · rwa [Function.update_of_ne hne]
    · exact htree ▸ (hfinds.plain.put_file place _).erase marker
    · exact hy ▸ hguards
    · rw [htree, Function.update_comm (Ne.symm hne)]
      exact (FileTree.node?_erase _ hmarker.nonempty).trans
        (congrArg (Function.update · marker none) (FileTree.node?_put _ hfinds.nonempty _))

/-- A write that gets its lease comes to the same as one without a lease; a write that does not get
it leaves all files as they are. -/
theorem leads_locking {a : Acquire} {l : Lease} (hfinds : x.volume.Finds place)
    (hguards : x.shared.guards.Free) (hsupply : x.transfer.supply = .text source)
    (hlease : x.shared.lease? a.lease = some l) (hmarker : a.marker.stack? = some marker)
    (hne : place ≠ marker) :
    Solo.Leads (next ⟨backend, .ofNames place, append⟩)
      (Ended place append source x.transfer.target x.volume.tree.node?)
      (10 + (2 * source.length + 3 + 5)) (.paused (.locking a .resolving)) x := by
  refine (Acquire.leads hfinds.plain hguards).within
    (next_locking ⟨backend, .ofNames place, append⟩ a) fun r y hended => ?_
  cases hended with
  | failed now guards f free standing => exact .done (.failed _ _ ⟨hfinds.plain, free, rfl⟩)
  | lost now guards free standing => exact .done (.failed _ _ ⟨hfinds.plain, free, rfl⟩)
  | won now deadline guards place' streams free standing finds unbarred vacant =>
    have hplace : marker = place' := by
      rw [← Volume.eq_of_standing standing, hmarker, Option.getD_some]
    subst hplace
    have hother : x.volume.tree.node? marker ≠ some .directory := by simp [vacant]
    have hnode : (x.volume.tree.put marker (.file x.shared.writer.text.toUTF8.toList)).node?
        marker = some (.file x.shared.writer.text.toUTF8.toList) := by
      rw [FileTree.node?_put _ finds.nonempty, Function.update_self]
    have hnodes : Function.update
        (x.volume.tree.put marker (.file x.shared.writer.text.toUTF8.toList)).node? marker none =
          x.volume.tree.node? := by
      rw [FileTree.node?_put _ finds.nonempty, Function.update_idem, ← vacant,
        Function.update_eq_self]
    have hlease' : (x.shared.leases.modify a.lease fun l =>
        { l with
          held := some ⟨a.backend, .ofNames marker⟩
          state := .active
          timer := l.timer.arm deadline })[a.lease]? =
        some { l with
          held := some ⟨a.backend, .ofNames marker⟩
          state := .active
          timer := l.timer.arm deadline } := by
      have hl : x.shared.leases[a.lease]? = some l := hlease
      simp [hl]
    exact leads_acquired
      (x := ⟨{ x.shared with
          now := now
          guards := guards
          leases := x.shared.leases.modify a.lease fun l =>
            { l with
              held := some ⟨a.backend, .ofNames marker⟩
              state := .active
              timer := l.timer.arm deadline }
          timers := x.shared.timers ++ [a.lease] },
        x.transfer,
        { x.volume with
          tree := x.volume.tree.put marker (.file x.shared.writer.text.toUTF8.toList)
          streams := streams }⟩)
      (hfinds.put hother _ streams) free hsupply (finds.put hother _ streams) unbarred hnode hne
      hlease' rfl rfl hnodes

/-- A lease on a file has its marker elsewhere. -/
theorem exists_marker (hnames : ∀ n ∈ place, IsName n) (hplace : place ≠ []) :
    ∃ l marker, Lease.fresh (.ofNames true place) = .ok l ∧ l.state = .idle ∧
      l.marker.stack? = some marker ∧ place ≠ marker := by
  obtain ⟨dir, name, rfl⟩ : ∃ dir name, place = dir ++ [name] := by
    rcases List.eq_nil_or_concat place with heq | ⟨dir, name, hconcat⟩
    · exact absurd heq hplace
    · exact ⟨dir, name, hconcat.trans List.concat_eq_append⟩
  have hdir : ∀ n ∈ dir, IsName n := fun n hn => hnames n (List.mem_append_left _ hn)
  have hname : IsName name := hnames name (by simp)
  have hmarker : (Path.ofNames true (dir ++ [name ++ ".lock"])).stack? =
      some (dir ++ [name ++ ".lock"]) := by
    refine Path.stack?_ofNames fun n hn => ?_
    rcases List.mem_append.1 hn with hn | hn
    · exact hdir n hn
    · rw [List.mem_singleton.1 hn]
      exact Path.isName_lock hname
  have hne : dir ++ [name] ≠ dir ++ [name ++ ".lock"] := by
    intro heq
    have hchars := congrArg String.toList (List.singleton_inj.1 (List.append_cancel_left heq))
    rw [String.toList_append] at hchars
    simpa using congrArg List.length hchars
  refine ⟨⟨.ofNames true (dir ++ [name]), .ofNames true (dir ++ [name ++ ".lock"]), .idle, none,
    .unset⟩, dir ++ [name ++ ".lock"], ?_, rfl, hmarker, hne⟩
  rw [Lease.fresh, Path.marker?_ofNames hdir hname]

/-- A write under a marker makes a lease and acquires it first. -/
theorem start_marker {t : Target} {l : Lease} {lock : LockConfig} (options : Options) (s : Shared)
    (hscheme : lock.scheme = .marker) (hfresh : Lease.fresh t.file.path = .ok l)
    (hidle : l.state = .idle) :
    start t options lock s =
      (.paused (.locking ⟨s.leases.length, l.marker, t.backend, options, lock.expiry⟩ .resolving),
        { s with
          leases := (s.leases ++ [l]).modify s.leases.length fun l =>
            { l with state := .acquiring } }) := by
  simp only [start, hscheme, hfresh, Shared.addLease, Acquire.start, Shared.lease?,
    List.getElem?_concat_length, if_pos hidle]
  rfl

/-- A write comes to the same with a marker as without one, unless it goes without its lease. -/
theorem leads_start (hfinds : x.volume.Finds place) (hguards : x.shared.guards.Free)
    (hsupply : x.transfer.supply = .text source) (options : Options) (lock : LockConfig) :
    Solo.Leads (next ⟨backend, .ofNames place, append⟩)
      (Ended place append source x.transfer.target x.volume.tree.node?) (2 * source.length + 18)
      (start ⟨backend, .ofNames place, append⟩ options lock x.shared).1
      ⟨(start ⟨backend, .ofNames place, append⟩ options lock x.shared).2, x.transfer,
        x.volume⟩ := by
  cases hscheme : lock.scheme with
  | none =>
    have hstart : start ⟨backend, .ofNames place, append⟩ options lock x.shared =
        (.paused (.copying none .opening), x.shared) := by
      simp only [start, hscheme]
    rw [hstart]
    exact (leads_unlocked hfinds hguards hsupply).mono (Nat.le_add_right _ 15)
  | marker =>
    obtain ⟨l, marker, hfresh, hidle, hmarker, hne⟩ := exists_marker hfinds.names hfinds.nonempty
    have hlease : ((x.shared.leases ++ [l]).modify x.shared.leases.length fun l =>
        { l with state := .acquiring })[x.shared.leases.length]? =
          some { l with state := .acquiring } := by
      simp
    rw [start_marker (t := ⟨backend, .ofNames place, append⟩) options x.shared hscheme hfresh hidle]
    refine Solo.Leads.mono (leads_locking (x := ⟨{ x.shared with
        leases := (x.shared.leases ++ [l]).modify x.shared.leases.length fun l =>
          { l with state := .acquiring } }, x.transfer, x.volume⟩)
      hfinds hguards hsupply hlease hmarker hne) ?_
    omega

end Write

end FileGateway

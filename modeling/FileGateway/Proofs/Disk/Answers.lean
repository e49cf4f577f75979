import FileGateway.Proofs.Disk.Plain
import FileGateway.Proofs.Disk.Resolve

/-!
# What the disk answers

The answers of the store on the local disk about a place whose directory is there
(`Volume.Finds`). A path that was resolved leads to such a place (`DiskStore.finds_of_resolve`).
Then a walk there fails only if the path is barred, and for every call alike; so what a call answers
and what it does is a matter of what is at the place.
-/

namespace FileGateway

/-- Some names lead to a place on a plain volume of which the directory is there. -/
structure Volume.Finds (v : Volume) (place : Place) : Prop where
  plain : v.tree.Plain
  nonempty : place ≠ []
  names : ∀ n ∈ place, IsName n
  way : v.tree.Open [] place

/-- The file of some names. -/
def FileRef.ofNames (names : Place) : FileRef :=
  ⟨.ofNames true names⟩

namespace Volume

variable {v : Volume} {place : Place} {last : LastName} {e : SystemError}

theorem Finds.walk_of_barred (h : v.Finds place) (hbarred : FileTree.barred? place = some e) :
    v.walk last (.ofNames true place) = .error e := by
  rw [walk, FileTree.walk_of_open h.plain h.nonempty h.names h.way, hbarred]
  rfl

theorem Finds.walk (h : v.Finds place) (hfree : FileTree.barred? place = none) :
    v.walk last (.ofNames true place) = .ok ⟨place, v.tree.node? place, false⟩ := by
  rw [Volume.walk, FileTree.walk_of_open h.plain h.nonempty h.names h.way, hfree]
  rfl

theorem walk_of_isDirectory {path : Path} (h : v.isDirectory path = .ok true) :
    ∃ spot, v.walk .follow path = .ok spot ∧ spot.node = some .directory := by
  unfold isDirectory at h
  cases hwalk : v.walk .follow path with
  | error e =>
    rw [hwalk] at h
    cases h
  | ok spot =>
    rw [hwalk] at h
    refine ⟨spot, rfl, ?_⟩
    simp only [bind, Except.bind] at h
    split at h
    · cases h
    · next hnode => exact hnode
    · split at h <;> cases h

/-- What is barred is barred for no other reason than its path. -/
theorem barred_cases (h : FileTree.barred? place = some e) :
    e = .nullInPath ∨ e = .nameTooLong := by
  unfold FileTree.barred? at h
  dsimp only at h
  split at h
  · exact .inl (Option.some.inj h).symm
  split at h
  · exact .inr (Option.some.inj h).symm
  split at h
  · exact .inr (Option.some.inj h).symm
  · cases h

/-- The volume with a stream opened to a place that holds a file from then on. -/
def opened (v : Volume) (place : Place) (content : Bytes) (append : Bool) : Volume :=
  { v with
    tree := v.tree.put place (.file content)
    streams := v.streams ++ [⟨place, 0, append⟩] }

end Volume

/-! ## Pieces -/

theorem splice_end (content piece : Bytes) :
    splice content piece content.length = content ++ piece := by
  simp [splice]

theorem eq_nil_of_piece {rest : Bytes} (h : rest.take FileAccess.pieceSize = []) : rest = [] :=
  (List.take_eq_nil_iff.1 h).resolve_left (by decide)

/-- A piece and what is left after it. -/
theorem length_piece (rest : Bytes) :
    (rest.take FileAccess.pieceSize).length + (rest.drop FileAccess.pieceSize).length =
      rest.length := by
  rw [← List.length_append, List.take_append_drop]

theorem append_piece (content rest : Bytes) :
    content ++ rest.take FileAccess.pieceSize ++ rest.drop FileAccess.pieceSize =
      content ++ rest := by
  rw [List.append_assoc, List.take_append_drop]

theorem drop_piece (rest : Bytes) :
    rest.drop (rest.take FileAccess.pieceSize).length = rest.drop FileAccess.pieceSize := by
  have hdrop : (rest.take FileAccess.pieceSize ++ rest.drop FileAccess.pieceSize).drop
      (rest.take FileAccess.pieceSize).length = rest.drop FileAccess.pieceSize :=
    List.drop_left
  rwa [List.take_append_drop] at hdrop

/-- A stream that has gone on. -/
theorem stream_set {streams : List OpenFile} {stream : StreamId} {old : OpenFile}
    (h : streams[stream]? = some old) (new : OpenFile) :
    (streams.set stream new)[stream]? = some new :=
  List.getElem?_set_self (List.getElem?_eq_some_iff.1 h).1

namespace DiskStore

open Volume

variable {v : Volume} {path : Path} {file : FileRef} {place : Place} {e : SystemError}

/-- A path that was resolved leads to a place whose directory is there. -/
theorem finds_of_resolve (hplain : v.tree.Plain)
    (h : ((resolve path : StateM Volume (Result FileRef)) v).1 = .ok file) :
    ∃ names, v.Finds names ∧ file = .ofNames names ∧ path.isAbsolute = true ∧
      path.stack? = some names := by
  rw [resolve_eq] at h
  split at h
  · next habsolute =>
    split at h
    · cases h
    · next place hplace =>
      split at h
      · cases h
      · next parent hparent =>
        split at h
        · cases h
        · next hdirectory =>
          cases h
          obtain ⟨names, hstack, hne, rfl⟩ := Path.normal_eq_ok_iff.1 hplace
          have hnames := Path.isName_of_mem_stack hstack
          rw [habsolute] at hparent ⊢
          refine ⟨names, ⟨hplain, hne, hnames, ?_⟩, rfl, rfl, hstack⟩
          rcases List.eq_nil_or_concat names with heq | ⟨before, name, hconcat⟩
          · exact absurd heq hne
          · rw [List.concat_eq_append] at hconcat
            subst hconcat
            have hbefore : ∀ n ∈ before, IsName n := fun n hn =>
              hnames n (List.mem_append_left _ hn)
            rw [Path.parent?_ofNames hbefore (hnames name (by simp))] at hparent
            cases hparent
            obtain ⟨spot, hwalk, hspot⟩ := walk_of_isDirectory hdirectory
            exact .concat (FileTree.directories_of_walk hplain hbefore hwalk hspot)
        · cases h
  · cases h

/-- The answer of the disk of a volume to a call. -/
abbrev reply (call : StoreCall) (v : Volume) : call.Answer × Volume :=
  (answer call : StateM Volume call.Answer) v

/-! ## Probes -/

theorem probe_barred (h : v.Finds place) (hbarred : FileTree.barred? place = some e) :
    ∃ f, reply (.probe (.ofNames place)) v = (.error f, v) := by
  have hcall : v.isDirectory (.ofNames true place) = .error e := by
    simp only [isDirectory, h.walk_of_barred hbarred, bind, Except.bind]
  simp only [reply, answer, probe, bind, StateT.bind, FileAccess.isDirectory, FileRef.ofNames,
    hcall]
  rcases barred_cases hbarred with rfl | rfl <;> exact ⟨_, rfl⟩

theorem probe_vacant (h : v.Finds place) (hfree : FileTree.barred? place = none)
    (hnode : v.tree.node? place = none) : reply (.probe (.ofNames place)) v = (.ok false, v) := by
  have hcall : v.isDirectory (.ofNames true place) = .error .noEntry := by
    simp only [isDirectory, h.walk hfree, bind, Except.bind, hnode]
  simp only [reply, answer, probe, bind, StateT.bind, FileAccess.isDirectory, FileRef.ofNames,
    hcall]
  rfl

theorem probe_taken (h : v.Finds place) (hfree : FileTree.barred? place = none) {node : Node}
    (hnode : v.tree.node? place = some node) :
    reply (.probe (.ofNames place)) v = (.ok true, v) := by
  have hcall : ∃ found, v.isDirectory (.ofNames true place) = .ok found := by
    simp only [isDirectory, h.walk hfree, bind, Except.bind, hnode]
    rcases h.plain place node hnode with rfl | ⟨content, rfl⟩ <;> exact ⟨_, rfl⟩
  obtain ⟨found, hfound⟩ := hcall
  simp only [reply, answer, probe, bind, StateT.bind, FileAccess.isDirectory, FileRef.ofNames,
    hfound]
  rfl

/-! ## Creating files -/

theorem createExclusive_barred (h : v.Finds place) (hbarred : FileTree.barred? place = some e) :
    ∃ f, reply (.createExclusive (.ofNames place)) v = (.error f, v) := by
  have hcall : v.createNew (.ofNames true place) = .error e := by
    simp only [createNew, h.walk_of_barred hbarred, bind, Except.bind]
  simp only [reply, answer, createExclusive, bind, StateT.bind, FileAccess.createNew, act,
    FileRef.ofNames, hcall]
  rcases barred_cases hbarred with rfl | rfl <;> exact ⟨_, rfl⟩

theorem createExclusive_vacant (h : v.Finds place) (hfree : FileTree.barred? place = none)
    (hnode : v.tree.node? place = none) :
    reply (.createExclusive (.ofNames place)) v =
      (.ok true, { v with tree := v.tree.put place (.file []) }) := by
  have hcall : v.createNew (.ofNames true place) =
      .ok { v with tree := v.tree.put place (.file []) } := by
    simp only [createNew, h.walk hfree, bind, Except.bind, hnode, Bool.false_eq_true, if_false]
  simp only [reply, answer, createExclusive, bind, StateT.bind, FileAccess.createNew, act,
    FileRef.ofNames, hcall]
  rfl

theorem createExclusive_taken (h : v.Finds place) (hfree : FileTree.barred? place = none)
    {node : Node} (hnode : v.tree.node? place = some node) :
    reply (.createExclusive (.ofNames place)) v = (.ok false, v) := by
  have hcall : v.createNew (.ofNames true place) = .error .fileExists := by
    simp only [createNew, h.walk hfree, bind, Except.bind, hnode]
  simp only [reply, answer, createExclusive, bind, StateT.bind, FileAccess.createNew, act,
    FileRef.ofNames, hcall]
  rfl

/-! ## Opening files -/

/-- What a file that is opened for writing keeps. -/
def kept (append : Bool) (content : Bytes) : Bytes :=
  if append then content else []

theorem createFile_vacant (h : v.Finds place) (hfree : FileTree.barred? place = none)
    (hnode : v.tree.node? place = none) :
    reply (.createFile (.ofNames place)) v = (.ok (), v.opened place [] false) := by
  have hcall : v.openWrite (.ofNames true place) false =
      .ok (v.streams.length, v.opened place [] false) := by
    simp only [openWrite, h.walk hfree, bind, Except.bind, hnode]
    rfl
  simp only [reply, answer, createFile, bind, StateT.bind, FileAccess.openWrite, act,
    FileRef.ofNames, hcall]
  rfl

theorem openWrite_barred (h : v.Finds place) (hbarred : FileTree.barred? place = some e)
    (append : Bool) : ∃ f, reply (.openWrite (.ofNames place) append) v = (.error f, v) := by
  have hcall : v.openWrite (.ofNames true place) append = .error e := by
    simp only [openWrite, h.walk_of_barred hbarred, bind, Except.bind]
  simp only [reply, answer, bind, StateT.bind, FileAccess.openWrite, act, FileRef.ofNames, hcall]
  exact ⟨_, rfl⟩

theorem openWrite_directory (h : v.Finds place) (hfree : FileTree.barred? place = none)
    (hnode : v.tree.node? place = some .directory) (append : Bool) :
    ∃ f, reply (.openWrite (.ofNames place) append) v = (.error f, v) := by
  have hcall : v.openWrite (.ofNames true place) append = .error .isDirectory := by
    simp only [openWrite, h.walk hfree, bind, Except.bind, hnode]
  simp only [reply, answer, bind, StateT.bind, FileAccess.openWrite, act, FileRef.ofNames, hcall]
  exact ⟨_, rfl⟩

theorem openWrite_vacant (h : v.Finds place) (hfree : FileTree.barred? place = none)
    (hnode : v.tree.node? place = none) (append : Bool) :
    reply (.openWrite (.ofNames place) append) v =
      (.ok v.streams.length, v.opened place [] append) := by
  have hcall : v.openWrite (.ofNames true place) append =
      .ok (v.streams.length, v.opened place [] append) := by
    simp only [openWrite, h.walk hfree, bind, Except.bind, hnode]
    rfl
  simp only [reply, answer, bind, StateT.bind, FileAccess.openWrite, act, FileRef.ofNames, hcall]
  rfl

theorem openWrite_file (h : v.Finds place) (hfree : FileTree.barred? place = none)
    {content : Bytes} (hnode : v.tree.node? place = some (.file content)) (append : Bool) :
    reply (.openWrite (.ofNames place) append) v =
      (.ok v.streams.length, v.opened place (kept append content) append) := by
  have hcall : v.openWrite (.ofNames true place) append =
      .ok (v.streams.length, v.opened place (kept append content) append) := by
    simp only [openWrite, h.walk hfree, bind, Except.bind, hnode]
    rfl
  simp only [reply, answer, bind, StateT.bind, FileAccess.openWrite, act, FileRef.ofNames, hcall]
  rfl

theorem openRead_barred (h : v.Finds place) (hbarred : FileTree.barred? place = some e) :
    ∃ f, reply (.openRead (.ofNames place)) v = (.error f, v) := by
  have hcall : v.openRead (.ofNames true place) = .error e := by
    simp only [openRead, h.walk_of_barred hbarred, bind, Except.bind]
  simp only [reply, answer, bind, StateT.bind, FileAccess.openRead, act, FileRef.ofNames, hcall]
  exact ⟨_, rfl⟩

theorem openRead_vacant (h : v.Finds place) (hfree : FileTree.barred? place = none)
    (hnode : v.tree.node? place = none) :
    ∃ f, reply (.openRead (.ofNames place)) v = (.error f, v) := by
  have hcall : v.openRead (.ofNames true place) = .error .noEntry := by
    simp only [openRead, h.walk hfree, bind, Except.bind, hnode]
  simp only [reply, answer, bind, StateT.bind, FileAccess.openRead, act, FileRef.ofNames, hcall]
  exact ⟨_, rfl⟩

theorem openRead_taken (h : v.Finds place) (hfree : FileTree.barred? place = none) {node : Node}
    (hnode : v.tree.node? place = some node) :
    reply (.openRead (.ofNames place)) v =
      (.ok v.streams.length, { v with streams := v.streams ++ [⟨place, 0, false⟩] }) := by
  have hcall : v.openRead (.ofNames true place) =
      .ok (v.streams.length, { v with streams := v.streams ++ [⟨place, 0, false⟩] }) := by
    simp only [openRead, h.walk hfree, bind, Except.bind, hnode]
    rcases h.plain place node hnode with rfl | ⟨content, rfl⟩ <;> rfl
  simp only [reply, answer, bind, StateT.bind, FileAccess.openRead, act, FileRef.ofNames, hcall]
  rfl

/-! ## Removing files -/

theorem delete_barred (h : v.Finds place) (hbarred : FileTree.barred? place = some e) :
    ∃ f, reply (.delete (.ofNames place)) v = (.error f, v) := by
  have hcall : v.remove (.ofNames true place) = .error e := by
    simp only [remove, h.walk_of_barred hbarred, bind, Except.bind]
  simp only [reply, answer, delete, bind, StateT.bind, FileAccess.remove, act, FileRef.ofNames,
    hcall]
  rcases barred_cases hbarred with rfl | rfl <;> exact ⟨_, rfl⟩

theorem delete_vacant (h : v.Finds place) (hfree : FileTree.barred? place = none)
    (hnode : v.tree.node? place = none) : reply (.delete (.ofNames place)) v = (.ok false, v) := by
  have hcall : v.remove (.ofNames true place) = .error .noEntry := by
    simp only [remove, h.walk hfree, bind, Except.bind, hnode]
  simp only [reply, answer, delete, bind, StateT.bind, FileAccess.remove, act, FileRef.ofNames,
    hcall]
  rfl

theorem delete_directory (h : v.Finds place) (hfree : FileTree.barred? place = none)
    (hnode : v.tree.node? place = some .directory) :
    ∃ f, reply (.delete (.ofNames place)) v = (.error f, v) := by
  have hcall : v.remove (.ofNames true place) = .error .isDirectory := by
    simp only [remove, h.walk hfree, bind, Except.bind, hnode]
  simp only [reply, answer, delete, bind, StateT.bind, FileAccess.remove, act, FileRef.ofNames,
    hcall]
  exact ⟨_, rfl⟩

theorem delete_file (h : v.Finds place) (hfree : FileTree.barred? place = none) {content : Bytes}
    (hnode : v.tree.node? place = some (.file content)) :
    reply (.delete (.ofNames place)) v = (.ok true, { v with tree := v.tree.erase place }) := by
  have hcall : v.remove (.ofNames true place) = .ok { v with tree := v.tree.erase place } := by
    simp only [remove, h.walk hfree, bind, Except.bind, hnode, Bool.false_eq_true, if_false]
  simp only [reply, answer, delete, bind, StateT.bind, FileAccess.remove, act, FileRef.ofNames,
    hcall]
  rfl

/-! ## Streams -/

variable {id : StreamId} {stream : OpenFile}

theorem read_directory (hstream : v.streams[id]? = some stream)
    (hnode : v.tree.node? stream.place = some .directory) :
    ∃ f, reply (.read id) v = (.error f, v) := by
  have hcall : v.read id = .error .isDirectory := by
    simp only [Volume.read, hstream, hnode]
  simp only [reply, answer, bind, StateT.bind, FileAccess.read, act, hcall]
  exact ⟨_, rfl⟩

/-- A piece of a file is read, and the stream goes on behind it. -/
theorem read_file (hstream : v.streams[id]? = some stream) {content : Bytes}
    (hnode : v.tree.node? stream.place = some (.file content)) :
    ∃ piece, piece = (content.drop stream.offset).take FileAccess.pieceSize ∧
      reply (.read id) v = (.ok piece, { v with
        streams := v.streams.set id { stream with offset := stream.offset + piece.length } }) := by
  refine ⟨_, rfl, ?_⟩
  have hcall : v.read id = .ok ((content.drop stream.offset).take FileAccess.pieceSize,
      { v with streams := v.streams.set id { stream with
        offset := stream.offset +
          ((content.drop stream.offset).take FileAccess.pieceSize).length } }) := by
    simp only [Volume.read, hstream, hnode]
  simp only [reply, answer, bind, StateT.bind, FileAccess.read, act, hcall]
  rfl

/-- A piece is written where the stream stands, or at the end. -/
theorem write_file (hstream : v.streams[id]? = some stream) {content : Bytes}
    (hnode : v.tree.node? stream.place = some (.file content)) (piece : Bytes) :
    ∃ offset, offset = (if stream.append then content.length else stream.offset) ∧
      reply (.write id piece) v = (.ok (), { v with
        tree := v.tree.put stream.place (.file (splice content piece offset))
        streams := v.streams.set id { stream with offset := offset + piece.length } }) := by
  refine ⟨_, rfl, ?_⟩
  have hcall : v.write id piece = .ok { v with
      tree := v.tree.put stream.place (.file (splice content piece
        (if stream.append then content.length else stream.offset)))
      streams := v.streams.set id { stream with
        offset := (if stream.append then content.length else stream.offset) + piece.length } } := by
    simp only [Volume.write, hstream, hnode]
  simp only [reply, answer, bind, StateT.bind, FileAccess.write, act, hcall]
  rfl

/-! ## What the open streams have nothing to do with -/

variable {w : Volume}

theorem resolve_congr (htree : v.tree = w.tree) (hhere : v.here = w.here) (path : Path) :
    ((resolve path : StateM Volume (Result FileRef)) v).1 =
      ((resolve path : StateM Volume (Result FileRef)) w).1 := by
  have hdirectory : ∀ p, v.isDirectory p = w.isDirectory p := by
    intro p
    simp only [isDirectory, Volume.walk, htree, hhere]
  simp only [resolve_eq, hdirectory]
  split
  · split
    · rfl
    · split
      · rfl
      · split <;> rfl
  · rfl

theorem reply_resolve (path : Path) (options : Options) (v : Volume) :
    reply (.resolve path options) v =
      (((resolve path : StateM Volume (Result FileRef)) v).1, v) :=
  Prod.ext rfl (resolve_keeps path v)

/-- Removing a file, case by case. -/
theorem reply_delete (file : FileRef) (v : Volume) :
    reply (.delete file) v =
      match v.remove file.path with
      | .ok v' => (.ok true, v')
      | .error .noEntry => (.ok false, v)
      | .error e => (.error (failureOf "failed removing" file.path e), v) := by
  simp only [reply, answer, delete, bind, StateT.bind, FileAccess.remove, act]
  cases v.remove file.path with
  | ok v' => rfl
  | error e => cases e <;> rfl

/-- A file that cannot be removed is left as it is. -/
theorem reply_delete_error {f : Failure} (h : (reply (.delete file) v).1 = .error f) :
    reply (.delete file) v = (.error f, v) := by
  rw [reply_delete] at h ⊢
  split at h
  · cases h
  · cases h
  · cases h
    rfl

/-- What is removed is taken away from the tree, and nothing else is changed. -/
theorem eq_of_remove {v' : Volume} (h : v.remove path = .ok v') :
    ∃ place, v' = { v with tree := v.tree.erase place } := by
  unfold Volume.remove at h
  cases hwalk : v.walk .stay path with
  | error e =>
    rw [hwalk] at h
    cases h
  | ok spot =>
    rw [hwalk] at h
    simp only [bind, Except.bind] at h
    split at h
    · cases h
    · cases h
    · split at h
      · cases h
      · cases h
        exact ⟨spot.place, rfl⟩

theorem reply_delete_plain (h : v.tree.Plain) : (reply (.delete file) v).2.tree.Plain := by
  rw [reply_delete]
  split
  · next v' heq =>
    obtain ⟨place, rfl⟩ := eq_of_remove heq
    exact h.erase place
  · exact h
  · exact h

theorem reply_delete_here (file : FileRef) (v : Volume) :
    (reply (.delete file) v).2.here = v.here := by
  rw [reply_delete]
  split
  · next v' heq =>
    obtain ⟨place, rfl⟩ := eq_of_remove heq
    rfl
  · rfl
  · rfl

/-- The streams that are open have nothing to do with what is removed. -/
theorem reply_delete_congr (file : FileRef) (htree : v.tree = w.tree) (hhere : v.here = w.here) :
    (reply (.delete file) v).1 = (reply (.delete file) w).1 ∧
      (reply (.delete file) v).2.tree = (reply (.delete file) w).2.tree := by
  have hwalk : v.walk .stay file.path = w.walk .stay file.path := by
    rw [Volume.walk, Volume.walk, htree, hhere]
  rw [reply_delete, reply_delete, Volume.remove, Volume.remove, hwalk]
  cases w.walk .stay file.path with
  | error e => cases e <;> exact ⟨rfl, htree⟩
  | ok spot =>
    obtain ⟨place, node, slashed⟩ := spot
    rcases node with _ | (content | _ | target | device)
    · exact ⟨rfl, htree⟩
    · cases slashed
      · exact ⟨rfl, congrArg (FileTree.erase · place) htree⟩
      · exact ⟨rfl, htree⟩
    · exact ⟨rfl, htree⟩
    · cases slashed
      · exact ⟨rfl, congrArg (FileTree.erase · place) htree⟩
      · exact ⟨rfl, htree⟩
    · cases slashed
      · exact ⟨rfl, congrArg (FileTree.erase · place) htree⟩
      · exact ⟨rfl, htree⟩

end DiskStore

end FileGateway

import FileGateway.Proofs.CommandLine.Run

/-!
# Loading a connections file

A connections file is loaded just if the path leads to a file that holds one (`Volume.Loads`), and
then just that one (`loadFile_eq_ok_iff`), if there is fuel for all its pieces. Devices hold none:
the one has nothing in it, and the other has zeros in it, however much of it is read.
-/

namespace FileGateway

/-- A path leads to a file that holds connections, and they are in order. -/
def Volume.Loads (v : Volume) (path : Path) (file : ConnectionsFile) : Prop :=
  ∃ spot content text, v.walk .follow path = .ok spot ∧ spot.slashed = false ∧
    spot.node = some (.file content) ∧ Text.readUtf8 content = some text ∧
      ConnectionsFile.parse text = .ok file

/-! ## Streams -/

namespace Volume

variable {v : Volume} {id : StreamId} {place : Place} {offset fuel : Nat} {content : Bytes}

/-- A stream is read to its end, if there is fuel for what is left of it. -/
theorem readToEnd_drop (hs : v.streams[id]? = some ⟨place, offset, false⟩)
    (hc : v.tree.content? place = some content) (hfuel : (content.drop offset).length < fuel) :
    ((FileAccess.readToEnd id fuel : StateM Volume (SystemResult Bytes)) v).1 =
      .ok (content.drop offset) := by
  induction fuel generalizing v offset with
  | zero => exact absurd hfuel (Nat.not_lt_zero _)
  | succ fuel ih =>
    rw [readToEnd_succ, read_content hs hc]
    simp only
    cases hpiece : (content.drop offset).take FileAccess.pieceSize with
    | nil => rw [eq_nil_of_piece hpiece]
    | cons first rest =>
      have hdrop : content.drop (offset + (first :: rest).length) =
          (content.drop offset).drop FileAccess.pieceSize := by
        rw [← drop_piece, ← hpiece, List.drop_drop]
      have hlength := length_piece (content.drop offset)
      rw [hpiece, List.length_cons] at hlength
      have hrest := ih (v := { v with streams := v.streams.set id ⟨place, _, false⟩ })
        (stream_set hs ⟨place, offset + (first :: rest).length, false⟩) hc (by rw [hdrop]; omega)
      simp only
      rw [hrest, hdrop, ← hpiece]
      exact congrArg Except.ok (List.take_append_drop _ _)

/-- What is there to be read is read, if there is fuel for it. -/
theorem readToEnd_content (hs : v.streams[id]? = some ⟨place, 0, false⟩)
    (hc : v.tree.content? place = some content) (hfuel : content.length < fuel) :
    ((FileAccess.readToEnd id fuel : StateM Volume (SystemResult Bytes)) v).1 = .ok content :=
  readToEnd_drop hs hc hfuel

/-- Of the device that has no end, zeros are read. -/
theorem readToEnd_full (hs : v.streams[id]? = some ⟨place, offset, false⟩)
    (hnode : v.tree.node? place = some (.device .full)) (fuel : Nat) :
    ∃ n, ((FileAccess.readToEnd id fuel : StateM Volume (SystemResult Bytes)) v).1 =
      .ok (List.replicate n 0) := by
  induction fuel with
  | zero => exact ⟨0, rfl⟩
  | succ fuel ih =>
    obtain ⟨n, hn⟩ := ih
    have hread : v.read id = .ok (List.replicate FileAccess.pieceSize 0, v) := by
      simp only [Volume.read, hs, hnode]
    refine ⟨FileAccess.pieceSize + n, ?_⟩
    rw [readToEnd_succ, hread]
    cases hpiece : (List.replicate FileAccess.pieceSize 0 : Bytes) with
    | nil => cases hpiece
    | cons first rest =>
      simp only
      rw [hn, ← hpiece]
      exact congrArg Except.ok List.replicate_append_replicate

/-! ## Files -/

variable {path : Path} {spot : Spot}

/-- A file is opened, and read to its end. -/
theorem readFile_eq (path : Path) (fuel : Nat) (v : Volume) :
    (FileAccess.readFile path fuel : StateM Volume (SystemResult Bytes)) v =
      match v.openRead path with
      | .error e => (.error e, v)
      | .ok (id, v') => (FileAccess.readToEnd id fuel : StateM Volume (SystemResult Bytes)) v' := by
  simp only [FileAccess.readFile, stateM_bind, FileAccess.openRead, act]
  cases v.openRead path <;> rfl

theorem readFile_file (hv : v.Rooted) (hwalk : v.walk .follow path = .ok spot)
    (hslashed : spot.slashed = false) (hnode : spot.node = some (.file content))
    (hfuel : content.length < fuel) :
    ((FileAccess.readFile path fuel : StateM Volume (SystemResult Bytes)) v).1 = .ok content := by
  have hopen : v.openRead path = .ok (v.addStream spot.place false) := by
    simp [openRead, hwalk, hnode, hslashed, bind, Except.bind]
  have hcontent : v.tree.content? spot.place = some content := by
    unfold FileTree.content?
    rw [← FileTree.told_walk hv.tree hv.here hwalk, hnode]
  rw [readFile_eq, hopen]
  exact readToEnd_content List.getElem?_concat_length hcontent hfuel

/-- Where there is no file, nothing is read but zeros. -/
theorem readFile_hollow (hv : v.Rooted) (hwalk : v.walk .follow path = .ok spot)
    (hnode : ∀ content, spot.node ≠ some (.file content)) (fuel : Nat) {content : Bytes}
    (h : ((FileAccess.readFile path fuel : StateM Volume (SystemResult Bytes)) v).1 =
      .ok content) : ∃ n, content = List.replicate n 0 := by
  rw [readFile_eq] at h
  cases hopen : v.openRead path with
  | error e =>
    rw [hopen] at h
    cases h
  | ok opened =>
    obtain ⟨id, v'⟩ := opened
    obtain ⟨spot', hwalk', -, rfl, rfl⟩ := openRead_ok (.refl v) hv hopen
    cases hwalk.symm.trans hwalk'
    rw [hopen] at h
    rw [FileTree.told_walk hv.tree hv.here hwalk] at hnode
    have hs : (v.streams ++ [⟨spot.place, 0, false⟩])[v.streams.length]? =
      some ⟨spot.place, 0, false⟩ := List.getElem?_concat_length
    simp only at h
    cases fuel with
    | zero =>
      cases h
      exact ⟨0, rfl⟩
    | succ fuel =>
      rcases hplace : v.tree.node? spot.place with _ | (found | _ | target | _ | _)
      case some.file => exact absurd hplace (hnode found)
      case some.directory =>
        rw [readToEnd_succ] at h
        simp only [Volume.read, hs, hplace] at h
        cases h
      case some.device.full =>
        obtain ⟨n, hn⟩ := readToEnd_full (v := { v with streams := v.streams ++ [_] }) hs hplace
          (fuel + 1)
        exact ⟨n, Except.ok.inj (h.symm.trans hn)⟩
      all_goals
        have hempty : v.tree.content? spot.place = some [] := by
          unfold FileTree.content?
          rw [hplace]
        have hread := readToEnd_content (v := { v with streams := v.streams ++ [_] }) hs hempty
          (Nat.succ_pos fuel)
        exact ⟨0, Except.ok.inj (h.symm.trans hread)⟩

end Volume

namespace CommandLine

/-- Nothing is no connections file, and nor is what is broken from the start. -/
theorem parse_broken {text : String} {file : ConnectionsFile}
    (h : Json.Token.sequence text = [] ∨
      Json.Token.sequence text = [.broken .nothing .malformed]) :
    ConnectionsFile.parse text ≠ .ok file := by
  unfold ConnectionsFile.parse Json.decode
  rcases h with h | h
  · rw [h]
    nofun
  · rw [h]
    nofun

/-- A text that begins with a zero byte is broken from the start. -/
theorem sequence_zeros {n : Nat} {text : String}
    (h : Text.readUtf8 (List.replicate n 0) = some text) :
    Json.Token.sequence text = [] ∨
      Json.Token.sequence text = [.broken .nothing .malformed] := by
  obtain ⟨chars, hchars, rfl⟩ := Option.map_eq_some_iff.1 h
  unfold Json.Token.sequence
  rw [String.toList_ofList]
  cases n with
  | zero =>
    rw [List.replicate_zero, Text.readChars] at hchars
    cases hchars
    exact .inl rfl
  | succ n =>
    rw [List.replicate_succ, Text.readChars, List.mapM_cons] at hchars
    obtain ⟨c, hc, hrest⟩ := Option.bind_eq_some_iff.1 hchars
    obtain ⟨rest, -, hchars⟩ := Option.bind_eq_some_iff.1 hrest
    cases hc
    cases hchars
    exact .inr rfl

theorem parseFile_eq_ok_iff {path : Path} {content : Bytes} {file : ConnectionsFile} :
    parseFile path content = .ok file ↔
      ∃ text, Text.readUtf8 content = some text ∧ ConnectionsFile.parse text = .ok file := by
  unfold parseFile
  cases Text.readUtf8 content with
  | none => exact ⟨nofun, nofun⟩
  | some text =>
    simp only [Option.some.injEq, exists_eq_left']
    cases ConnectionsFile.parse text with
    | error fault => exact ⟨nofun, nofun⟩
    | ok found => exact ⟨fun h => by cases h; rfl, fun h => by cases h; rfl⟩

/-- Zeros are no connections file, however many there are. -/
theorem parseFile_zeros (path : Path) (n : Nat) (file : ConnectionsFile) :
    parseFile path (List.replicate n 0) ≠ .ok file := by
  intro h
  obtain ⟨text, htext, hparse⟩ := parseFile_eq_ok_iff.1 h
  exact parse_broken (sequence_zeros htext) hparse

/-- A connections file is loaded just if what is read is one. -/
theorem loadFile_read {path : Path} {fuel : Nat} {v : Volume} {file : ConnectionsFile} :
    ((loadFile path fuel : StateM Volume (Result ConnectionsFile)) v).1 = .ok file ↔
      ∃ content,
        ((FileAccess.readFile path fuel : StateM Volume (SystemResult Bytes)) v).1 = .ok content ∧
          parseFile path content = .ok file := by
  simp only [loadFile, stateM_bind]
  generalize (FileAccess.readFile path fuel : StateM Volume (SystemResult Bytes)) v = read
  obtain ⟨e | content, v'⟩ := read
  · constructor
    · intro h
      cases h
    · rintro ⟨content, hcontent, -⟩
      cases hcontent
  · constructor
    · exact fun h => ⟨content, rfl, h⟩
    · rintro ⟨_, hcontent, h⟩
      cases hcontent
      exact h

/-- A connections file is loaded just if the path leads to one, if there is fuel for all of it. -/
theorem loadFile_eq_ok_iff {v : Volume} (hv : v.Rooted) (path : Path) :
    ∃ enough, ∀ fuel ≥ enough, ∀ file,
      ((loadFile path fuel : StateM Volume (Result ConnectionsFile)) v).1 = .ok file ↔
        v.Loads path file := by
  cases hwalk : v.walk .follow path with
  | error e =>
    refine ⟨0, fun fuel _ file => loadFile_read.trans ⟨?_, ?_⟩⟩
    · rintro ⟨content, hcontent, -⟩
      rw [Volume.readFile_eq, Volume.openRead, hwalk] at hcontent
      cases hcontent
    · rintro ⟨spot, content, text, hspot, -⟩
      cases hwalk.symm.trans hspot
  | ok spot =>
    by_cases hfile : ∃ content, spot.node = some (.file content)
    · obtain ⟨content, hnode⟩ := hfile
      refine ⟨content.length + 1, fun fuel hfuel file => loadFile_read.trans ?_⟩
      cases hslashed : spot.slashed with
      | true =>
        -- a slash behind the name of a file asks for a directory
        constructor
        · rintro ⟨content', hcontent, -⟩
          simp [Volume.readFile_eq, Volume.openRead, hwalk, hnode, hslashed, bind, Except.bind]
            at hcontent
        · rintro ⟨spot', content', text, hspot, hfalse, -⟩
          cases hwalk.symm.trans hspot
          cases hslashed.symm.trans hfalse
      | false =>
        rw [Volume.readFile_file hv hwalk hslashed hnode hfuel]
        constructor
        · rintro ⟨content', hcontent, hparse⟩
          cases hcontent
          obtain ⟨text, htext, hparse⟩ := parseFile_eq_ok_iff.1 hparse
          exact ⟨spot, content, text, hwalk, hslashed, hnode, htext, hparse⟩
        · rintro ⟨spot', content', text, hspot, -, hcontent, htext, hparse⟩
          cases hwalk.symm.trans hspot
          cases hnode.symm.trans hcontent
          exact ⟨content, rfl, parseFile_eq_ok_iff.2 ⟨text, htext, hparse⟩⟩
    · refine ⟨0, fun fuel _ file => loadFile_read.trans ⟨?_, ?_⟩⟩
      · rintro ⟨content, hcontent, hparse⟩
        obtain ⟨n, rfl⟩ := Volume.readFile_hollow hv hwalk
          (fun content hnode => hfile ⟨content, hnode⟩) fuel hcontent
        exact absurd hparse (parseFile_zeros path n file)
      · rintro ⟨spot', content, text, hspot, -, hnode, -⟩
        cases hwalk.symm.trans hspot
        exact absurd ⟨content, hnode⟩ hfile

end CommandLine

end FileGateway

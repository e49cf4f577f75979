import FileGateway.Proofs.Disk.Answers
import FileGateway.Proofs.Disk.Shape

/-!
# Opening, creating and removing files

What the calls of a volume do that name a path, told by where the path led on an earlier volume from
which this one has come: files may have come and gone since, but a path leads where it led before.
-/

namespace FileGateway

/-- What there is at a place when it was opened for writing. -/
def Node.opened (append : Bool) : Option Node → Node
  | some (.file content) => .file (if append then content else [])
  | some (.device d) => .device d
  | _ => .file []

theorem Node.opened_opened (append : Bool) (node : Option Node) :
    opened append (some (opened true node)) = opened append node := by
  rcases node with _ | (_ | _ | _ | _) <;> simp [opened]

/-- A place holds the same on two trees. A file that is there may have been missing, if it is
empty. -/
def FileTree.AgreeAt (t t' : FileTree) (place : Place) : Prop :=
  Node.opened true (t'.node? place) = Node.opened true (t.node? place)

theorem FileTree.AgreeAt.opened {t t' : FileTree} {place : Place} (h : t.AgreeAt t' place)
    (append : Bool) : Node.opened append (t'.node? place) = Node.opened append (t.node? place) := by
  rw [← Node.opened_opened, h, Node.opened_opened]

theorem FileTree.AgreeAt.trans {t t' t'' : FileTree} {place : Place} (h : t.AgreeAt t' place)
    (h' : t'.AgreeAt t'' place) : t.AgreeAt t'' place :=
  Eq.trans h' h

theorem FileTree.agreeAt_of_eq {t t' : FileTree} {place : Place}
    (h : t'.node? place = t.node? place) : t.AgreeAt t' place :=
  congrArg (Node.opened true) h

namespace Volume

variable {base v v' : Volume} {p : Path} {append : Bool} {id : StreamId}

/-- What a call has done that opens a file for writing. -/
structure Opens (v v' : Volume) (place : Place) (append : Bool) (id : StreamId) : Prop where
  id : id = v.streams.length
  streams : v'.streams = v.streams ++ [⟨place, 0, append⟩]
  node : v'.tree.node? = Function.update v.tree.node? place
    (some (.opened append (v.tree.node? place)))
  alike : v.Alike v'

/-- The new stream is at the beginning of its file. -/
theorem Opens.stream {place : Place} (h : v.Opens v' place append id) :
    v'.streams[id]? = some ⟨place, 0, append⟩ := by
  rw [h.streams, h.id, List.getElem?_concat_length]

/-- The streams that were open before are as they were. -/
theorem Opens.older {place : Place} (h : v.Opens v' place append id) {n : StreamId}
    {stream : OpenFile} (hs : v.streams[n]? = some stream) : v'.streams[n]? = some stream := by
  rw [h.streams, List.getElem?_append_left (List.getElem?_eq_some_iff.1 hs).1]
  exact hs

/-- Other places are as they were. -/
theorem Opens.elsewhere {place other : Place} (h : v.Opens v' place append id)
    (hother : other ≠ place) : v'.tree.node? other = v.tree.node? other := by
  rw [h.node, Function.update_of_ne hother]

/-- Nothing is lost when a file is opened to be appended to. -/
theorem Opens.agreeAt {place : Place} (h : v.Opens v' place true id) (other : Place) :
    v.tree.AgreeAt v'.tree other := by
  by_cases hother : other = place
  · subst hother
    rw [FileTree.AgreeAt, h.node, Function.update_self]
    exact Node.opened_opened true _
  · exact FileTree.agreeAt_of_eq (h.elsewhere hother)

theorem opens_put {place : Place} {content : Bytes} (hguide : v.tree.guide? place = none)
    (hnode : Node.opened append (v.tree.node? place) = .file content) :
    v.Opens ({ v with tree := v.tree.put place (.file content) }.addStream place append).2 place
      append v.streams.length where
  id := rfl
  streams := rfl
  node := by
    rw [hnode]
    exact v.tree.node?_put (FileTree.ne_nil_of_guide? hguide) _
  alike := ⟨rfl, FileTree.alike_put hguide content⟩

theorem openWrite_ok (ha : base.Alike v) (hb : base.Rooted)
    (h : v.openWrite p append = .ok (id, v')) :
    ∃ spot, base.walk .create p = .ok spot ∧ v.Opens v' spot.place append id := by
  unfold openWrite at h
  cases hwalk : v.walk .create p with
  | error e =>
    rw [hwalk] at h
    cases h
  | ok spot =>
    obtain ⟨hbase, hnode⟩ := ha.leads hb hwalk
    refine ⟨_, hbase, ?_⟩
    show v.Opens v' spot.place append id
    rw [hwalk] at h
    simp only [bind, Except.bind, hnode] at h
    split at h
    · next hvacant =>
      cases h
      exact opens_put (by rw [FileTree.guide?, hvacant]; rfl) (by rw [hvacant]; rfl)
    · next content hfile =>
      cases h
      exact opens_put (by rw [FileTree.guide?, hfile]; rfl) (by rw [hfile]; rfl)
    · next device hdevice =>
      cases h
      have hsame : some (Node.opened append (v.tree.node? spot.place)) =
          v.tree.node? spot.place := by
        rw [hdevice]
        rfl
      exact ⟨rfl, rfl, (Function.update_eq_self_iff.2 hsame).symm, ⟨rfl, .refl _⟩⟩
    · cases h

theorem openRead_ok (ha : base.Alike v) (hb : base.Rooted) (h : v.openRead p = .ok (id, v')) :
    ∃ spot, base.walk .follow p = .ok spot ∧ v.tree.node? spot.place ≠ none ∧
      id = v.streams.length ∧ v' = { v with streams := v.streams ++ [⟨spot.place, 0, false⟩] } := by
  unfold openRead at h
  cases hwalk : v.walk .follow p with
  | error e =>
    rw [hwalk] at h
    cases h
  | ok spot =>
    obtain ⟨hbase, hnode⟩ := ha.leads hb hwalk
    rw [hwalk] at h
    simp only [bind, Except.bind] at h
    have hopened : spot.node ≠ none ∧ (v.addStream spot.place false) = (id, v') := by
      split at h
      · cases h
      · next hspot => exact ⟨by simp [hspot], Except.ok.inj h⟩
      · next hspot =>
        split at h
        · cases h
        · exact ⟨by simp [hspot], Except.ok.inj h⟩
    obtain ⟨hpresent, heq⟩ := hopened
    cases heq
    exact ⟨_, hbase, hnode ▸ hpresent, rfl, rfl⟩

theorem createNew_ok (ha : base.Alike v) (hb : base.Rooted) (h : v.createNew p = .ok v') :
    ∃ spot, base.walk .stay p = .ok spot ∧ v.tree.node? spot.place = none ∧
      v' = { v with tree := v.tree.put spot.place (.file []) } := by
  unfold createNew at h
  cases hwalk : v.walk .stay p with
  | error e =>
    rw [hwalk] at h
    cases h
  | ok spot =>
    obtain ⟨hbase, hnode⟩ := ha.leads hb hwalk
    rw [hwalk] at h
    simp only [bind, Except.bind] at h
    split at h
    · cases h
    · next hvacant =>
      split at h
      · cases h
      · cases h
        exact ⟨_, hbase, hnode.symm.trans hvacant, rfl⟩

theorem remove_ok (ha : base.Alike v) (hb : base.Rooted) (h : v.remove p = .ok v') :
    ∃ spot, base.walk .stay p = .ok spot ∧ v' = { v with tree := v.tree.erase spot.place } := by
  unfold remove at h
  cases hwalk : v.walk .stay p with
  | error e =>
    rw [hwalk] at h
    cases h
  | ok spot =>
    obtain ⟨hbase, -⟩ := ha.leads hb hwalk
    rw [hwalk] at h
    simp only [bind, Except.bind] at h
    split at h
    · cases h
    · cases h
    · split at h
      · cases h
      · cases h
        exact ⟨_, hbase, rfl⟩

/-! ## Files of paths -/

/-- Where the file of a path is: its normal form leads there. -/
def Reaches (v : Volume) (last : LastName) (path : Path) (place : Place) : Prop :=
  ∃ file spot, path.normal = .ok file ∧ v.walk last file = .ok spot ∧ spot.place = place

theorem Reaches.unique {last : LastName} {place place' : Place} (h : v.Reaches last p place)
    (h' : v.Reaches last p place') : place' = place := by
  obtain ⟨file, spot, hfile, hwalk, rfl⟩ := h
  obtain ⟨file', spot', hfile', hwalk', rfl⟩ := h'
  rw [hfile] at hfile'
  cases hfile'
  rw [hwalk] at hwalk'
  cases hwalk'
  rfl

/-- The file of a path would be created where the marker of it is: there is a link from it to its
own marker. -/
def MarksItself (v : Volume) (path : Path) : Prop :=
  ∃ file marker place, path.normal = .ok file ∧ file.marker? = some marker ∧
    v.Reaches .stay marker place ∧ v.Reaches .create path place

end Volume

/-! ## Replies -/

namespace DiskStore

variable {v v' : Volume} {file : FileRef}

theorem eq_of_reply_resolve {path : Path} {options : Options} {answer : Result FileRef}
    (h : reply (.resolve path options) v = (answer, v')) :
    v' = v ∧ ∀ found, answer = .ok found → path.normal = .ok found.path := by
  have hsecond : (reply (.resolve path options) v).2 = v := resolve_keeps path v
  rw [h] at hsecond
  refine ⟨hsecond, ?_⟩
  rintro found rfl
  exact located (congrArg Prod.fst h)

theorem createNew_of_reply {answer : Result Bool}
    (h : reply (.createExclusive file) v = (answer, v')) :
    answer = .ok true ∧ v.createNew file.path = .ok v' ∨ answer ≠ .ok true ∧ v' = v := by
  simp only [reply, DiskStore.answer, createExclusive, bind, StateT.bind, FileAccess.createNew,
    Volume.act] at h
  cases hcall : v.createNew file.path with
  | ok made =>
    rw [hcall] at h
    cases h
    exact Or.inl ⟨rfl, rfl⟩
  | error e =>
    rw [hcall] at h
    cases e <;> cases h <;> exact Or.inr ⟨by simp, rfl⟩

theorem openWrite_of_reply {append : Bool} {answer : Result StreamId}
    (h : reply (.openWrite file append) v = (answer, v')) :
    (∃ id, answer = .ok id ∧ v.openWrite file.path append = .ok (id, v')) ∨
      (∃ f, answer = .error f) ∧ v' = v := by
  simp only [reply, DiskStore.answer, bind, StateT.bind, FileAccess.openWrite, Volume.act] at h
  cases hcall : v.openWrite file.path append with
  | ok opened =>
    rw [hcall] at h
    cases h
    exact Or.inl ⟨_, rfl, rfl⟩
  | error e =>
    rw [hcall] at h
    cases h
    exact Or.inr ⟨⟨_, rfl⟩, rfl⟩

theorem openRead_of_reply {answer : Result StreamId} (h : reply (.openRead file) v = (answer, v')) :
    (∃ id, answer = .ok id ∧ v.openRead file.path = .ok (id, v')) ∨
      (∃ f, answer = .error f) ∧ v' = v := by
  simp only [reply, DiskStore.answer, bind, StateT.bind, FileAccess.openRead, Volume.act] at h
  cases hcall : v.openRead file.path with
  | ok opened =>
    rw [hcall] at h
    cases h
    exact Or.inl ⟨_, rfl, rfl⟩
  | error e =>
    rw [hcall] at h
    cases h
    exact Or.inr ⟨⟨_, rfl⟩, rfl⟩

theorem write_of_reply {id : StreamId} {piece : Bytes} {answer : Result Unit}
    (h : reply (.write id piece) v = (answer, v')) :
    answer = .ok () ∧ v.write id piece = .ok v' ∨ (∃ f, answer = .error f) ∧ v' = v := by
  simp only [reply, DiskStore.answer, bind, StateT.bind, FileAccess.write, Volume.act] at h
  cases hcall : v.write id piece with
  | ok written =>
    rw [hcall] at h
    cases h
    exact Or.inl ⟨rfl, rfl⟩
  | error e =>
    rw [hcall] at h
    cases h
    exact Or.inr ⟨⟨_, rfl⟩, rfl⟩

theorem read_of_reply {id : StreamId} {answer : Result Bytes}
    (h : reply (.read id) v = (answer, v')) :
    (∃ piece, answer = .ok piece ∧ v.read id = .ok (piece, v')) ∨
      (∃ f, answer = .error f) ∧ v' = v := by
  simp only [reply, DiskStore.answer, bind, StateT.bind, FileAccess.read, Volume.act] at h
  cases hcall : v.read id with
  | ok found =>
    rw [hcall] at h
    cases h
    exact Or.inl ⟨_, rfl, rfl⟩
  | error e =>
    rw [hcall] at h
    cases h
    exact Or.inr ⟨⟨_, rfl⟩, rfl⟩

theorem remove_of_reply {answer : Result Bool} (h : reply (.delete file) v = (answer, v')) :
    v.remove file.path = .ok v' ∨ v' = v := by
  simp only [reply, DiskStore.answer, delete, bind, StateT.bind, FileAccess.remove,
    Volume.act] at h
  cases hcall : v.remove file.path with
  | ok removed =>
    rw [hcall] at h
    cases h
    exact Or.inl rfl
  | error e =>
    rw [hcall] at h
    cases e <;> cases h <;> exact Or.inr rfl

end DiskStore

end FileGateway

import FileGateway.Proofs.Disk.Opening

/-!
# From one file into another

Bytes are read from a stream at one place and written to a stream at another, piece by piece. The
two places may be one and the same, and either may be a device; other files of the volume come and
go meanwhile.

A `Passage` says what is to come of it. While it flows (`Passage.Flows`), the target holds what it
has kept and what has been written so far. A passage that has no end (`Passage.Endless`) never comes
to one: it reads from a directory, or what it reads is what it has written itself.
-/

namespace FileGateway

namespace FileTree

/-- What there is to read at a place, from its beginning to its end. -/
def content? (t : FileTree) (place : Place) : Option Bytes :=
  match t.node? place with
  | some (.file content) => some content
  | some .directory | some (.device .full) => none
  | _ => some []

/-- What the file at a place holds, if there is one. -/
def bytes (t : FileTree) (place : Place) : Bytes :=
  match t.node? place with
  | some (.file content) => content
  | _ => []

/-- The device at a place, if there is one. -/
def device? (t : FileTree) (place : Place) : Option Device :=
  match t.node? place with
  | some (.device device) => some device
  | _ => none

theorem bytes_of_content? {t : FileTree} {place : Place} {content : Bytes}
    (h : t.content? place = some content) : t.bytes place = content := by
  unfold content? at h
  unfold bytes
  split at h
  · next content' hnode =>
    cases h
    rw [hnode]
  · cases h
  · cases h
  · next hfile hdirectory hfull =>
    cases h
    split
    · next content' hnode => exact absurd hnode (hfile content')
    · rfl

theorem bytes_of_agreeAt {t t' : FileTree} {place : Place} (h : t.AgreeAt t' place) :
    t'.bytes place = t.bytes place := by
  -- opened for appending, a place holds its bytes, unless it is a device
  have hopened : ∀ t : FileTree, Node.opened true (t.node? place) = .file (t.bytes place) ∨
      t.bytes place = [] ∧ ∃ d, Node.opened true (t.node? place) = .device d := by
    intro t
    unfold bytes
    rcases t.node? place with _ | (_ | _ | _ | _) <;> simp [Node.opened]
  have hagree : Node.opened true (t'.node? place) = Node.opened true (t.node? place) := h
  rcases hopened t with hfile | ⟨hnil, d, hdevice⟩ <;>
    rcases hopened t' with hfile' | ⟨hnil', d', hdevice'⟩
  · rw [hfile, hfile'] at hagree
    exact Node.file.inj hagree
  · rw [hfile, hdevice'] at hagree
    cases hagree
  · rw [hdevice, hfile'] at hagree
    cases hagree
  · rw [hnil, hnil']

theorem content?_congr {t t' : FileTree} {place : Place} (h : t'.node? place = t.node? place) :
    t'.content? place = t.content? place := by
  rw [content?, h]
  rfl

end FileTree

namespace Volume

variable {v v' : Volume} {id : StreamId} {stream : OpenFile} {content piece : Bytes}

/-- Streams were opened or have gone on, and nothing else has changed. -/
structure Streamed (v v' : Volume) : Prop where
  tree : v'.tree = v.tree
  here : v'.here = v.here

theorem Streamed.refl (v : Volume) : v.Streamed v := ⟨rfl, rfl⟩

theorem Streamed.trans {v'' : Volume} (h : v.Streamed v') (h' : v'.Streamed v'') :
    v.Streamed v'' :=
  ⟨h'.tree.trans h.tree, h'.here.trans h.here⟩

theorem Streamed.alike (h : v.Streamed v') : v.Alike v' :=
  ⟨h.here, h.tree ▸ .refl _⟩

theorem Streamed.walk (h : v.Streamed v') (last : LastName) (p : Path) :
    v'.walk last p = v.walk last p := by
  unfold Volume.walk
  rw [h.tree, h.here]

/-- Whatever is read, only the stream goes on. -/
theorem streamed_read (h : v.read id = .ok (piece, v')) : v.Streamed v' := by
  unfold Volume.read at h
  split at h
  · cases h
    exact .refl v
  · split at h
    · cases h
      exact ⟨rfl, rfl⟩
    · cases h
    · cases h
      exact .refl v
    · cases h
      exact .refl v

/-- A piece of a stream is read. -/
theorem read_content (hs : v.streams[id]? = some stream)
    (hc : v.tree.content? stream.place = some content) :
    v.read id = .ok ((content.drop stream.offset).take FileAccess.pieceSize,
      { v with
        streams := v.streams.set id
          { stream with
            offset := stream.offset +
              ((content.drop stream.offset).take FileAccess.pieceSize).length } }) := by
  have hsame : v.streams.set id stream = v.streams := by
    obtain ⟨hlt, hget⟩ := List.getElem?_eq_some_iff.1 hs
    rw [← hget, List.set_getElem_self]
  unfold FileTree.content? at hc
  -- where there is nothing to read, the stream stays where it is
  rcases hnode : v.tree.node? stream.place with _ | (content' | _ | target | _ | _) <;>
    rw [hnode] at hc <;> cases hc
  case some.file => simp only [Volume.read, hs, hnode]
  all_goals
    simp only [Volume.read, hs, hnode, List.drop_nil, List.take_nil, List.length_nil,
      Nat.add_zero, hsame]

/-- What has no end is read on and on, or not at all. -/
theorem read_endless (hs : v.streams[id]? = some stream)
    (hc : v.tree.content? stream.place = none) (hread : v.read id = .ok (piece, v')) :
    v' = v ∧ piece ≠ [] := by
  unfold Volume.read at hread
  rw [hs] at hread
  unfold FileTree.content? at hc
  split at hc
  · cases hc
  · next hnode =>
    simp only [hnode] at hread
    cases hread
  · next hnode =>
    simp only [hnode] at hread
    cases hread
    refine ⟨rfl, fun hnil => ?_⟩
    rw [List.replicate_eq_nil_iff] at hnil
    cases hnil
  · cases hc

/-- A piece is written to a file. -/
theorem write_content (hs : v.streams[id]? = some stream)
    (hnode : v.tree.node? stream.place = some (.file content))
    (hoffset : stream.append = false → stream.offset = content.length) :
    v.write id piece = .ok
      { v with
        tree := v.tree.put stream.place (.file (content ++ piece))
        streams := v.streams.set id
          { stream with offset := content.length + piece.length } } := by
  have hend : (if stream.append then content.length else stream.offset) = content.length := by
    split
    · rfl
    · next happend => exact hoffset (Bool.eq_false_iff.2 happend)
  unfold Volume.write
  rw [hs]
  simp only [hnode, hend, splice_end]

/-- Whatever is written to a file, it stays a file, and one that is appended to holds it all. -/
theorem write_file (hs : v.streams[id]? = some stream)
    (hnode : v.tree.node? stream.place = some (.file content)) (piece : Bytes) :
    ∃ new offset, (stream.append = true → new = content ++ piece) ∧
      v.write id piece = .ok
        { v with
          tree := v.tree.put stream.place (.file new)
          streams := v.streams.set id { stream with offset := offset } } := by
  unfold Volume.write
  rw [hs]
  simp only [hnode]
  refine ⟨_, _, fun happend => ?_, rfl⟩
  rw [if_pos happend, splice_end]

/-- Where there is no file, nothing is changed by what is written. -/
theorem write_elsewhere (hs : v.streams[id]? = some stream)
    (hnode : ∀ content, v.tree.node? stream.place ≠ some (.file content))
    (hwrite : v.write id piece = .ok v') : v' = v := by
  unfold Volume.write at hwrite
  rw [hs] at hwrite
  simp only at hwrite
  split at hwrite
  · next content hfile => exact absurd hfile (hnode content)
  · split at hwrite
    · cases hwrite
      rfl
    · cases hwrite
  · cases hwrite
    rfl

end Volume

/-- What is to be brought from one place to another: the `content`, which arrives behind what the
target has `kept`. With `append` it is written behind whatever the target holds by then. The target
may be a device. -/
structure Passage where
  source : Place
  target : Place
  append : Bool
  device? : Option Device
  kept : Bytes
  content : Bytes

namespace Passage

/-- The target with so much in it. A device has nothing in it. -/
def holding (x : Passage) (content : Bytes) : Node :=
  x.device?.elim (.file content) .device

/-- After so many bytes, the target holds what it has kept and these bytes, and the next piece is
on its way. What is read is not what is written, unless it is nothing. -/
structure Flows (x : Passage) (v : Volume) (inlet outlet : StreamId) (count : Nat)
    (piece : Bytes) : Prop where
  reads : v.streams[inlet]? = some ⟨x.source, count + piece.length, false⟩
  writes : ∃ offset, v.streams[outlet]? = some ⟨x.target, offset, x.append⟩ ∧
    (x.append = false → v.tree.node? x.target = some (.file (x.kept ++ x.content.take count)) →
      offset = (x.kept ++ x.content.take count).length)
  content : v.tree.content? x.source = some x.content
  holds : v.tree.node? x.target = some (x.holding (x.kept ++ x.content.take count))
  next : x.content.drop count = piece ++ x.content.drop (count + piece.length)
  bound : count ≤ x.content.length
  apart : x.source ≠ x.target ∨ x.content = []
  distinct : inlet ≠ outlet

/-- What is read has no end: it is no file, or it grows by all that is read. -/
structure Endless (x : Passage) (v : Volume) (inlet outlet : StreamId) (piece : Bytes) :
    Prop where
  reads : ∃ offset, v.streams[inlet]? = some ⟨x.source, offset, false⟩ ∧
    (v.tree.content? x.source = none ∨
      x.source = x.target ∧ x.append = true ∧ ∃ content,
        v.tree.node? x.source = some (.file content) ∧ offset < content.length + piece.length)
  writes : ∃ offset, v.streams[outlet]? = some ⟨x.target, offset, x.append⟩
  distinct : inlet ≠ outlet

/-- What has arrived when the end is reached. -/
structure Arrived (x : Passage) (v : Volume) (count : Nat) : Prop where
  count : count = x.content.length
  content : v.tree.content? x.source = some x.content
  holds : v.tree.node? x.target = some (x.holding (x.kept ++ x.content))

variable {x : Passage} {v v' : Volume} {inlet outlet : StreamId} {count : Nat} {piece : Bytes}

theorem Flows.arrived (h : x.Flows v inlet outlet count [])
    (hend : x.content.length ≤ count) : x.Arrived v count := by
  have hcount : count = x.content.length := Nat.le_antisymm h.bound hend
  have hholds := h.holds
  rw [hcount, List.take_length] at hholds
  exact ⟨hcount, h.content, hholds⟩

theorem Flows.read (h : x.Flows v inlet outlet count [])
    (hread : v.read inlet = .ok (piece, v')) :
    x.Flows v' inlet outlet count piece ∧ (piece = [] → x.Arrived v' count) ∧ v.Alike v' := by
  rw [Volume.read_content h.reads h.content] at hread
  simp only [List.length_nil, Nat.add_zero] at hread
  injection hread with hread
  injection hread with hpiece hv
  rw [hpiece] at hv
  subst hv
  have hflows : x.Flows
      { v with streams := v.streams.set inlet ⟨x.source, count + piece.length, false⟩ }
      inlet outlet count piece := by
    refine ⟨stream_set h.reads _, ?_, h.content, h.holds, ?_, h.bound, h.apart, h.distinct⟩
    · obtain ⟨offset, hstream, hoffset⟩ := h.writes
      exact ⟨offset, by rwa [List.getElem?_set_ne h.distinct], hoffset⟩
    · rw [← List.drop_drop, ← hpiece, drop_piece, List.take_append_drop]
  refine ⟨hflows, fun hnil => ?_, ⟨rfl, .refl _⟩⟩
  subst hnil
  exact hflows.arrived (List.drop_eq_nil_iff.1 (eq_nil_of_piece hpiece))

/-- A file stays what walks do not pass, whatever is written to it. -/
theorem put_file {t : FileTree} {place : Place} {old : Bytes}
    (h : t.node? place = some (.file old)) (new : Bytes) :
    (t.put place (.file new)).node? = Function.update t.node? place (some (.file new)) ∧
      t.Alike (t.put place (.file new)) := by
  have hguide : t.guide? place = none := by
    rw [FileTree.guide?, h]
    rfl
  exact ⟨t.node?_put (FileTree.ne_nil_of_guide? hguide) _, FileTree.alike_put hguide new⟩

/-- The piece that is on its way comes next. -/
theorem Flows.take (h : x.Flows v inlet outlet count piece) :
    x.content.take (count + piece.length) = x.content.take count ++ piece := by
  rw [List.take_add, h.next, List.take_left]

theorem Flows.bound_next (h : x.Flows v inlet outlet count piece) :
    count + piece.length ≤ x.content.length := by
  have hlength := congrArg List.length h.next
  rw [List.length_append, List.length_drop, List.length_drop] at hlength
  have hbound := h.bound
  omega

/-- What is read stays what it is when the piece is written. -/
theorem Flows.content_put (h : x.Flows v inlet outlet count piece) {tree : FileTree}
    (hfile : v.tree.node? x.target = some (.file (x.kept ++ x.content.take count)))
    (hput : tree.node? = Function.update v.tree.node? x.target
      (some (.file (x.kept ++ x.content.take count ++ piece)))) :
    tree.content? x.source = some x.content := by
  by_cases hsame : x.source = x.target
  · -- nothing is read from the file that is written, and so nothing is written
    have hnil : x.content = [] := h.apart.resolve_left fun hne => hne hsame
    have hpiece : piece = [] := by
      have hnext := h.next
      rw [hnil, List.drop_nil] at hnext
      exact (List.append_eq_nil_iff.1 hnext.symm).1
    rw [hpiece, List.append_nil, ← hfile, Function.update_eq_self] at hput
    rw [← h.content]
    exact FileTree.content?_congr (congrFun hput x.source)
  · rw [← h.content]
    refine FileTree.content?_congr ?_
    rw [hput, Function.update_of_ne hsame]

theorem Flows.write (h : x.Flows v inlet outlet count piece)
    (hwrite : v.write outlet piece = .ok v') :
    x.Flows v' inlet outlet (count + piece.length) [] ∧ v.Alike v' := by
  obtain ⟨offset, hstream, hoffset⟩ := h.writes
  have hholds := h.holds
  cases hd : x.device? with
  | some device =>
    -- a device takes the piece, and nothing is seen of it
    have hdevice : ∀ content, x.holding content = .device device := fun content => by
      rw [holding, hd, Option.elim_some]
    rw [hdevice] at hholds
    have hv : v' = v := Volume.write_elsewhere hstream (by simp [hholds]) hwrite
    subst hv
    refine ⟨⟨h.reads, ⟨offset, hstream, ?_⟩, h.content, ?_, rfl, h.bound_next, h.apart, h.distinct⟩,
      .refl _⟩
    · intro _ hnode
      rw [hholds] at hnode
      cases hnode
    · rw [hholds, hdevice]
  | none =>
    have hholding : ∀ content, x.holding content = .file content := fun content => by
      rw [holding, hd, Option.elim_none]
    rw [hholding] at hholds
    rw [Volume.write_content hstream hholds fun happend => hoffset happend hholds] at hwrite
    cases hwrite
    obtain ⟨hput, halike⟩ := put_file hholds (x.kept ++ x.content.take count ++ piece)
    refine ⟨⟨?_, ⟨_, stream_set hstream _, ?_⟩, h.content_put hholds hput, ?_, rfl, h.bound_next,
      h.apart, h.distinct⟩, ⟨rfl, halike⟩⟩
    · exact (List.getElem?_set_ne h.distinct.symm).trans h.reads
    · intro _ _
      rw [h.take, ← List.append_assoc]
      exact List.length_append.symm
    · rw [hput, Function.update_self, hholding, h.take, List.append_assoc]

theorem Endless.read (h : x.Endless v inlet outlet [])
    (hread : v.read inlet = .ok (piece, v')) :
    x.Endless v' inlet outlet piece ∧ piece ≠ [] ∧ v.Alike v' := by
  obtain ⟨offset, hstream, hnone | ⟨hsame, happend, content, hfile, hless⟩⟩ := h.reads
  · obtain ⟨rfl, hne⟩ := Volume.read_endless hstream hnone hread
    exact ⟨⟨⟨offset, hstream, Or.inl hnone⟩, h.writes, h.distinct⟩, hne, .refl _⟩
  · have hcontent : v.tree.content? x.source = some content := by rw [FileTree.content?, hfile]
    rw [Volume.read_content hstream hcontent] at hread
    injection hread with hread
    injection hread with hpiece hv
    rw [hpiece] at hv
    subst hv
    refine ⟨⟨⟨_, stream_set hstream _, Or.inr ⟨hsame, happend, content, hfile, ?_⟩⟩, ?_,
      h.distinct⟩, ?_, ⟨rfl, .refl _⟩⟩
    · simp only [List.length_nil, Nat.add_zero] at hless
      exact Nat.add_lt_add_right hless _
    · obtain ⟨offset', hwrites⟩ := h.writes
      exact ⟨offset', (List.getElem?_set_ne h.distinct).trans hwrites⟩
    · -- it has not caught up with what was written
      rintro rfl
      have hend := List.drop_eq_nil_iff.1 (eq_nil_of_piece hpiece)
      exact absurd hless (Nat.not_lt.2 hend)

theorem Endless.write (h : x.Endless v inlet outlet piece)
    (hwrite : v.write outlet piece = .ok v') : x.Endless v' inlet outlet [] ∧ v.Alike v' := by
  obtain ⟨offset, hstream, hreads⟩ := h.reads
  obtain ⟨offset', hwrites⟩ := h.writes
  by_cases hnode : ∃ content, v.tree.node? x.target = some (.file content)
  · obtain ⟨content, hfile⟩ := hnode
    obtain ⟨new, offset'', hnew, hok⟩ := Volume.write_file hwrites hfile piece
    rw [hok] at hwrite
    cases hwrite
    obtain ⟨hput, halike⟩ := put_file hfile new
    refine ⟨⟨⟨offset, (List.getElem?_set_ne h.distinct.symm).trans hstream, ?_⟩,
      ⟨_, stream_set hwrites _⟩, h.distinct⟩, ⟨rfl, halike⟩⟩
    rcases hreads with hnone | ⟨hsame, happend, old, hold, hless⟩
    · -- what has no end is no file, so it is not what is written
      have hne : x.source ≠ x.target := by
        intro hsame
        rw [FileTree.content?, hsame, hfile] at hnone
        cases hnone
      refine Or.inl (Eq.trans (FileTree.content?_congr ?_) hnone)
      exact (congrFun hput x.source).trans (Function.update_of_ne hne _ _)
    · rw [hsame, hfile] at hold
      cases hold
      refine Or.inr ⟨hsame, happend, new, ?_, ?_⟩
      · rw [hsame]
        exact (congrFun hput x.target).trans (Function.update_self _ _ _)
      · rw [hnew happend, List.length_append]
        exact hless
  · rcases hreads with hnone | ⟨hsame, -, old, hold, -⟩
    · have hv : v' = v := Volume.write_elsewhere hwrites (fun c hc => hnode ⟨c, hc⟩) hwrite
      subst hv
      exact ⟨⟨⟨offset, hstream, Or.inl hnone⟩, ⟨offset', hwrites⟩, h.distinct⟩, .refl _⟩
    · exact absurd ⟨old, hsame ▸ hold⟩ hnode

/-- Bytes are on their way, whether there is an end to them or not. -/
def Goes (x : Passage) (v : Volume) (inlet outlet : StreamId) (count : Nat) (piece : Bytes) :
    Prop :=
  x.Flows v inlet outlet count piece ∨ x.Endless v inlet outlet piece

theorem Goes.read (h : x.Goes v inlet outlet count [])
    (hread : v.read inlet = .ok (piece, v')) :
    x.Goes v' inlet outlet count piece ∧ (piece = [] → x.Arrived v' count) ∧ v.Alike v' := by
  rcases h with hflows | hendless
  · obtain ⟨hflows, harrived, halike⟩ := hflows.read hread
    exact ⟨Or.inl hflows, harrived, halike⟩
  · obtain ⟨hendless, hne, halike⟩ := hendless.read hread
    exact ⟨Or.inr hendless, fun hnil => absurd hnil hne, halike⟩

theorem Goes.write (h : x.Goes v inlet outlet count piece)
    (hwrite : v.write outlet piece = .ok v') :
    x.Goes v' inlet outlet (count + piece.length) [] ∧ v.Alike v' := by
  rcases h with hflows | hendless
  · obtain ⟨hflows, halike⟩ := hflows.write hwrite
    exact ⟨Or.inl hflows, halike⟩
  · obtain ⟨hendless, halike⟩ := hendless.write hwrite
    exact ⟨Or.inr hendless, halike⟩

/-! ## Beginning -/

/-- The passage from one place to another, by what there was before anything was done. If the target
is not appended to, it is emptied when it is opened, and nothing is left to be read from it. -/
def between (t : FileTree) (source target : Place) (append : Bool) : Passage where
  source := source
  target := target
  append := append
  device? := t.device? target
  kept := if append then t.bytes target else []
  content := if source = target ∧ append = false then [] else t.bytes source

variable {t : FileTree} {from' to' : Place} {append : Bool}

/-- When it has just been opened, the target holds what it keeps. -/
theorem opened_eq_holding (t : FileTree) (from' to' : Place) (append : Bool) :
    Node.opened append (t.node? to') =
      (between t from' to' append).holding (between t from' to' append).kept := by
  unfold holding between FileTree.device? FileTree.bytes
  rcases t.node? to' with _ | (_ | _ | _ | _) <;> simp [Node.opened]

theorem content_between (hne : from' ≠ to' ∨ append = true) :
    (between t from' to' append).content = t.bytes from' := by
  refine if_neg fun h => ?_
  rcases hne with hne | happend
  · exact hne h.1
  · rw [h.2] at happend
    cases happend

theorem content_between_self : (between t to' to' false).content = [] :=
  if_pos ⟨rfl, rfl⟩

/-- Once there is nothing to be read but what is to arrive, it flows. -/
theorem flows_zero {x : Passage} (hi : v.streams[inlet]? = some ⟨x.source, 0, false⟩)
    (ho : v.streams[outlet]? = some ⟨x.target, 0, x.append⟩) (hd : inlet ≠ outlet)
    (hkept : x.append = false → x.kept = [])
    (hholds : v.tree.node? x.target = some (x.holding x.kept))
    (hcontent : v.tree.content? x.source = some x.content)
    (hapart : x.source ≠ x.target ∨ x.content = []) : x.Flows v inlet outlet 0 [] where
  reads := hi
  writes := by
    refine ⟨0, ho, fun happend _ => ?_⟩
    rw [List.take_zero, List.append_nil, hkept happend]
    rfl
  content := hcontent
  holds := by rw [List.take_zero, List.append_nil, hholds]
  next := rfl
  bound := Nat.zero_le _
  apart := hapart
  distinct := hd

/-- A file that is copied to itself is empty, or it is appended to without end. -/
theorem itself (hholds : v.tree.node? to' =
      some ((between t to' to' append).holding (between t to' to' append).kept))
    {content : Bytes} (hcontent : v.tree.content? to' = some content) :
    content = [] ∧ (between t to' to' append).content = [] ∨
      append = true ∧ content ≠ [] ∧ v.tree.node? to' = some (.file content) := by
  unfold FileTree.content? at hcontent
  rw [hholds] at hcontent ⊢
  cases hd : t.device? to' with
  | some device =>
    have hnode : t.node? to' = some (.device device) := by
      unfold FileTree.device? at hd
      split at hd
      · next device' hnode =>
        cases hd
        exact hnode
      · cases hd
    have hempty : (between t to' to' append).content = [] := by
      cases append with
      | false => exact content_between_self
      | true =>
        rw [content_between (Or.inr rfl), FileTree.bytes, hnode]
    have hholding : (between t to' to' append).holding (between t to' to' append).kept =
        .device device := by
      simp only [holding, between, hd, Option.elim_some]
    rw [hholding] at hcontent
    cases device with
    | null => exact Or.inl ⟨(Option.some.inj hcontent).symm, hempty⟩
    | full => cases hcontent
  | none =>
    have hholding : (between t to' to' append).holding (between t to' to' append).kept =
        .file (between t to' to' append).kept := by
      simp only [holding, between, hd, Option.elim_none]
    rw [hholding] at hcontent ⊢
    cases hcontent
    cases append with
    | false => exact Or.inl ⟨rfl, content_between_self⟩
    | true =>
      rw [content_between (Or.inr rfl)]
      by_cases hempty : t.bytes to' = []
      · exact Or.inl ⟨hempty, hempty⟩
      · exact Or.inr ⟨rfl, hempty, rfl⟩

/-- When both streams are open and the target holds what it keeps, bytes begin to flow, or there is
no end to them. -/
theorem begins (hi : v.streams[inlet]? = some ⟨from', 0, false⟩)
    (ho : v.streams[outlet]? = some ⟨to', 0, append⟩) (hd : inlet ≠ outlet)
    (hsource : from' ≠ to' → v.tree.bytes from' = t.bytes from')
    (hholds : v.tree.node? to' =
      some ((between t from' to' append).holding (between t from' to' append).kept)) :
    (between t from' to' append).Goes v inlet outlet 0 [] := by
  have hkept : append = false → (between t from' to' append).kept = [] := by
    rintro rfl
    rfl
  cases hcontent : v.tree.content? from' with
  | none => exact Or.inr ⟨⟨0, hi, Or.inl hcontent⟩, ⟨0, ho⟩, hd⟩
  | some content =>
    have hbytes := FileTree.bytes_of_content? hcontent
    by_cases hsame : from' = to'
    · subst hsame
      rcases itself hholds hcontent with ⟨rfl, hempty⟩ | ⟨happend, hne, hfile⟩
      · rw [← hempty] at hcontent
        exact Or.inl (flows_zero hi ho hd hkept hholds hcontent (Or.inr hempty))
      · refine Or.inr ⟨⟨0, hi, Or.inr ⟨rfl, happend, content, hfile, ?_⟩⟩, ⟨0, ho⟩, hd⟩
        exact List.length_pos_iff.2 hne
    · rw [hsource hsame, ← content_between (Or.inl hsame)] at hbytes
      rw [← hbytes] at hcontent
      exact Or.inl (flows_zero hi ho hd hkept hholds hcontent (Or.inl hsame))

end Passage

end FileGateway

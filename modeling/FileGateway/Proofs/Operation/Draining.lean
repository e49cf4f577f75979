import FileGateway.Proofs.Lease.Aside

/-!
# Streams that come to an end

A stream is read piece by piece, and what is read may be written to another one. If there are only
so many bytes at the place it is open to, and none of those that are written end up there again, it
is drained after that many bytes (`Volume.Drains`), whatever is done elsewhere meanwhile.
-/

namespace FileGateway

namespace Volume

/-- There are only so many bytes at a place, or none can be read. -/
def Bounded (v : Volume) (size : Nat) (place : Place) : Prop :=
  v.tree.node? place = some .directory ∨
    ∃ content, v.tree.content? place = some content ∧ content.length ≤ size

/-- So many bytes were read, of so many at most. What is read is written to the outlet, if there is
one; it does not lead back, unless there is nothing to be read. -/
structure Drains (source : Place) (size : Nat) (outlet? : Option StreamId) (v : Volume)
    (inlet : StreamId) (count : Nat) : Prop where
  reads : v.streams[inlet]? = some ⟨source, count, false⟩
  within : count ≤ size
  bounded : v.Bounded size source
  apart : ∀ outlet, outlet? = some outlet → v.Elsewhere (· = source) outlet ∨
    v.tree.content? source = some [] ∧ count = 0

variable {v v' : Volume} {source : Place} {size count : Nat} {outlet? : Option StreamId}
  {inlet outlet : StreamId} {piece : Bytes} {keep : Place → Prop}

theorem alike_of_write (h : v.write outlet piece = .ok v') : v.Alike v' := by
  cases hs : v.streams[outlet]? with
  | none =>
    unfold write at h
    rw [hs] at h
    cases h
    exact .refl v
  | some stream =>
    by_cases hnode : ∃ content, v.tree.node? stream.place = some (.file content)
    · obtain ⟨content, hfile⟩ := hnode
      obtain ⟨new, offset, -, hok⟩ := write_file hs hfile piece
      rw [hok] at h
      cases h
      exact ⟨rfl, (Passage.put_file hfile new).2⟩
    · rw [write_elsewhere hs (fun content hfile => hnode ⟨content, hfile⟩) h]
      exact .refl v

theorem Bounded.congr (h : v.Bounded size source)
    (hnode : v'.tree.node? source = v.tree.node? source) : v'.Bounded size source := by
  unfold Bounded
  rw [hnode, FileTree.content?_congr hnode]
  exact h

/-- There is no more at a place than there was before, if that was no device without an end. -/
theorem bounded_of_agreeAt (h : v.tree.AgreeAt v'.tree source)
    (hfull : v.tree.node? source ≠ some (.device .full)) :
    v'.Bounded (v.tree.bytes source).length source := by
  cases hcontent : v'.tree.content? source with
  | some content =>
    refine Or.inr ⟨content, hcontent, Nat.le_of_eq ?_⟩
    rw [← FileTree.bytes_of_agreeAt h, FileTree.bytes_of_content? hcontent]
  | none =>
    unfold FileTree.content? at hcontent
    unfold FileTree.AgreeAt at h
    split at hcontent
    · cases hcontent
    · next hdirectory => exact Or.inl hdirectory
    · next hdevice =>
      rw [hdevice] at h
      generalize v.tree.node? source = node at h hfull
      rcases node with _ | (_ | _ | _ | device)
      · cases h
      · cases h
      · cases h
      · cases h
      · cases h
        exact absurd rfl hfull
    · cases hcontent

theorem Drains.aside (h : v.Drains source size outlet? inlet count) (ha : v.Aside keep v')
    (hkeep : keep source) : v'.Drains source size outlet? inlet count where
  reads := ha.stream h.reads hkeep
  within := h.within
  bounded := h.bounded.congr (ha.node source hkeep)
  apart := by
    intro outlet houtlet
    rw [FileTree.content?_congr (ha.node source hkeep)]
    refine (h.apart outlet houtlet).imp_left fun helsewhere => ?_
    refine Elsewhere.aside helsewhere ⟨ha.alike, fun place hplace => ?_, fun id stream hs => ?_⟩
    · exact ha.node place (hplace ▸ hkeep)
    · obtain ⟨stream', hs', hplace, hsame⟩ := ha.streams id stream hs
      exact ⟨stream', hs', hplace, fun hsource => hsame (hsource ▸ hkeep)⟩

/-- A piece is read. -/
theorem Drains.read (h : v.Drains source size outlet? inlet count)
    (hread : v.read inlet = .ok (piece, v')) :
    v'.Drains source size outlet? inlet (count + piece.length) := by
  rcases h.bounded with hdirectory | ⟨content, hcontent, hsize⟩
  · unfold Volume.read at hread
    simp only [h.reads, hdirectory] at hread
    cases hread
  · rw [read_content h.reads hcontent] at hread
    injection hread with hread
    injection hread with hpiece hv
    have hlength : piece.length ≤ content.length - count := by
      rw [← hpiece, List.length_take, List.length_drop]
      exact Nat.min_le_right _ _
    rw [hpiece] at hv
    subst hv
    refine ⟨stream_set h.reads _, ?_, Or.inr ⟨content, hcontent, hsize⟩, fun outlet houtlet => ?_⟩
    · have hwithin := h.within
      omega
    · rcases h.apart outlet houtlet with ⟨stream, hs, hplace⟩ | ⟨hempty, hcount⟩
      · -- the outlet is open to another place, so it is not what was read
        have hne : inlet ≠ outlet := by
          rintro rfl
          rw [h.reads] at hs
          cases hs
          exact hplace rfl
        exact Or.inl ⟨stream, (List.getElem?_set_ne hne).trans hs, hplace⟩
      · have hnil : content = [] := Option.some.inj (hcontent.symm.trans hempty)
        rw [hnil, List.length_nil] at hlength
        exact Or.inr ⟨hempty, by omega⟩

/-- A piece is written that was read before. -/
theorem Drains.write (h : v.Drains source size outlet? inlet count)
    (houtlet : outlet? = some outlet) (hcount : 0 < count)
    (hwrite : v.write outlet piece = .ok v') : v'.Drains source size outlet? inlet count := by
  rcases h.apart outlet houtlet with helsewhere | ⟨-, hzero⟩
  · exact h.aside (aside_write helsewhere hwrite) rfl
  · exact absurd hzero (Nat.pos_iff_ne_zero.1 hcount)

/-- When a file is opened for writing, what there is to be read at a place is as before, or it is
the file and there is nothing to be read. -/
theorem Opens.bounded {target : Place} {append : Bool} (h : v.Opens v' target append outlet)
    (hbounded : v.Bounded size source)
    (hself : target = source → append = true → v.tree.bytes source = []) :
    v'.Bounded size source ∧
      (v'.Elsewhere (· = source) outlet ∨ v'.tree.content? source = some []) := by
  by_cases hsame : target = source
  · subst hsame
    have hempty : v'.tree.content? target = some [] := by
      unfold FileTree.content?
      rw [h.node, Function.update_self]
      unfold Bounded FileTree.content? at hbounded
      unfold FileTree.bytes at hself
      generalize v.tree.node? target = node at hbounded hself ⊢
      rcases node with _ | (content | _ | _ | (_ | _))
      · rfl
      · cases append with
        | false => rfl
        | true => exact congrArg some (hself rfl rfl)
      · rfl
      · rfl
      · rfl
      · -- there is no end to this device
        simp at hbounded
    exact ⟨Or.inr ⟨[], hempty, Nat.zero_le _⟩, Or.inr hempty⟩
  · exact ⟨hbounded.congr (h.elsewhere (Ne.symm hsame)), Or.inl ⟨_, h.stream, hsame⟩⟩

end Volume

end FileGateway

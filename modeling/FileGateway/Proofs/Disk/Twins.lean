import FileGateway.Disk.Store
import FileGateway.Proofs.Disk.Plain
import Mathlib.Data.List.Infix

/-!
# Volumes that look the same

A veil lies over some files of a volume and over the streams that were opened before one. Whoever
works on the volume sees that there is a file, but not what is in it, and can use the later streams
only. Two volumes that differ under the veil alone are twins.

A program that sees nothing under a veil is blind to it: it answers the same on twins, and leaves
twins behind, if it has opened none of the hidden files by then (`Volume.Blind`). All calls to a
volume are blind that use later streams only, and so is whatever does one thing after another that
is blind (`Volume.Blind.bind`), such as the answer of the local disk to a call (`DiskStore.blind`).
-/

namespace FileGateway

/-- What cannot be seen of a volume: what is in some files, and the streams before the `first` that
can be seen. -/
structure Veil where
  hidden : Place → Prop
  first : StreamId

/-! ## Trees -/

/-- What two trees have at a place: the same, or a file of which nobody sees what is in it. -/
inductive Node.Twins (hidden : Prop) : Option Node → Option Node → Prop where
  | same (node : Option Node) : Twins hidden node node
  | veiled (h : hidden) (content content' : Bytes) :
    Twins hidden (some (.file content)) (some (.file content'))

/-- Two walks end at one place, where two trees have the same, or a hidden file. -/
inductive Spot.Twins (hidden : Place → Prop) : Spot → Spot → Prop where
  | same (spot : Spot) : Twins hidden spot spot
  | veiled {place : Place} (h : hidden place) (slashed : Bool) (content content' : Bytes) :
    Twins hidden ⟨place, some (.file content), slashed⟩ ⟨place, some (.file content'), slashed⟩

/-- Two calls are refused with one error, or give results that fit each other. -/
inductive SystemResult.Both {α β : Type} (R : α → β → Prop) :
    SystemResult α → SystemResult β → Prop where
  | refused (e : SystemError) : Both R (.error e) (.error e)
  | given {a : α} {b : β} (fits : R a b) : Both R (.ok a) (.ok b)

open SystemResult (Both)

theorem SystemResult.of_bind {α β : Type} {x : SystemResult α} {f : α → SystemResult β} {b : β}
    (h : (x >>= f) = .ok b) : ∃ a, x = .ok a ∧ f a = .ok b := by
  cases x with
  | error e => cases h
  | ok a => exact ⟨a, rfl, h⟩

namespace SystemResult.Both

variable {α β γ δ : Type} {R : α → β → Prop} {x : SystemResult α} {y : SystemResult β}

theorem bind {S : γ → δ → Prop} {f : α → SystemResult γ} {g : β → SystemResult δ} (h : Both R x y)
    (hfg : ∀ a b, R a b → Both S (f a) (g b)) : Both S (x >>= f) (y >>= g) := by
  cases h with
  | refused e => exact .refused e
  | given fits => exact hfg _ _ fits

theorem map {S : γ → δ → Prop} {f : α → γ} {g : β → δ} (h : Both R x y)
    (hfg : ∀ a b, R a b → S (f a) (g b)) : Both S (x.map f) (y.map g) := by
  cases h with
  | refused e => exact .refused e
  | given fits => exact .given (hfg _ _ fits)

end SystemResult.Both

namespace FileTree

/-- Two trees that differ in hidden files alone. -/
def Twins (hidden : Place → Prop) (t t' : FileTree) : Prop :=
  ∀ place, Node.Twins (hidden place) (t.node? place) (t'.node? place)

variable {hidden : Place → Prop} {t t' : FileTree} {last : LastName} {here place : Place}
  {slashed : Bool}

theorem Twins.refl (t : FileTree) : t.Twins hidden t :=
  fun _ => .same _

theorem Twins.seen (h : t.Twins hidden t') (hseen : ¬ hidden place) :
    t'.node? place = t.node? place := by
  have hnode := h place
  generalize t.node? place = node at hnode ⊢
  generalize t'.node? place = node' at hnode ⊢
  cases hnode with
  | same node => rfl
  | veiled hhidden content content' => exact absurd hhidden hseen

theorem Twins.put (h : t.Twins hidden t') {node node' : Node}
    (hnode : Node.Twins (hidden place) (some node) (some node')) :
    (t.put place node).Twins hidden (t'.put place node') := by
  intro other
  by_cases hroot : place = []
  · subst hroot
    rw [node?_put_nil, node?_put_nil]
    exact h other
  · rw [node?_put t hroot, node?_put t' hroot]
    by_cases hother : other = place
    · subst hother
      rw [Function.update_self, Function.update_self]
      exact hnode
    · rw [Function.update_of_ne hother, Function.update_of_ne hother]
      exact h other

theorem Twins.erase (h : t.Twins hidden t') (place : Place) :
    (t.erase place).Twins hidden (t'.erase place) := by
  intro other
  by_cases hroot : place = []
  · subst hroot
    rw [node?_erase_nil, node?_erase_nil]
    exact h other
  · rw [node?_erase t hroot, node?_erase t' hroot]
    by_cases hother : other = place
    · subst hother
      rw [Function.update_self, Function.update_self]
      exact .same none
    · rw [Function.update_of_ne hother, Function.update_of_ne hother]
      exact h other

/-! ### Walks -/

theorem entry?_twins (h : t.Twins hidden t') (here : Place) (name : String) :
    Both (Node.Twins (hidden (here ++ [name]))) (t.entry? here name) (t'.entry? here name) := by
  unfold entry?
  split
  · exact .refused _
  · exact .given (h _)

/-- Where a walk is after a stage: at one place, or on one way. -/
abbrev StageTwins (hidden : Place → Prop) : Spot ⊕ Way → Spot ⊕ Way → Prop :=
  Sum.LiftRel (Spot.Twins hidden) Eq

theorem atLast_twins (h : t.Twins hidden t') (last : LastName) (here : Place) (name : String)
    (slashed : Bool) : Both (StageTwins hidden) (t.atLast last here name slashed)
      (t'.atLast last here name slashed) := by
  unfold atLast
  split
  · exact .refused _
  refine (entry?_twins h here name).bind fun node node' hnode => ?_
  cases hnode with
  | same node =>
    split
    · split
      · exact .given (.inl (.same _))
      · exact .given (.inr rfl)
    · exact .given (.inl (.same _))
  | veiled hhidden content content' =>
    exact .given (.inl (.veiled hhidden slashed content content'))

theorem stage_twins (h : t.Twins hidden t') (last : LastName) (here : Place) (slashed : Bool)
    (pieces : List String) : Both (StageTwins hidden) (t.stage last here slashed pieces)
      (t'.stage last here slashed pieces) := by
  induction here, pieces using FileTree.stage.induct with
  | case1 here =>
    rw [FileTree.stage.eq_1, FileTree.stage.eq_1]
    exact .given (.inl (.same _))
  | case2 here rest ih =>
    rw [FileTree.stage.eq_2, FileTree.stage.eq_2]
    exact ih
  | case3 here rest ih =>
    rw [FileTree.stage.eq_3, FileTree.stage.eq_3]
    exact ih
  | case4 here name hdot hdots =>
    rw [FileTree.stage.eq_4 _ _ _ _ _ hdot hdots, FileTree.stage.eq_4 _ _ _ _ _ hdot hdots]
    exact atLast_twins h last here name slashed
  | case5 here name rest hdot hdots hne ih =>
    rw [FileTree.stage.eq_5 _ _ _ _ _ _ hdot hdots hne,
      FileTree.stage.eq_5 _ _ _ _ _ _ hdot hdots hne]
    refine (entry?_twins h here name).bind fun node node' hnode => ?_
    cases hnode with
    | same node =>
      split
      · exact .refused _
      · exact ih
      · exact .given (.inr rfl)
      · exact .refused _
    | veiled hhidden content content' => exact .refused _

theorem walkWay_twins (h : t.Twins hidden t') (last : LastName) (stages : Nat) (way : Way) :
    Both (Spot.Twins hidden) (t.walkWay last stages way) (t'.walkWay last stages way) := by
  induction stages generalizing way with
  | zero => exact .refused _
  | succ stages ih =>
    rw [walkWay, walkWay]
    refine (stage_twins h last way.here way.slashed way.pieces).bind fun r r' hr => ?_
    cases hr with
    | inl hspot => exact .given hspot
    | inr hway =>
      cases hway
      exact ih _

/-- What a walk comes to does not depend on what is in hidden files. -/
theorem walk_twins (h : t.Twins hidden t') (last : LastName) (here : Place) (p : Path) :
    Both (Spot.Twins hidden) (t.walk last here p) (t'.walk last here p) := by
  unfold walk
  split
  · exact .refused _
  split
  · exact .refused _
  split
  · exact .refused _
  · exact walkWay_twins h last _ _

end FileTree

/-! ## Volumes -/

namespace Volume

/-- Two volumes that differ under a veil alone. -/
structure Twins (z : Veil) (v v' : Volume) : Prop where
  tree : v.tree.Twins z.hidden v'.tree
  here : v'.here = v.here
  opened : v'.streams.length = v.streams.length
  streams : ∀ id ≥ z.first, v'.streams[id]? = v.streams[id]?

/-- Where the streams lead to. -/
def places (v : Volume) : List Place :=
  v.streams.map OpenFile.place

/-- No stream that can be seen leads to a hidden file. -/
def Discreet (z : Veil) (v : Volume) : Prop :=
  ∀ place ∈ v.places.drop z.first, ¬ z.hidden place

variable {z : Veil} {v v' : Volume} {id : StreamId}

theorem Twins.refl (v : Volume) : v.Twins z v :=
  ⟨.refl _, rfl, rfl, fun _ _ => rfl⟩

/-- Volumes that differ under a veil differ under one that lies over more streams. -/
theorem Twins.later (h : v.Twins z v') {first : StreamId} (hle : z.first ≤ first) :
    v.Twins ⟨z.hidden, first⟩ v' :=
  ⟨h.tree, h.here, h.opened, fun id hid => h.streams id (Nat.le_trans hle hid)⟩

/-- Streams stay where they lead to, so what is discreet was discreet before. -/
theorem Discreet.before (h : v'.Discreet z) (hplaces : v.places <+: v'.places) : v.Discreet z :=
  fun place hplace => h place ((List.IsPrefix.drop hplaces z.first).subset hplace)

theorem Discreet.seen (h : v.Discreet z) (hid : z.first ≤ id) {stream : OpenFile}
    (hstream : v.streams[id]? = some stream) : ¬ z.hidden stream.place := by
  refine h _ (List.mem_iff_getElem?.2 ⟨id - z.first, ?_⟩)
  rw [List.getElem?_drop, Nat.add_sub_cancel' hid, places, List.getElem?_map, hstream]
  rfl

/-! ### Calls -/

/-- Two calls give one answer and leave twins. -/
abbrev CallTwins {α : Type} (z : Veil) (r r' : α × Volume) : Prop :=
  r'.1 = r.1 ∧ r.2.Twins z r'.2

theorem Twins.walk (h : v.Twins z v') (last : LastName) (p : Path) :
    Both (Spot.Twins z.hidden) (v.walk last p) (v'.walk last p) := by
  unfold Volume.walk
  rw [h.here]
  exact FileTree.walk_twins h.tree last v.here p

theorem Twins.put (h : v.Twins z v') {place : Place} {node node' : Node}
    (hnode : Node.Twins (z.hidden place) (some node) (some node')) :
    Twins z { v with tree := v.tree.put place node } { v' with tree := v'.tree.put place node' } :=
  ⟨h.tree.put hnode, h.here, h.opened, h.streams⟩

theorem Twins.erase (h : v.Twins z v') (place : Place) :
    Twins z { v with tree := v.tree.erase place } { v' with tree := v'.tree.erase place } :=
  ⟨h.tree.erase place, h.here, h.opened, h.streams⟩

theorem Twins.addStream (h : v.Twins z v') (place : Place) (append : Bool) :
    CallTwins z (v.addStream place append) (v'.addStream place append) := by
  refine ⟨h.opened, h.tree, h.here, ?_, fun id hid => ?_⟩
  · simp [Volume.addStream, h.opened]
  · simp only [Volume.addStream, List.getElem?_append, h.opened, h.streams id hid]

theorem isDirectory_twins (h : v.Twins z v') (p : Path) :
    Both Eq (v.isDirectory p) (v'.isDirectory p) := by
  refine (h.walk .follow p).bind fun spot spot' hspot => ?_
  cases hspot with
  | same spot =>
    split
    · exact .refused _
    · exact .given rfl
    · split
      · exact .refused _
      · exact .given rfl
  | veiled hhidden slashed content content' =>
    cases slashed
    · exact .given rfl
    · exact .refused _

theorem createNew_twins (h : v.Twins z v') (p : Path) :
    Both (Twins z) (v.createNew p) (v'.createNew p) := by
  refine (h.walk .stay p).bind fun spot spot' hspot => ?_
  cases hspot with
  | same spot =>
    split
    · exact .refused _
    · split
      · exact .refused _
      · exact .given (h.put (.same _))
  | veiled hhidden slashed content content' => exact .refused _

theorem remove_twins (h : v.Twins z v') (p : Path) :
    Both (Twins z) (v.remove p) (v'.remove p) := by
  refine (h.walk .stay p).bind fun spot spot' hspot => ?_
  cases hspot with
  | same spot =>
    split
    · exact .refused _
    · exact .refused _
    · split
      · exact .refused _
      · exact .given (h.erase spot.place)
  | @veiled place hhidden slashed content content' =>
    cases slashed
    · exact .given (h.erase place)
    · exact .refused _

theorem openRead_twins (h : v.Twins z v') (p : Path) :
    Both (CallTwins z) (v.openRead p) (v'.openRead p) := by
  refine (h.walk .follow p).bind fun spot spot' hspot => ?_
  cases hspot with
  | same spot =>
    split
    · exact .refused _
    · exact .given (h.addStream spot.place false)
    · split
      · exact .refused _
      · exact .given (h.addStream spot.place false)
  | @veiled place hhidden slashed content content' =>
    cases slashed
    · exact .given (h.addStream place false)
    · exact .refused _

theorem openWrite_twins (h : v.Twins z v') (p : Path) (append : Bool) :
    Both (CallTwins z) (v.openWrite p append) (v'.openWrite p append) := by
  refine (h.walk .create p).bind fun spot spot' hspot => ?_
  cases hspot with
  | same spot =>
    split
    · exact .given ((h.put (.same _)).addStream spot.place append)
    · exact .given ((h.put (.same _)).addStream spot.place append)
    · exact .given (h.addStream spot.place append)
    · exact .refused _
  | @veiled place hhidden slashed content content' =>
    exact .given ((h.put (.veiled hhidden _ _)).addStream place append)

/-- A stream is replaced by the same one. -/
theorem Twins.setStream (h : v.Twins z v') (id : StreamId) (stream : OpenFile) :
    Twins z { v with streams := v.streams.set id stream }
      { v' with streams := v'.streams.set id stream } := by
  refine ⟨h.tree, h.here, ?_, fun other hother => ?_⟩
  · simp [h.opened]
  · simp only [List.getElem?_set, h.opened, h.streams other hother]

theorem read_twins (h : v.Twins z v') (hdiscreet : v.Discreet z) (hid : z.first ≤ id) :
    Both (CallTwins z) (v.read id) (v'.read id) := by
  unfold Volume.read
  rw [h.streams id hid]
  cases hstream : v.streams[id]? with
  | none => exact .given ⟨rfl, h⟩
  | some stream =>
    simp only
    rw [h.tree.seen (hdiscreet.seen hid hstream)]
    split
    · exact .given ⟨rfl, h.setStream id _⟩
    · exact .refused _
    · exact .given ⟨rfl, h⟩
    · exact .given ⟨rfl, h⟩

theorem write_twins (h : v.Twins z v') (hdiscreet : v.Discreet z) (hid : z.first ≤ id)
    (piece : Bytes) : Both (Twins z) (v.write id piece) (v'.write id piece) := by
  unfold Volume.write
  rw [h.streams id hid]
  cases hstream : v.streams[id]? with
  | none => exact .given h
  | some stream =>
    simp only
    rw [h.tree.seen (hdiscreet.seen hid hstream)]
    split
    · exact .given ((h.put (.same _)).setStream id _)
    · split
      · exact .given h
      · exact .refused _
    · exact .given h

/-! ### Streams that come along -/

theorem places_createNew {p : Path} (h : v.createNew p = .ok v') : v'.places = v.places := by
  obtain ⟨spot, -, h⟩ := SystemResult.of_bind h
  split at h
  · cases h
  · split at h
    · cases h
    · cases h
      rfl

theorem places_remove {p : Path} (h : v.remove p = .ok v') : v'.places = v.places := by
  obtain ⟨spot, -, h⟩ := SystemResult.of_bind h
  split at h
  · cases h
  · cases h
  · split at h
    · cases h
    · cases h
      rfl

/-- A stream that is opened is the last one. -/
structure Lengthens (v v' : Volume) (id : StreamId) : Prop where
  id : id = v.streams.length
  streams : ∃ stream, v'.streams = v.streams ++ [stream]

theorem Lengthens.places (h : v.Lengthens v' id) : v.places <+: v'.places := by
  obtain ⟨-, stream, hstreams⟩ := h
  rw [Volume.places, Volume.places, hstreams, List.map_append]
  exact List.prefix_append _ _

theorem lengthens_openRead {p : Path} (h : v.openRead p = .ok (id, v')) : v.Lengthens v' id := by
  obtain ⟨spot, -, h⟩ := SystemResult.of_bind h
  split at h
  · cases h
  · cases h
    exact ⟨rfl, _, rfl⟩
  · split at h
    · cases h
    · cases h
      exact ⟨rfl, _, rfl⟩

theorem lengthens_openWrite {p : Path} {append : Bool} (h : v.openWrite p append = .ok (id, v')) :
    v.Lengthens v' id := by
  obtain ⟨spot, -, h⟩ := SystemResult.of_bind h
  split at h
  · cases h
    exact ⟨rfl, _, rfl⟩
  · cases h
    exact ⟨rfl, _, rfl⟩
  · cases h
    exact ⟨rfl, _, rfl⟩
  · cases h

/-- A stream that goes on leads where it did. -/
theorem places_set {stream : OpenFile} (hstream : v.streams[id]? = some stream) (tree : FileTree)
    (offset : Nat) :
    places { v with tree := tree, streams := v.streams.set id { stream with offset := offset } } =
      v.places := by
  obtain ⟨hlt, rfl⟩ := List.getElem?_eq_some_iff.1 hstream
  refine List.ext_getElem? fun n => ?_
  rw [places, places, List.map_set, List.getElem?_set]
  split
  · next hn =>
    subst hn
    simp [hlt]
  · rfl

theorem places_read {piece : Bytes} (h : v.read id = .ok (piece, v')) : v'.places = v.places := by
  unfold Volume.read at h
  cases hstream : v.streams[id]? with
  | none =>
    rw [hstream] at h
    cases h
    rfl
  | some stream =>
    rw [hstream] at h
    simp only at h
    split at h
    · cases h
      exact places_set hstream _ _
    · cases h
    · cases h
      rfl
    · cases h
      rfl

theorem places_write {piece : Bytes} (h : v.write id piece = .ok v') : v'.places = v.places := by
  unfold Volume.write at h
  cases hstream : v.streams[id]? with
  | none =>
    rw [hstream] at h
    cases h
    rfl
  | some stream =>
    rw [hstream] at h
    simp only at h
    split at h
    · cases h
      exact places_set hstream _ _
    · split at h
      · cases h
        rfl
      · cases h
    · cases h
      rfl

/-! ### Programs -/

/-- A program is blind to what is under a veil: while no stream that can be seen leads to a hidden
file, it answers the same on twins and leaves twins. Whatever it answers is as it is said to be. -/
structure Blind {α : Type} (z : Veil) (x : StateM Volume α) (P : α → Prop) : Prop where
  keeps : ∀ v, z.first ≤ v.streams.length → v.places <+: (x v).2.places
  fits : ∀ v, z.first ≤ v.streams.length → P (x v).1
  same : ∀ v v', v.Twins z v' → z.first ≤ v.streams.length → (x v).2.Discreet z →
    CallTwins z (x v) (x v')

section

variable {α β : Type} {P : α → Prop} {Q : β → Prop} {x : StateM Volume α}

theorem Blind.mono (h : Blind z x P) {P' : α → Prop} (hP : ∀ a, P a → P' a) : Blind z x P' :=
  ⟨h.keeps, fun v hv => hP _ (h.fits v hv), h.same⟩

theorem Blind.pure {a : α} (h : P a) : Blind z (pure a) P :=
  ⟨fun _ _ => List.prefix_rfl, fun _ _ => h, fun _ _ htwins _ _ => ⟨rfl, htwins⟩⟩

/-- There are as many streams as before, at least. -/
theorem length_of_places (h : v.places <+: v'.places) : v.streams.length ≤ v'.streams.length := by
  simpa [places] using h.length_le

/-- One thing is done after another. -/
theorem Blind.bind {f : α → StateM Volume β} (h : Blind z x P) (hf : ∀ a, P a → Blind z (f a) Q) :
    Blind z (x >>= f) Q := by
  have hthen : ∀ v, z.first ≤ v.streams.length → Blind z (f (x v).1) Q ∧
      z.first ≤ (x v).2.streams.length := fun v hv =>
    ⟨hf _ (h.fits v hv), Nat.le_trans hv (length_of_places (h.keeps v hv))⟩
  constructor
  · intro v hv
    obtain ⟨hrest, hv'⟩ := hthen v hv
    exact (h.keeps v hv).trans (hrest.keeps _ hv')
  · intro v hv
    obtain ⟨hrest, hv'⟩ := hthen v hv
    exact hrest.fits _ hv'
  · intro v v' htwins hv hdiscreet
    obtain ⟨hrest, hv'⟩ := hthen v hv
    obtain ⟨hanswer, hleft⟩ := h.same v v' htwins hv (hdiscreet.before (hrest.keeps _ hv'))
    change CallTwins z (f (x v).1 (x v).2) (f (x v').1 (x v').2)
    rw [hanswer]
    exact hrest.same _ _ hleft hv' hdiscreet

/-- A call is blind if it is the same on twins. -/
theorem blind_act {call : Volume → SystemResult (α × Volume)}
    (hkeeps : ∀ {v a v'}, call v = .ok (a, v') → v.places <+: v'.places)
    (hfits : ∀ {v a v'}, call v = .ok (a, v') → z.first ≤ v.streams.length → P a)
    (hsame : ∀ {v v'}, v.Twins z v' → v.Discreet z → Both (CallTwins z) (call v) (call v')) :
    Blind z (act call) fun r => ∀ a, r = .ok a → P a := by
  have hact : ∀ v, v.places <+: (act call v).2.places := by
    intro v
    unfold act
    cases hcall : call v with
    | error e => exact List.prefix_rfl
    | ok r => exact hkeeps hcall
  refine ⟨fun v _ => hact v, fun v hv a ha => ?_, fun v v' htwins _ hdiscreet => ?_⟩
  · unfold act at ha
    cases hcall : call v with
    | error e =>
      rw [hcall] at ha
      cases ha
    | ok r =>
      rw [hcall] at ha
      cases ha
      exact hfits hcall hv
  · have hboth := hsame htwins (hdiscreet.before (hact v))
    unfold act
    generalize call v = r at hboth ⊢
    generalize call v' = r' at hboth ⊢
    cases hboth with
    | refused e => exact ⟨rfl, htwins⟩
    | given fits => exact ⟨congrArg Except.ok fits.1, fits.2⟩

/-- A call that changes a volume and tells nothing is blind if it leaves twins of twins. -/
theorem blind_change {call : Volume → SystemResult Volume}
    (hplaces : ∀ {v v'}, call v = .ok v' → v'.places = v.places)
    (hsame : ∀ {v v'}, v.Twins z v' → v.Discreet z → Both (Twins z) (call v) (call v')) :
    Blind z (act fun v => (call v).map ((), ·)) fun _ => True := by
  have hact : Blind z (act fun v => (call v).map ((), ·)) fun r => ∀ a, r = .ok a → True := by
    refine blind_act (fun {v a v'} h => ?_) (fun _ _ => trivial) fun htwins hdiscreet =>
      (hsame htwins hdiscreet).map fun _ _ hleft => ⟨rfl, hleft⟩
    cases hcall : call v with
    | error e =>
      rw [hcall] at h
      cases h
    | ok w =>
      rw [hcall] at h
      cases h
      rw [hplaces hcall]
  exact hact.mono fun _ _ => trivial

end

/-! ### Calls to the file system -/

theorem blind_isDirectory (p : Path) :
    Blind z (FileAccess.isDirectory p : StateM Volume _) fun _ => True := by
  refine ⟨fun _ _ => List.prefix_rfl, fun _ _ => trivial, fun v v' htwins _ _ => ⟨?_, htwins⟩⟩
  have hboth := isDirectory_twins htwins p
  simp only [FileAccess.isDirectory]
  generalize v.isDirectory p = r at hboth ⊢
  generalize v'.isDirectory p = r' at hboth ⊢
  cases hboth with
  | refused e => rfl
  | given fits => rw [fits]

theorem blind_createNew (p : Path) :
    Blind z (FileAccess.createNew p : StateM Volume _) fun _ => True :=
  blind_change places_createNew fun htwins _ => createNew_twins htwins p

theorem blind_remove (p : Path) :
    Blind z (FileAccess.remove p : StateM Volume _) fun _ => True :=
  blind_change places_remove fun htwins _ => remove_twins htwins p

theorem blind_openRead (p : Path) :
    Blind z (FileAccess.openRead p : StateM Volume _) fun r => ∀ id, r = .ok id → z.first ≤ id :=
  blind_act (fun h => (lengthens_openRead h).places)
    (fun h hv => (lengthens_openRead h).id ▸ hv) fun htwins _ => openRead_twins htwins p

theorem blind_openWrite (p : Path) (append : Bool) :
    Blind z (FileAccess.openWrite p append : StateM Volume _)
      fun r => ∀ id, r = .ok id → z.first ≤ id :=
  blind_act (fun h => (lengthens_openWrite h).places)
    (fun h hv => (lengthens_openWrite h).id ▸ hv) fun htwins _ => openWrite_twins htwins p append

theorem blind_read (hid : z.first ≤ id) :
    Blind z (FileAccess.read id : StateM Volume _) fun _ => True :=
  (blind_act (P := fun _ => True) (fun h => by rw [places_read h]) (fun _ _ => trivial)
    fun htwins hdiscreet => read_twins htwins hdiscreet hid).mono fun _ _ => trivial

theorem blind_write (hid : z.first ≤ id) (piece : Bytes) :
    Blind z (FileAccess.write id piece : StateM Volume _) fun _ => True :=
  blind_change places_write fun htwins hdiscreet => write_twins htwins hdiscreet hid piece

end Volume

/-! ## Calls to the local disk -/

/-- A call uses no stream but such as can be seen. -/
def StoreCall.Sees (z : Veil) : StoreCall → Prop
  | read id | write id _ => z.first ≤ id
  | _ => True

/-- The stream that a call is answered with. -/
def StoreCall.opened? : (call : StoreCall) → call.Answer → Option StreamId
  | openRead _, .ok id | openWrite _ _, .ok id => some id
  | _, _ => none

namespace DiskStore

open Volume (Blind)

variable {z : Veil}

theorem blind_resolve (path : Path) :
    Blind z (resolve path : StateM Volume (Result FileRef)) fun _ => True := by
  unfold resolve
  split
  · exact .pure trivial
  split
  · exact .pure trivial
  split
  · exact .pure trivial
  refine (Volume.blind_isDirectory _).bind fun r _ => ?_
  split <;> exact .pure trivial

/-- The answer of the disk to a call is the same whatever is under a veil. -/
theorem blind {call : StoreCall} (h : call.Sees z) :
    Blind z (answer call : StateM Volume call.Answer)
      fun a => ∀ id ∈ call.opened? a, z.first ≤ id := by
  have hnone : ∀ {call : StoreCall} {x : StateM Volume call.Answer},
      (∀ a, call.opened? a = none) → Blind z x (fun _ => True) →
        Blind z x fun a => ∀ id ∈ call.opened? a, z.first ≤ id := by
    intro call x hnone hx
    refine hx.mono fun a _ id hid => ?_
    rw [hnone a] at hid
    cases hid
  cases call with
  | resolve path options => exact hnone (fun _ => rfl) (blind_resolve path)
  | probe file =>
    refine hnone (fun _ => rfl) ((Volume.blind_isDirectory _).bind fun r _ => ?_)
    split <;> exact .pure trivial
  | createFile file =>
    refine hnone (fun _ => rfl) ((Volume.blind_openWrite _ _).bind fun r _ => ?_)
    split <;> exact .pure trivial
  | createExclusive file =>
    refine hnone (fun _ => rfl) ((Volume.blind_createNew _).bind fun r _ => ?_)
    split <;> exact .pure trivial
  | delete file =>
    refine hnone (fun _ => rfl) ((Volume.blind_remove _).bind fun r _ => ?_)
    split <;> exact .pure trivial
  | openRead file =>
    refine (Volume.blind_openRead _).bind fun r hr => .pure fun id hid => ?_
    cases r with
    | error e => cases hid
    | ok id' =>
      cases hid
      exact hr _ rfl
  | openWrite file append =>
    refine (Volume.blind_openWrite _ _).bind fun r hr => .pure fun id hid => ?_
    cases r with
    | error e => cases hid
    | ok id' =>
      cases hid
      exact hr _ rfl
  | read id => exact hnone (fun _ => rfl) ((Volume.blind_read h).bind fun r _ => .pure trivial)
  | write id piece =>
    exact hnone (fun _ => rfl) ((Volume.blind_write h piece).bind fun r _ => .pure trivial)
  | finish id => exact hnone (fun _ => rfl) (.pure trivial)
  | close => exact hnone (fun _ => rfl) (.pure trivial)

end DiskStore

end FileGateway

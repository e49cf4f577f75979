import FileGateway.Disk.Volume
import FileGateway.Proofs.Disk.Plain

/-!
# The shape of a tree

A walk goes by directories and links alone: it leads to the same place in every tree that has the
same ones, and tells what is there (`walk_alike`). Files and devices may come and go.
-/

namespace FileGateway

/-- What a walk goes by, if it is that. -/
def Node.guide? : Node → Option Node
  | file _ => none
  | directory => some directory
  | link target => some (link target)
  | device _ => none

/-- The same spot as a tree shows it. -/
def Spot.seen (t : FileTree) (spot : Spot) : Spot :=
  { spot with
    node := if spot.node = some .directory then some .directory else t.node? spot.place }

namespace FileTree

/-- What a walk goes by at a place. -/
def guide? (t : FileTree) (place : Place) : Option Node :=
  (t.node? place).bind Node.guide?

/-- Two trees have the same directories and links. -/
def Alike (t t' : FileTree) : Prop :=
  ∀ place, t'.guide? place = t.guide? place

variable {t t' t'' : FileTree} {place : Place} {last : LastName} {here : Place} {slashed : Bool}

theorem Alike.refl (t : FileTree) : t.Alike t := fun _ => rfl

theorem Alike.symm (h : t.Alike t') : t'.Alike t := fun place => (h place).symm

theorem Alike.trans (h : t.Alike t') (h' : t'.Alike t'') : t.Alike t'' :=
  fun place => (h' place).trans (h place)

theorem guide?_eq_directory :
    t.guide? place = some .directory ↔ t.node? place = some .directory := by
  unfold guide?
  rcases t.node? place with _ | (_ | _ | _ | _) <;> simp [Node.guide?]

theorem guide?_eq_link {target : Path} :
    t.guide? place = some (.link target) ↔ t.node? place = some (.link target) := by
  unfold guide?
  rcases t.node? place with _ | (_ | _ | _ | _) <;> simp [Node.guide?]

theorem Alike.directory (h : t.Alike t') :
    t'.node? place = some .directory ↔ t.node? place = some .directory := by
  rw [← guide?_eq_directory, h place, guide?_eq_directory]

theorem Alike.link (h : t.Alike t') {target : Path} :
    t'.node? place = some (.link target) ↔ t.node? place = some (.link target) := by
  rw [← guide?_eq_link, h place, guide?_eq_link]

/-! ## Walks -/

theorem of_entry {α : Type} {name : String} {k : Option Node → SystemResult α} {r : α}
    (h : (t.entry? here name >>= k) = .ok r) :
    name.utf8ByteSize ≤ maxNameSize ∧ k (t.node? (here ++ [name])) = .ok r := by
  by_cases hlong : maxNameSize < name.utf8ByteSize
  · rw [entry?_of_long hlong] at h
    cases h
  · rw [entry?_of_short (Nat.not_lt.1 hlong)] at h
    exact ⟨Nat.not_lt.1 hlong, h⟩

/-- What comes of the last name: a link is followed, unless the walk is to stay there, and
everything else is where it ends. -/
inductive Arrives (t : FileTree) (last : LastName) (place : Place) (slashed : Bool) :
    Spot ⊕ Way → Prop where
  | detour {target : Path} (node : t.node? place = some (.link target)) (follows : last ≠ .stay) :
    Arrives t last place slashed (.inr (.detour place.dropLast target [] slashed))
  | spot (stays : ∀ target, t.node? place = some (.link target) → last = .stay) :
    Arrives t last place slashed (.inl ⟨place, t.node? place, slashed⟩)

theorem Arrives.alike {r : Spot ⊕ Way} (h : t.Alike t') (ha : t.Arrives last place slashed r) :
    t'.Arrives last place slashed (r.map (Spot.seen t') id) := by
  cases ha with
  | detour node follows => exact .detour (h.link.2 node) follows
  | spot stays =>
    have hseen : Spot.seen t' ⟨place, t.node? place, slashed⟩ =
        ⟨place, t'.node? place, slashed⟩ := by
      unfold Spot.seen
      split
      · next hdirectory => rw [h.directory.2 hdirectory]
      · rfl
    rw [Sum.map_inl, hseen]
    exact .spot fun target htarget => stays target (h.link.1 htarget)

theorem atLast_eq_ok_iff {name : String} {r : Spot ⊕ Way} :
    t.atLast last here name slashed = .ok r ↔
      (last = .create && slashed) = false ∧ name.utf8ByteSize ≤ maxNameSize ∧
        t.Arrives last (here ++ [name]) slashed r := by
  unfold atLast
  constructor
  · intro hlast
    split at hlast
    · cases hlast
    · next hslash =>
      obtain ⟨hshort, hnode⟩ := of_entry hlast
      refine ⟨Bool.eq_false_iff.2 hslash, hshort, ?_⟩
      split at hnode
      · next target htarget =>
        split at hnode
        · next hstay =>
          cases hnode
          rw [← htarget]
          exact .spot fun _ _ => hstay
        · next hstay =>
          cases hnode
          have hdetour : t.Arrives last (here ++ [name]) slashed _ := .detour htarget hstay
          rwa [List.dropLast_concat] at hdetour
      · next hlink =>
        cases hnode
        exact .spot fun target htarget => absurd htarget (hlink target)
  · rintro ⟨hslash, hshort, ha⟩
    rw [if_neg (Bool.eq_false_iff.1 hslash), entry?_of_short hshort]
    cases ha with
    | detour node follows =>
      rw [node, List.dropLast_concat]
      exact if_neg follows
    | spot stays =>
      cases hnode : t.node? (here ++ [name]) with
      | none => rfl
      | some node =>
        cases node with
        | link target => exact if_pos (stays target hnode)
        | _ => rfl

theorem atLast_alike (h : t.Alike t') {name : String} {r : Spot ⊕ Way}
    (hlast : t.atLast last here name slashed = .ok r) :
    t'.atLast last here name slashed = .ok (r.map (Spot.seen t') id) := by
  obtain ⟨hslash, hshort, ha⟩ := atLast_eq_ok_iff.1 hlast
  exact atLast_eq_ok_iff.2 ⟨hslash, hshort, ha.alike h⟩

theorem stage_alike (h : t.Alike t') {pieces : List String} {r : Spot ⊕ Way}
    (hstage : t.stage last here slashed pieces = .ok r) :
    t'.stage last here slashed pieces = .ok (r.map (Spot.seen t') id) := by
  induction here, pieces using FileTree.stage.induct with
  | case1 here =>
    rw [FileTree.stage.eq_1] at hstage ⊢
    cases hstage
    rfl
  | case2 here rest ih =>
    rw [FileTree.stage.eq_2] at hstage ⊢
    exact ih hstage
  | case3 here rest ih =>
    rw [FileTree.stage.eq_3] at hstage ⊢
    exact ih hstage
  | case4 here name hdot hdots =>
    rw [FileTree.stage.eq_4 _ _ _ _ _ hdot hdots] at hstage ⊢
    exact atLast_alike h hstage
  | case5 here name rest hdot hdots hne ih =>
    rw [FileTree.stage.eq_5 _ _ _ _ _ _ hdot hdots hne] at hstage ⊢
    obtain ⟨hshort, hpass⟩ := of_entry hstage
    rw [entry?_of_short hshort]
    split at hpass
    · cases hpass
    · next hnode =>
      rw [h.directory.2 hnode]
      exact ih hpass
    · next target hnode =>
      rw [h.link.2 hnode]
      cases hpass
      rfl
    · cases hpass

theorem walkWay_alike (h : t.Alike t') {stages : Nat} {way : Way} {spot : Spot}
    (hwalk : t.walkWay last stages way = .ok spot) :
    t'.walkWay last stages way = .ok (spot.seen t') := by
  induction stages generalizing way with
  | zero => cases hwalk
  | succ stages ih =>
    rw [walkWay] at hwalk ⊢
    cases hstage : t.stage last way.here way.slashed way.pieces with
    | error e =>
      rw [hstage] at hwalk
      cases hwalk
    | ok r =>
      rw [hstage] at hwalk
      rw [stage_alike h hstage]
      cases r with
      | inl found =>
        cases hwalk
        rfl
      | inr next => exact ih hwalk

/-- A walk leads to the same place in a tree with the same directories and links. -/
theorem walk_alike (h : t.Alike t') {p : Path} {spot : Spot}
    (hwalk : t.walk last here p = .ok spot) : t'.walk last here p = .ok (spot.seen t') := by
  unfold walk at hwalk ⊢
  split at hwalk
  · cases hwalk
  · next hnull =>
    split at hwalk
    · cases hwalk
    · next hempty =>
      split at hwalk
      · cases hwalk
      · next hlong =>
        rw [if_neg hnull, if_neg hempty, if_neg hlong]
        exact walkWay_alike h hwalk

/-! ## Where walks end -/

/-- Whatever there is, is in a directory that is there. -/
def Rooted (t : FileTree) : Prop :=
  ∀ entry ∈ t.entries, t.node? entry.1.dropLast = some .directory

theorem Rooted.directory (h : t.Rooted) {node : Node} (hnode : t.node? place = some node) :
    t.node? place.dropLast = some .directory := by
  by_cases hne : place = []
  · rw [hne]
    rfl
  · rw [node?_of_ne_nil t hne, List.lookup_eq_some_iff] at hnode
    obtain ⟨before, after, hentries, -⟩ := hnode
    refine h (place, node) ?_
    rw [hentries]
    exact List.mem_append_right _ List.mem_cons_self

/-- A walk is at directories that are there, and its end is as it is told. -/
def Told (t : FileTree) : Spot ⊕ Way → Prop
  | .inl spot => spot.node = t.node? spot.place
  | .inr way => t.node? way.here = some .directory

theorem told_detour (hhere : t.node? here = some .directory) (target : Path) (rest : List String)
    (slashed : Bool) : t.node? (Way.detour here target rest slashed).here = some .directory := by
  have hway : t.node? (Way.ofPath here target).here = some .directory := by
    unfold Way.ofPath
    split
    · rfl
    · exact hhere
  unfold Way.detour
  dsimp only
  split <;> exact hway

theorem told_stage (h : t.Rooted) (hhere : t.node? here = some .directory) {pieces : List String}
    {r : Spot ⊕ Way} (hstage : t.stage last here slashed pieces = .ok r) : t.Told r := by
  induction here, pieces using FileTree.stage.induct with
  | case1 here =>
    rw [FileTree.stage.eq_1] at hstage
    cases hstage
    exact hhere.symm
  | case2 here rest ih =>
    rw [FileTree.stage.eq_2] at hstage
    exact ih hhere hstage
  | case3 here rest ih =>
    rw [FileTree.stage.eq_3] at hstage
    exact ih (h.directory hhere) hstage
  | case4 here name hdot hdots =>
    rw [FileTree.stage.eq_4 _ _ _ _ _ hdot hdots] at hstage
    obtain ⟨-, -, ha⟩ := atLast_eq_ok_iff.1 hstage
    cases ha with
    | detour node follows =>
      rw [List.dropLast_concat]
      exact told_detour hhere _ _ _
    | spot stays => rfl
  | case5 here name rest hdot hdots hne ih =>
    rw [FileTree.stage.eq_5 _ _ _ _ _ _ hdot hdots hne] at hstage
    obtain ⟨-, hpass⟩ := of_entry hstage
    split at hpass
    · cases hpass
    · next hnode => exact ih hnode hpass
    · cases hpass
      exact told_detour hhere _ _ _
    · cases hpass

theorem told_walkWay (h : t.Rooted) {stages : Nat} {way : Way} {spot : Spot}
    (hhere : t.node? way.here = some .directory) (hwalk : t.walkWay last stages way = .ok spot) :
    spot.node = t.node? spot.place := by
  induction stages generalizing way with
  | zero => cases hwalk
  | succ stages ih =>
    rw [walkWay] at hwalk
    cases hstage : t.stage last way.here way.slashed way.pieces with
    | error e =>
      rw [hstage] at hwalk
      cases hwalk
    | ok r =>
      rw [hstage] at hwalk
      have htold : t.Told r := told_stage h hhere hstage
      cases r with
      | inl found =>
        cases hwalk
        exact htold
      | inr next => exact ih htold hwalk

theorem told_walk (h : t.Rooted) (hhere : t.node? here = some .directory) {p : Path} {spot : Spot}
    (hwalk : t.walk last here p = .ok spot) : spot.node = t.node? spot.place := by
  unfold walk at hwalk
  split at hwalk
  · cases hwalk
  split at hwalk
  · cases hwalk
  split at hwalk
  · cases hwalk
  refine told_walkWay h ?_ hwalk
  unfold Way.ofPath
  dsimp only
  split
  · rfl
  · exact hhere

/-! ## The last name -/

/-- What a walk stays at is no link. -/
def Stops (r : Spot ⊕ Way) : Prop :=
  ∀ spot target, r = .inl spot → spot.node ≠ some (.link target)

theorem stage_create {pieces : List String} {r r' : Spot ⊕ Way}
    (hstay : t.stage .stay here slashed pieces = .ok r) (hr : Stops r)
    (hcreate : t.stage .create here slashed pieces = .ok r') : r' = r := by
  induction here, pieces using FileTree.stage.induct with
  | case1 here =>
    rw [FileTree.stage.eq_1] at hstay hcreate
    cases hstay
    cases hcreate
    rfl
  | case2 here rest ih =>
    rw [FileTree.stage.eq_2] at hstay hcreate
    exact ih hstay hcreate
  | case3 here rest ih =>
    rw [FileTree.stage.eq_3] at hstay hcreate
    exact ih hstay hcreate
  | case4 here name hdot hdots =>
    rw [FileTree.stage.eq_4 _ _ _ _ _ hdot hdots] at hstay hcreate
    obtain ⟨-, -, ha⟩ := atLast_eq_ok_iff.1 hstay
    obtain ⟨-, -, ha'⟩ := atLast_eq_ok_iff.1 hcreate
    cases ha with
    | detour node follows => exact absurd rfl follows
    | spot stays =>
      cases ha' with
      | detour node follows => exact absurd node (hr _ _ rfl)
      | spot stays' => rfl
  | case5 here name rest hdot hdots hne ih =>
    rw [FileTree.stage.eq_5 _ _ _ _ _ _ hdot hdots hne] at hstay hcreate
    obtain ⟨-, hpass⟩ := of_entry hstay
    obtain ⟨-, hpass'⟩ := of_entry hcreate
    split at hpass
    · cases hpass
    · next hnode =>
      rw [hnode] at hpass'
      exact ih hpass hpass'
    · next target hnode =>
      rw [hnode] at hpass'
      cases hpass
      cases hpass'
      rfl
    · cases hpass

theorem walkWay_create {stages : Nat} {way : Way} {spot spot' : Spot}
    (hstay : t.walkWay .stay stages way = .ok spot) (hspot : Stops (.inl spot))
    (hcreate : t.walkWay .create stages way = .ok spot') : spot' = spot := by
  induction stages generalizing way with
  | zero => cases hstay
  | succ stages ih =>
    rw [walkWay] at hstay hcreate
    cases hs : t.stage .stay way.here way.slashed way.pieces with
    | error e =>
      rw [hs] at hstay
      cases hstay
    | ok r =>
      rw [hs] at hstay
      cases hc : t.stage .create way.here way.slashed way.pieces with
      | error e =>
        rw [hc] at hcreate
        cases hcreate
      | ok r' =>
        rw [hc] at hcreate
        cases r with
        | inl found =>
          cases hstay
          cases stage_create hs hspot hc
          cases hcreate
          rfl
        | inr next =>
          have hnext : Stops (.inr next) := fun _ _ h => by cases h
          cases stage_create hs hnext hc
          exact ih hstay hcreate

/-- A file that may be created where a walk stays is created just there, if there is no link. -/
theorem walk_create {p : Path} {spot spot' : Spot} (hstay : t.walk .stay here p = .ok spot)
    (hspot : ∀ target, spot.node ≠ some (.link target))
    (hcreate : t.walk .create here p = .ok spot') : spot' = spot := by
  unfold walk at hstay hcreate
  split at hstay
  · cases hstay
  · next hnull =>
    rw [if_neg hnull] at hcreate
    split at hstay
    · cases hstay
    · next hempty =>
      rw [if_neg hempty] at hcreate
      split at hstay
      · cases hstay
      · next hlong =>
        rw [if_neg hlong] at hcreate
        refine walkWay_create hstay (fun found target h => ?_) hcreate
        cases h
        exact hspot target

/-! ## Files that come and go -/

theorem alike_of_update {node : Option Node} (hplace : t.guide? place = none)
    (hnode : node.bind Node.guide? = none) (h : t'.node? = Function.update t.node? place node) :
    t.Alike t' := by
  intro other
  unfold guide? at hplace ⊢
  rw [h]
  by_cases hother : other = place
  · subst hother
    rw [Function.update_self, hnode, hplace]
  · rw [Function.update_of_ne hother]

theorem ne_nil_of_guide? (hplace : t.guide? place = none) : place ≠ [] := by
  rintro rfl
  cases hplace

theorem alike_put (hplace : t.guide? place = none) (content : Bytes) :
    t.Alike (t.put place (.file content)) :=
  alike_of_update hplace rfl (node?_put t (ne_nil_of_guide? hplace) _)

theorem alike_erase (hplace : t.guide? place = none) : t.Alike (t.erase place) :=
  alike_of_update hplace rfl (node?_erase t (ne_nil_of_guide? hplace))

end FileTree

/-! ## Volumes -/

namespace Volume

/-- A volume that is used from a directory of it. -/
structure Rooted (v : Volume) : Prop where
  tree : v.tree.Rooted
  here : v.tree.node? v.here = some .directory

/-- Two volumes are used from the same directory, and have the same directories and links. -/
structure Alike (v v' : Volume) : Prop where
  here : v'.here = v.here
  tree : v.tree.Alike v'.tree

variable {v v' v'' : Volume} {last : LastName} {p : Path} {spot : Spot}

theorem Alike.refl (v : Volume) : v.Alike v := ⟨rfl, .refl _⟩

theorem Alike.symm (h : v.Alike v') : v'.Alike v := ⟨h.here.symm, h.tree.symm⟩

theorem Alike.trans (h : v.Alike v') (h' : v'.Alike v'') : v.Alike v'' :=
  ⟨h'.here.trans h.here, h.tree.trans h'.tree⟩

theorem Alike.walk (h : v.Alike v') (hwalk : v.walk last p = .ok spot) :
    v'.walk last p = .ok (spot.seen v'.tree) := by
  unfold Volume.walk at hwalk ⊢
  rw [h.here]
  exact FileTree.walk_alike h.tree hwalk

/-- On a volume that has come of a rooted one, a walk leads where it led before, and ends as it is
told. -/
theorem Alike.leads (h : v.Alike v') (hv : v.Rooted) (hwalk : v'.walk last p = .ok spot) :
    v.walk last p = .ok (spot.seen v.tree) ∧ spot.node = v'.tree.node? spot.place := by
  have hback := h.symm.walk hwalk
  refine ⟨hback, ?_⟩
  have htold : (spot.seen v.tree).node = v.tree.node? spot.place :=
    FileTree.told_walk hv.tree hv.here hback
  -- what is there now is what the walk tells when it is walked there and back
  have hagain := h.walk hback
  rw [hwalk] at hagain
  have hspot := congrArg Spot.node (Except.ok.inj hagain)
  rw [hspot]
  by_cases hdirectory : (spot.seen v.tree).node = some .directory
  · rw [htold] at hdirectory
    rw [h.tree.directory.2 hdirectory]
    exact if_pos (htold.trans hdirectory)
  · exact if_neg hdirectory

end Volume

end FileGateway

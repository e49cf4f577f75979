import FileGateway.Proofs.Path.Names
import Mathlib.Data.List.Induction

/-!
# Markers and normal forms

The marker of a target is found on the target as it was spelled: its last name is taken off and
another one is hung in its place. The normal form is found on the components. The two do not get in
each other's way, because taking off the last name keeps all components before it (`Beside`):
whoever takes the normal form of a marker finds the marker of the normal form (`marker_normal_iff`).
So two targets have one marker in the end if and only if they are one file in the end
(`same_marker_iff_same_target`).
-/

namespace FileGateway.Path

/-! ## Absolute paths as they are spelled -/

/-- The absolute path that is spelled with some pieces. -/
def spelled (pieces : List (List Char)) : Path :=
  ⟨String.ofList ('/' :: joinPieces pieces)⟩

/-- The components of an absolute path with some pieces. -/
def rootedComponents (pieces : List (List Char)) : List Component :=
  .root :: pieces.filterMap componentOf?

variable {pieces : List (List Char)} {t m : Path} {name : String}

theorem chars_spelled : (spelled pieces).chars = '/' :: joinPieces pieces :=
  String.toList_ofList

theorem split_of_chars {body : List Char} (h : t.chars = '/' :: body) :
    t.split = (.root, body) := by
  unfold split
  rw [h]
  rfl

theorem components_of_absolute (h : t.isAbsolute = true) :
    t.components = rootedComponents (slashPieces t.split.2) := by
  rw [components, (split_root_iff t).2 h]
  rfl

theorem components_spelled (h : ∀ p ∈ pieces, '/' ∉ p) :
    (spelled pieces).components = rootedComponents pieces := by
  rw [components, split_of_chars chars_spelled]
  cases pieces with
  | nil => rfl
  | cons piece pieces =>
    rw [slashPieces_joinPieces (List.cons_ne_nil _ _) h]
    rfl

theorem isAbsolute_spelled : (spelled pieces).isAbsolute = true := by
  rw [isAbsolute, chars_spelled]
  rfl

theorem componentOf?_idle {piece : List Char} (h : isIdlePiece piece = true) :
    componentOf? piece = none := by
  rw [componentOf?, if_pos h]

theorem componentOf?_eq_normal {piece : List Char} (h : componentOf? piece = some (.normal name)) :
    piece = name.toList := by
  unfold componentOf? at h
  split at h
  · cases h
  · split at h
    · cases h
    · cases h
      exact String.toList_ofList.symm

theorem componentOf?_isSome {piece : List Char} (h : isIdlePiece piece = false) :
    (componentOf? piece).isSome = true := by
  rw [componentOf?, if_neg (by rw [h]; exact Bool.false_ne_true)]
  split <;> rfl

theorem componentOf?_name (h : IsName name) : componentOf? name.toList = some (.normal name) := by
  rw [componentOf?, h.not_idle, if_neg Bool.false_ne_true, if_neg h.notDots, String.ofList_toList]

/-! ## Pieces at the end -/

theorem dropIdle_concat_idle {piece : List Char} (h : isIdlePiece piece = true) :
    dropIdle (pieces ++ [piece]) = dropIdle pieces := by
  simp [dropIdle, h]

theorem dropIdle_concat {piece : List Char} (h : isIdlePiece piece = false) :
    dropIdle (pieces ++ [piece]) = pieces ++ [piece] := by
  simp [dropIdle, h]

theorem mem_of_mem_dropIdle {piece : List Char} (h : piece ∈ dropIdle pieces) :
    piece ∈ pieces := by
  rw [dropIdle, List.mem_reverse] at h
  exact List.mem_reverse.1 ((List.dropWhile_sublist _).subset h)

/-- What is dropped at the end does not count. -/
theorem rootedComponents_dropIdle (pieces : List (List Char)) :
    rootedComponents (dropIdle pieces) = rootedComponents pieces := by
  induction pieces using List.reverseRecOn with
  | nil => rfl
  | append_singleton pieces piece ih =>
    cases hidle : isIdlePiece piece with
    | true =>
      rw [dropIdle_concat_idle hidle, ih]
      simp [rootedComponents, componentOf?_idle hidle]
    | false => rw [dropIdle_concat hidle]

/-- After that the last piece is the last component. -/
theorem dropIdle_ends (pieces : List (List Char)) : dropIdle pieces = [] ∨
    ∃ front piece, dropIdle pieces = front ++ [piece] ∧ isIdlePiece piece = false := by
  induction pieces using List.reverseRecOn with
  | nil => exact .inl rfl
  | append_singleton pieces piece ih =>
    cases hidle : isIdlePiece piece with
    | true => rwa [dropIdle_concat_idle hidle]
    | false => exact .inr ⟨pieces, piece, dropIdle_concat hidle, hidle⟩

theorem rootedComponents_concat (pieces : List (List Char)) (h : IsName name) :
    rootedComponents (pieces ++ [name.toList]) = rootedComponents pieces ++ [.normal name] := by
  simp [rootedComponents, componentOf?_name h]

/-- A name is entered in a directory that is spelled without idle pieces at its end. -/
theorem join_spelled (h : ∀ p ∈ pieces, '/' ∉ p) (hname : IsName name) :
    (spelled (dropIdle pieces)).join ⟨name⟩ = spelled (dropIdle pieces ++ [name.toList]) := by
  rw [join, isAbsolute_of_isName hname, if_neg Bool.false_ne_true]
  refine ext_chars ?_
  have htext : (spelled (dropIdle pieces)).text.toList = _ := chars_spelled
  rcases dropIdle_ends pieces with hnil | ⟨front, piece, hends, hidle⟩
  · -- the slash of the root stands before the name
    have hslash : ((spelled (dropIdle pieces)).chars.isEmpty ||
        (spelled (dropIdle pieces)).chars.getLast? == some '/') = true := by
      rw [hnil]
      rfl
    rw [hslash, if_pos rfl, chars_spelled, chars, String.toList_append, htext, hnil]
    rfl
  · have hpiece : '/' ∉ piece :=
      h piece (mem_of_mem_dropIdle (hends ▸ List.mem_append_right _ List.mem_cons_self))
    have hnonempty : piece ≠ [] := by
      rintro rfl
      cases hidle
    have hslash : ((spelled (dropIdle pieces)).chars.isEmpty ||
        (spelled (dropIdle pieces)).chars.getLast? == some '/') = false := by
      have hlast : ('/' :: joinPieces (front ++ [piece])).getLast? = piece.getLast? := by
        rw [List.getLast?_cons, getLast?_joinPieces front hnonempty]
        cases hlast : piece.getLast? with
        | none => exact absurd (List.getLast?_eq_none_iff.1 hlast) hnonempty
        | some c => rfl
      rw [chars_spelled, hends, hlast, List.isEmpty_cons, Bool.false_or, beq_eq_false_iff_ne]
      exact fun heq => hpiece (List.mem_of_getLast? heq)
    rw [hslash, if_neg Bool.false_ne_true, chars_spelled, chars, String.toList_append,
      String.toList_append, htext, hends,
      joinPieces_concat (List.append_ne_nil_of_right_ne_nil _ (List.cons_ne_nil _ _)),
      List.append_assoc]
    rfl

/-! ## Targets and their markers -/

/-- A path that a file can be written to: it starts at the root and ends in a name. -/
structure IsTarget (t : Path) : Prop where
  absolute : t.isAbsolute = true
  named : t.fileName?.isSome = true

/-- `m` is spelled as `t`, but for its last name that has `.lock` behind it. -/
structure Beside (t m : Path) (front : List Component) (name : String) : Prop where
  isName : IsName name
  target : t.components = front ++ [.normal name]
  marker : m.components = front ++ [.normal (name ++ ".lock")]
  absolute : t.isAbsolute = true
  rooted : m.isAbsolute = true

/-- A target ends in a piece that is its name, after what does not count was dropped. -/
theorem IsTarget.ends (h : IsTarget t) : ∃ front name, IsName name ∧
    t.fileName? = some name ∧ dropIdle (slashPieces t.split.2) = front ++ [name.toList] := by
  obtain ⟨name, hname⟩ := Option.isSome_iff_exists.1 h.named
  have hlast : t.components.getLast? = some (.normal name) := by
    unfold fileName? at hname
    split at hname
    · next heq =>
      cases hname
      exact heq
    · cases hname
  have hisName : IsName name := isName_of_mem_components (List.mem_of_getLast? hlast)
  rw [components_of_absolute h.absolute, ← rootedComponents_dropIdle] at hlast
  rcases dropIdle_ends (slashPieces t.split.2) with hnil | ⟨front, piece, hends, hidle⟩
  · rw [hnil] at hlast
    cases hlast
  · obtain ⟨component, hcomponent⟩ := Option.isSome_iff_exists.1 (componentOf?_isSome hidle)
    rw [hends, rootedComponents, List.filterMap_append] at hlast
    simp only [List.filterMap_cons, hcomponent, List.filterMap_nil, ← List.cons_append,
      List.getLast?_concat, Option.some.injEq] at hlast
    rw [hlast] at hcomponent
    exact ⟨front, name, hisName, hname, componentOf?_eq_normal hcomponent ▸ hends⟩

/-- The directory of a target is spelled with the pieces before the name. -/
theorem parent?_of_pieces {front : List (List Char)} (h : t.isAbsolute = true)
    (hpieces : dropIdle (slashPieces t.split.2) = front ++ [name.toList]) :
    t.parent? = some (spelled (dropIdle front)) := by
  have hroot := (split_root_iff t).2 h
  unfold parent?
  split
  next lead body hsplit =>
  rw [hsplit] at hroot hpieces
  obtain rfl : lead = .root := hroot
  rw [hpieces]
  split
  · next heq => exact absurd heq (List.append_ne_nil_of_right_ne_nil _ (List.cons_ne_nil _ _))
  · rw [List.dropLast_concat]
    rfl

/-- Every target has a marker, and it stands beside it. -/
theorem IsTarget.marker (h : IsTarget t) :
    ∃ m front name, t.marker? = some m ∧ Beside t m front name := by
  obtain ⟨front, name, hname, hfile, hpieces⟩ := h.ends
  have hslashless : ∀ p ∈ front, '/' ∉ p := fun p hp => by
    have hmem : p ∈ dropIdle (slashPieces t.split.2) := hpieces ▸ List.mem_append_left _ hp
    exact not_mem_of_mem_slashPieces (mem_of_mem_dropIdle hmem)
  have hlock : IsName (name ++ ".lock") := isName_lock hname
  refine ⟨spelled (dropIdle front ++ [(name ++ ".lock").toList]), rootedComponents front, name,
    ?_, hname, ?_, ?_, h.absolute, isAbsolute_spelled⟩
  · rw [marker?, hfile, Option.map_some, withFileName, hfile, Option.isSome_some, if_pos rfl,
      parent?_of_pieces h.absolute hpieces, Option.getD_some, join_spelled hslashless hlock]
  · rw [components_of_absolute h.absolute, ← rootedComponents_dropIdle, hpieces,
      rootedComponents_concat front hname]
  · rw [components_spelled, rootedComponents_concat _ hlock, rootedComponents_dropIdle]
    intro p hp
    rcases List.mem_append.1 hp with hp | hp
    · exact hslashless p (mem_of_mem_dropIdle hp)
    · exact List.mem_singleton.1 hp ▸ hlock.slashless

/-! ## What is on the stack in the end -/

theorem stack?_concat {front : List Component} (h : t.components = front ++ [.normal name]) :
    t.stack? = (front.foldlM enter? []).map (· ++ [name]) := by
  rw [stack?, h, List.foldlM_append]
  cases front.foldlM enter? [] <;> rfl

theorem normal_of_front {front : List Component} (h : t.components = front ++ [.normal name])
    (habsolute : t.isAbsolute = true) {place : Path} : t.normal = .ok place ↔
      ∃ names, front.foldlM enter? [] = some names ∧ place = ofNames true (names ++ [name]) := by
  rw [normal_eq_ok_iff, stack?_concat h, habsolute]
  constructor
  · rintro ⟨names, hstack, -, rfl⟩
    obtain ⟨before, hbefore, rfl⟩ := Option.map_eq_some_iff.1 hstack
    exact ⟨before, hbefore, rfl⟩
  · rintro ⟨before, hbefore, rfl⟩
    exact ⟨before ++ [name], by rw [hbefore]; rfl, by simp, rfl⟩

variable {front : List Component} {names : List String}

theorem isName_of_mem_concat (h : ∀ n ∈ names, IsName n) (hname : IsName name) :
    ∀ n ∈ names ++ [name], IsName n := fun n hn => by
  rcases List.mem_append.1 hn with hn | hn
  · exact h n hn
  · exact List.mem_singleton.1 hn ▸ hname

theorem Beside.isName_front (h : Beside t m front name)
    (hnames : front.foldlM enter? [] = some names) : ∀ n ∈ names, IsName n := by
  have hstack : t.stack? = some (names ++ [name]) := by
    rw [stack?_concat h.target, hnames]
    rfl
  exact fun n hn => isName_of_mem_stack hstack n (List.mem_append_left _ hn)

/-- The marker of a normal form is the normal form of the marker. -/
theorem Beside.marker_normal_iff (h : Beside t m front name) {n k : Path} (hn : t.normal = .ok n) :
    m.normal = .ok k ↔ n.marker? = some k := by
  obtain ⟨names, hnames, rfl⟩ := (normal_of_front h.target h.absolute).1 hn
  rw [normal_of_front h.marker h.rooted, marker?_ofNames (h.isName_front hnames) h.isName,
    Option.some.injEq]
  constructor
  · rintro ⟨others, hothers, rfl⟩
    rw [hnames] at hothers
    cases hothers
    rfl
  · rintro rfl
    exact ⟨names, hnames, rfl⟩

theorem Beside.normal_isOk (h : Beside t m front name) : m.normal.isOk = t.normal.isOk := by
  cases hfront : front.foldlM enter? [] with
  | none =>
    rw [normal_of_stack_none (by rw [stack?_concat h.marker, hfront]; rfl),
      normal_of_stack_none (by rw [stack?_concat h.target, hfront]; rfl)]
    rfl
  | some names =>
    rw [(normal_of_front h.marker h.rooted).2 ⟨names, hfront, rfl⟩,
      (normal_of_front h.target h.absolute).2 ⟨names, hfront, rfl⟩]
    rfl

theorem lock_injective {other : String} (h : name ++ ".lock" = other ++ ".lock") :
    name = other := by
  have hchars := congrArg String.toList h
  rw [String.toList_append, String.toList_append] at hchars
  exact String.toList_inj.1 (List.append_cancel_right hchars)

theorem lock_ne (name : String) : name ++ ".lock" ≠ name := by
  intro heq
  have hlength := congrArg (fun text : String => text.toList.length) heq
  simp [String.toList_append] at hlength

/-- No marker is in the place of its target. -/
theorem Beside.normal_ne (h : Beside t m front name) {n : Path} (hn : t.normal = .ok n) :
    m.normal ≠ .ok n := by
  intro hm
  obtain ⟨names, hnames, rfl⟩ := (normal_of_front h.target h.absolute).1 hn
  obtain ⟨others, hothers, heq⟩ := (normal_of_front h.marker h.rooted).1 hm
  rw [hnames] at hothers
  cases hothers
  have hfront := h.isName_front hnames
  have hlists := ofNames_injective (isName_of_mem_concat hfront h.isName)
    (isName_of_mem_concat hfront (isName_lock h.isName)) heq
  exact lock_ne name (List.singleton_inj.1 (List.append_cancel_left hlists)).symm

/-- Markers in one place belong to targets in one place. -/
theorem Beside.same_iff {t' m' n n' k k' : Path} {front' : List Component} {name' : String}
    (h : Beside t m front name) (h' : Beside t' m' front' name')
    (hn : t.normal = .ok n) (hn' : t'.normal = .ok n') (hk : m.normal = .ok k)
    (hk' : m'.normal = .ok k') : k = k' ↔ n = n' := by
  constructor
  · rintro rfl
    obtain ⟨names, hnames, rfl⟩ := (normal_of_front h.marker h.rooted).1 hk
    obtain ⟨names', hnames', heq⟩ := (normal_of_front h'.marker h'.rooted).1 hk'
    have hlists := List.append_inj' (ofNames_injective
      (isName_of_mem_concat (h.isName_front hnames) (isName_lock h.isName))
      (isName_of_mem_concat (h'.isName_front hnames') (isName_lock h'.isName)) heq) rfl
    obtain rfl : names = names' := hlists.1
    obtain rfl : name = name' := lock_injective (List.singleton_inj.1 hlists.2)
    have hplace := (normal_of_front h.target h.absolute).2 ⟨names, hnames, rfl⟩
    have hplace' := (normal_of_front h'.target h'.absolute).2 ⟨names, hnames', rfl⟩
    rw [hn] at hplace
    rw [hn'] at hplace'
    exact (Except.ok.inj hplace).trans (Except.ok.inj hplace').symm
  · rintro rfl
    have hmarker := (h.marker_normal_iff hn).1 hk
    rw [(h'.marker_normal_iff hn').1 hk'] at hmarker
    exact (Option.some.inj hmarker).symm

/-! ## One marker, one file -/

/-- What holds of a target and its marker: they have normal forms together, the marker of the normal
form is the normal form of the marker, and it is never the normal form of the target. -/
structure Commutes (t m : Path) : Prop where
  marker : t.marker? = some m
  together : m.normal.isOk = t.normal.isOk
  normal : ∀ n k, t.normal = .ok n → (m.normal = .ok k ↔ n.marker? = some k)
  apart : ∀ n, t.normal = .ok n → m.normal ≠ .ok n

/-- The markers of two targets have one normal form if and only if the targets have: whoever writes
to one file meets the others at one marker, and nobody else. -/
theorem same_marker_iff_same_target (t₁ t₂ : Path) (h₁ : IsTarget t₁) (h₂ : IsTarget t₂) :
    ∃ m₁ m₂, Commutes t₁ m₁ ∧ Commutes t₂ m₂ ∧
      ∀ n₁ n₂ k₁ k₂, t₁.normal = .ok n₁ → t₂.normal = .ok n₂ →
        m₁.normal = .ok k₁ → m₂.normal = .ok k₂ → (k₁ = k₂ ↔ n₁ = n₂) := by
  have hcommutes : ∀ {t m : Path} {front name}, t.marker? = some m → Beside t m front name →
      Commutes t m := fun hmarker hbeside =>
    ⟨hmarker, hbeside.normal_isOk, fun _ _ hn => hbeside.marker_normal_iff hn,
      fun _ hn => hbeside.normal_ne hn⟩
  obtain ⟨m₁, front₁, name₁, hmarker₁, hbeside₁⟩ := h₁.marker
  obtain ⟨m₂, front₂, name₂, hmarker₂, hbeside₂⟩ := h₂.marker
  exact ⟨m₁, m₂, hcommutes hmarker₁ hbeside₁, hcommutes hmarker₂ hbeside₂,
    fun _ _ _ _ hn₁ hn₂ hk₁ hk₂ => hbeside₁.same_iff hbeside₂ hn₁ hn₂ hk₁ hk₂⟩

/-- A file that is spelled with dots and slashes, and once more plainly: the markers are spelled
differently and are in one place. -/
theorem two_spellings_one_marker : ∃ m₁ m₂ place,
    (⟨"/in/./box//../out"⟩ : Path).marker? = some m₁ ∧ (⟨"/in/out/"⟩ : Path).marker? = some m₂ ∧
      m₁ ≠ m₂ ∧ m₁.normal = .ok place ∧ m₂.normal = .ok place := by
  obtain ⟨m₁, m₂, h₁, h₂, hsame⟩ :=
    same_marker_iff_same_target ⟨"/in/./box//../out"⟩ ⟨"/in/out/"⟩
      ⟨by decide +kernel, by decide +kernel⟩ ⟨by decide +kernel, by decide +kernel⟩
  have hn₁ : (⟨"/in/./box//../out"⟩ : Path).normal = .ok ⟨"/in/out"⟩ := by decide +kernel
  have hn₂ : (⟨"/in/out/"⟩ : Path).normal = .ok ⟨"/in/out"⟩ := by decide +kernel
  have hk₁ : m₁.normal = .ok ⟨"/in/out.lock"⟩ := (h₁.normal _ _ hn₁).2 (by decide +kernel)
  have hk₂ : m₂.normal = .ok ⟨"/in/out.lock"⟩ := (h₂.normal _ _ hn₂).2 (by decide +kernel)
  have hspelled₁ : m₁ = ⟨"/in/./box//../out.lock"⟩ :=
    Option.some.inj (h₁.marker.symm.trans (by decide +kernel))
  have hspelled₂ : m₂ = ⟨"/in/out.lock"⟩ :=
    Option.some.inj (h₂.marker.symm.trans (by decide +kernel))
  refine ⟨m₁, m₂, _, h₁.marker, h₂.marker, ?_, hk₁, ?_⟩
  · rw [hspelled₁, hspelled₂]
    decide +kernel
  · rw [(hsame _ _ _ _ hn₁ hn₂ hk₁ hk₂).2 rfl]
    exact hk₂

end FileGateway.Path

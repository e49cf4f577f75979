import FileGateway.Path.Marker
import FileGateway.Path.Normal

/-!
# Paths as stacks of names

A path in its plainest form is a list of names, from the root or from nowhere (`Path.ofNames`). On
such paths the operations on texts are operations on lists: a name is entered at the end and left
there again. So the normal form of a path is found on a stack of names (`normal_eq`), and it is the
plainest form of what is on the stack in the end.
-/

namespace FileGateway

/-! ## Pieces -/

theorem slashPieces_of_not_mem {chars : List Char} (h : '/' ∉ chars) :
    slashPieces chars = [chars] := by
  induction chars with
  | nil => rfl
  | cons c rest ih =>
    have hc : c ≠ '/' := fun heq => h (heq ▸ List.mem_cons_self)
    rw [slashPieces, if_neg hc, ih fun hmem => h (List.mem_cons_of_mem c hmem)]

theorem slashPieces_append {chars : List Char} (rest : List Char) (h : '/' ∉ chars) :
    slashPieces (chars ++ '/' :: rest) = chars :: slashPieces rest := by
  induction chars with
  | nil => rfl
  | cons c chars ih =>
    have hc : c ≠ '/' := fun heq => h (heq ▸ List.mem_cons_self)
    rw [List.cons_append, slashPieces, if_neg hc, ih fun hmem => h (List.mem_cons_of_mem c hmem)]

/-- Pieces that were joined are found again. -/
theorem slashPieces_joinPieces {pieces : List (List Char)} (hne : pieces ≠ [])
    (h : ∀ piece ∈ pieces, '/' ∉ piece) : slashPieces (joinPieces pieces) = pieces := by
  induction pieces with
  | nil => exact absurd rfl hne
  | cons piece pieces ih =>
    have hpiece := h piece List.mem_cons_self
    cases pieces with
    | nil => exact slashPieces_of_not_mem hpiece
    | cons next pieces =>
      have hrest := ih (List.cons_ne_nil _ _) fun p hp => h p (List.mem_cons_of_mem _ hp)
      rw [joinPieces, slashPieces_append _ hpiece, hrest]
      exact List.cons_ne_nil _ _

/-- There is no slash in a piece. -/
theorem not_mem_of_mem_slashPieces {chars piece : List Char} (h : piece ∈ slashPieces chars) :
    '/' ∉ piece := by
  induction chars generalizing piece with
  | nil =>
    rw [slashPieces, List.mem_singleton] at h
    rw [h]
    exact List.not_mem_nil
  | cons c rest ih =>
    rw [slashPieces] at h
    split at h
    · rcases List.mem_cons.1 h with rfl | h
      · exact List.not_mem_nil
      · exact ih h
    · next hc =>
      have hcons : ∀ p ∈ slashPieces rest, '/' ∉ c :: p := fun p hp hmem => by
        rcases List.mem_cons.1 hmem with heq | hmem
        · exact hc heq.symm
        · exact ih hp hmem
      split at h
      · rw [List.mem_singleton.1 h]
        exact fun hmem => hc (List.mem_singleton.1 hmem).symm
      · next first pieces hpieces =>
        rw [hpieces] at hcons ih
        rcases List.mem_cons.1 h with rfl | h
        · exact hcons first List.mem_cons_self
        · exact ih (List.mem_cons_of_mem first h)

theorem joinPieces_cons {pieces : List (List Char)} (hne : pieces ≠ []) (first : List Char) :
    joinPieces (first :: pieces) = first ++ '/' :: joinPieces pieces := by
  cases pieces with
  | nil => exact absurd rfl hne
  | cons next pieces => rfl

theorem joinPieces_concat {pieces : List (List Char)} (hne : pieces ≠ []) (last : List Char) :
    joinPieces (pieces ++ [last]) = joinPieces pieces ++ '/' :: last := by
  induction pieces with
  | nil => exact absurd rfl hne
  | cons piece pieces ih =>
    cases pieces with
    | nil => rfl
    | cons next pieces =>
      rw [List.cons_append, joinPieces_cons (List.append_ne_nil_of_left_ne_nil
        (List.cons_ne_nil _ _) _), ih (List.cons_ne_nil _ _),
        joinPieces_cons (List.cons_ne_nil _ _), List.append_assoc]
      rfl

theorem joinPieces_starts (first : List Char) (pieces : List (List Char)) :
    ∃ rest, joinPieces (first :: pieces) = first ++ rest := by
  cases pieces with
  | nil => exact ⟨[], (List.append_nil first).symm⟩
  | cons next pieces => exact ⟨'/' :: joinPieces (next :: pieces), rfl⟩

theorem getLast?_joinPieces (pieces : List (List Char)) {last : List Char} (hne : last ≠ []) :
    (joinPieces (pieces ++ [last])).getLast? = last.getLast? := by
  by_cases hpieces : pieces = []
  · subst hpieces
    rfl
  · rw [joinPieces_concat hpieces, List.getLast?_append, List.getLast?_cons]
    cases hlast : last.getLast? with
    | none => exact absurd (List.getLast?_eq_none_iff.1 hlast) hne
    | some c => rfl

/-! ## Names -/

/-- A text that counts as a name in paths. -/
structure IsName (name : String) : Prop where
  nonempty : name.toList ≠ []
  slashless : '/' ∉ name.toList
  notDot : name.toList ≠ ['.']
  notDots : name.toList ≠ ['.', '.']

theorem IsName.ne_dot {name : String} (h : IsName name) : name ≠ "." :=
  fun heq => h.notDot (heq ▸ rfl)

theorem IsName.ne_dots {name : String} (h : IsName name) : name ≠ ".." :=
  fun heq => h.notDots (heq ▸ rfl)

theorem IsName.not_idle {name : String} (h : IsName name) : isIdlePiece name.toList = false := by
  simp [isIdlePiece, h.nonempty, h.notDot]

namespace Path

/-- The path of names, from the root or from nowhere. -/
def ofNames (rooted : Bool) (names : List String) : Path :=
  ⟨String.ofList ((if rooted then ['/'] else []) ++ joinPieces (names.map String.toList))⟩

/-- What leads such a path. -/
def leadOf (rooted : Bool) : Lead :=
  if rooted then .root else .none

variable {rooted : Bool} {names : List String} {name : String}

theorem slashless_map (h : ∀ n ∈ names, IsName n) : ∀ p ∈ names.map String.toList, '/' ∉ p := by
  intro p hp
  obtain ⟨n, hn, rfl⟩ := List.mem_map.1 hp
  exact (h n hn).slashless

theorem ext_chars {p q : Path} (h : p.chars = q.chars) : p = q := by
  obtain ⟨p⟩ := p
  obtain ⟨q⟩ := q
  exact congrArg Path.mk (String.toList_inj.1 h)

theorem slashPieces_names (hne : names ≠ []) (h : ∀ n ∈ names, IsName n) :
    slashPieces (joinPieces (names.map String.toList)) = names.map String.toList :=
  slashPieces_joinPieces (fun heq => hne (List.map_eq_nil_iff.1 heq)) (slashless_map h)

theorem chars_ofNames : (ofNames rooted names).chars =
    (if rooted then ['/'] else []) ++ joinPieces (names.map String.toList) :=
  String.toList_ofList

theorem split_eq_none {p : Path} (hroot : ∀ rest, p.chars ≠ '/' :: rest) (hdot : p.chars ≠ ['.'])
    (hcurrent : ∀ rest, p.chars ≠ '.' :: '/' :: rest) : p.split = (.none, p.chars) := by
  unfold split
  split
  · next rest h => exact absurd h (hroot rest)
  · next h => exact absurd h hdot
  · next rest h => exact absurd h (hcurrent rest)
  · rfl

theorem split_ofNames (h : ∀ n ∈ names, IsName n) :
    (ofNames rooted names).split = (leadOf rooted, joinPieces (names.map String.toList)) := by
  cases rooted with
  | true =>
    unfold split
    rw [chars_ofNames]
    rfl
  | false =>
    cases names with
    | nil => rfl
    | cons n names =>
      -- the first piece is a name, so it is neither empty nor a dot
      have hn := h n List.mem_cons_self
      have hpieces : slashPieces (ofNames false (n :: names)).chars =
          n.toList :: names.map String.toList := by
        rw [chars_ofNames]
        exact slashPieces_names (List.cons_ne_nil _ _) h
      rw [split_eq_none, chars_ofNames]
      · rfl
      · intro rest heq
        rw [heq, slashPieces, if_pos rfl] at hpieces
        exact hn.nonempty (List.cons.inj hpieces).1.symm
      · intro heq
        rw [heq] at hpieces
        exact hn.notDot (List.cons.inj hpieces).1.symm
      · intro rest heq
        rw [heq] at hpieces
        exact hn.notDot (List.cons.inj hpieces).1.symm

/-- The component that the root is. -/
def rootOf (rooted : Bool) : List Component :=
  (leadOf rooted).components

theorem filterMap_componentOf? (h : ∀ n ∈ names, IsName n) :
    (names.map String.toList).filterMap componentOf? = names.map .normal := by
  induction names with
  | nil => rfl
  | cons n names ih =>
    have hn := h n List.mem_cons_self
    have hcomponent : componentOf? n.toList = some (.normal n) := by
      rw [componentOf?, hn.not_idle, if_neg Bool.false_ne_true, if_neg hn.notDots,
        String.ofList_toList]
    have hrest := ih fun m hm => h m (List.mem_cons_of_mem n hm)
    rw [List.map_cons, List.filterMap_cons, hcomponent, hrest]
    rfl

/-- The components of a path of names are these names. -/
theorem components_ofNames (h : ∀ n ∈ names, IsName n) :
    (ofNames rooted names).components = rootOf rooted ++ names.map .normal := by
  rw [components, split_ofNames h]
  by_cases hne : names = []
  · subst hne
    rfl
  · simp only [slashPieces_names hne h, filterMap_componentOf? h, rootOf]

theorem fileName?_ofNames (h : ∀ n ∈ names, IsName n) (hname : IsName name) :
    (ofNames rooted (names ++ [name])).fileName? = some name := by
  have hall : ∀ n ∈ names ++ [name], IsName n := fun n hn => by
    rcases List.mem_append.1 hn with hn | hn
    · exact h n hn
    · exact List.mem_singleton.1 hn ▸ hname
  rw [fileName?, components_ofNames hall, List.map_append, ← List.append_assoc]
  simp

theorem fileName?_ofNames_nil : (ofNames rooted []).fileName? = none := by
  cases rooted <;> rfl

theorem dropIdle_map (h : ∀ n ∈ names, IsName n) :
    dropIdle (names.map String.toList) = names.map String.toList := by
  have hdrop : ((names.map String.toList).reverse.dropWhile isIdlePiece) =
      (names.map String.toList).reverse := by
    cases hlast : (names.map String.toList).reverse with
    | nil => rfl
    | cons piece pieces =>
      have hmem : piece ∈ names.map String.toList := by
        rw [← List.mem_reverse, hlast]
        exact List.mem_cons_self
      obtain ⟨n, hn, rfl⟩ := List.mem_map.1 hmem
      rw [List.dropWhile_cons, (h n hn).not_idle, if_neg Bool.false_ne_true]
  rw [dropIdle, hdrop, List.reverse_reverse]

/-- The last name is left again. -/
theorem parent?_ofNames (h : ∀ n ∈ names, IsName n) (hname : IsName name) :
    (ofNames rooted (names ++ [name])).parent? = some (ofNames rooted names) := by
  have hall : ∀ n ∈ names ++ [name], IsName n := fun n hn => by
    rcases List.mem_append.1 hn with hn | hn
    · exact h n hn
    · exact List.mem_singleton.1 hn ▸ hname
  have hne : names ++ [name] ≠ [] := List.append_ne_nil_of_right_ne_nil _ (List.cons_ne_nil _ _)
  have hlead : (leadOf rooted).chars = if rooted then ['/'] else [] := by cases rooted <;> rfl
  unfold parent?
  rw [split_ofNames hall]
  simp only [slashPieces_names hne hall, dropIdle_map hall]
  rw [List.map_append, List.map_singleton]
  split
  · next heq => exact absurd heq (List.append_ne_nil_of_right_ne_nil _ (List.cons_ne_nil _ _))
  · rw [List.dropLast_concat, dropIdle_map h, hlead]
    rfl

theorem parent?_ofNames_nil : (ofNames rooted []).parent? = none := by
  cases rooted <;> rfl

theorem isAbsolute_of_isName (hname : IsName name) : isAbsolute ⟨name⟩ = false := by
  cases hchars : name.toList with
  | nil => exact absurd hchars hname.nonempty
  | cons c rest =>
    have hc : c ≠ '/' := fun heq => hname.slashless (hchars ▸ heq ▸ List.mem_cons_self)
    simp [isAbsolute, chars, hchars, hc]

theorem isAbsolute_ofNames (h : ∀ n ∈ names, IsName n) :
    (ofNames rooted names).isAbsolute = rooted := by
  rw [isAbsolute, chars_ofNames]
  cases rooted with
  | true => rfl
  | false =>
    cases names with
    | nil => rfl
    | cons n names =>
      have hn := isAbsolute_of_isName (h n List.mem_cons_self)
      obtain ⟨rest, hrest⟩ := joinPieces_starts n.toList (names.map String.toList)
      rw [List.map_cons, hrest]
      cases hchars : n.toList with
      | nil => exact absurd hchars (h n List.mem_cons_self).nonempty
      | cons c more =>
        rw [isAbsolute, chars, hchars] at hn
        exact hn

/-- The path of some names does not end in a slash. -/
theorem getLast?_ofNames (rooted : Bool) (names : List String) (hname : IsName name) :
    ∃ c, (ofNames rooted (names ++ [name])).chars.getLast? = some c ∧ c ≠ '/' := by
  rw [chars_ofNames, List.map_append, List.map_singleton, List.getLast?_append,
    getLast?_joinPieces _ hname.nonempty]
  cases hlast : name.toList.getLast? with
  | none => exact absurd (List.getLast?_eq_none_iff.1 hlast) hname.nonempty
  | some c =>
    exact ⟨c, rfl, fun heq => hname.slashless (heq ▸ List.mem_of_getLast? hlast)⟩

/-- A name is entered. -/
theorem join_ofNames (h : ∀ n ∈ names, IsName n) (hname : IsName name) :
    (ofNames rooted names).join ⟨name⟩ = ofNames rooted (names ++ [name]) := by
  rw [join, isAbsolute_of_isName hname, if_neg Bool.false_ne_true]
  refine ext_chars ?_
  have htext : (ofNames rooted names).text.toList = _ := chars_ofNames
  rcases List.eq_nil_or_concat names with rfl | ⟨before, last, hconcat⟩
  · -- nothing, or the slash of the root, stands before the first name
    have hslash : ((ofNames rooted []).chars.isEmpty ||
        (ofNames rooted []).chars.getLast? == some '/') = true := by
      cases rooted <;> rfl
    rw [hslash, if_pos rfl, chars_ofNames, chars, String.toList_append, htext, List.append_assoc]
    rfl
  · rw [List.concat_eq_append] at hconcat
    have hpieces : names.map String.toList ≠ [] := by simp [hconcat]
    have hslash : ((ofNames rooted names).chars.isEmpty ||
        (ofNames rooted names).chars.getLast? == some '/') = false := by
      obtain ⟨c, hc, hne⟩ := getLast?_ofNames rooted before
        (h last (hconcat ▸ List.mem_append_right before List.mem_cons_self))
      rw [← hconcat] at hc
      cases hchars : (ofNames rooted names).chars with
      | nil =>
        rw [hchars] at hc
        cases hc
      | cons d rest =>
        rw [hchars] at hc
        simp [hc, hne]
    rw [hslash, if_neg Bool.false_ne_true, chars_ofNames, chars, String.toList_append,
      String.toList_append, htext, List.map_append, List.map_singleton,
      joinPieces_concat hpieces, List.append_assoc, List.append_assoc]
    rfl

/-! ## Following components -/

/-- Follows one component on a stack of names. -/
def enter? (names : List String) : Component → Option (List String)
  | .root => some []
  | .current => some names
  | .parent => if names = [] then none else some names.dropLast
  | .normal name => some (names ++ [name])

/-- The names that are left on the stack when the components of a path were followed. -/
def stack? (p : Path) : Option (List String) :=
  p.components.foldlM enter? []

theorem isName_of_mem_components {p : Path} (h : .normal name ∈ p.components) : IsName name := by
  rcases List.mem_append.1 h with h | h
  · cases hlead : p.split.1 <;> rw [hlead] at h <;> simp [Lead.components] at h
  · obtain ⟨piece, hpiece, hcomponent⟩ := List.mem_filterMap.1 h
    unfold componentOf? at hcomponent
    split at hcomponent
    · cases hcomponent
    · next hidle =>
      split at hcomponent
      · cases hcomponent
      · next hdots =>
        cases hcomponent
        simp only [isIdlePiece, Bool.or_eq_true, beq_iff_eq, not_or] at hidle
        have hslash := not_mem_of_mem_slashPieces hpiece
        constructor
        all_goals rw [String.toList_ofList]
        · exact hidle.1
        · exact hslash
        · exact hidle.2
        · exact hdots

theorem isName_enter? {component : Component} {next : List String} (h : ∀ n ∈ names, IsName n)
    (hcomponent : ∀ n, component = .normal n → IsName n)
    (henter : enter? names component = some next) : ∀ n ∈ next, IsName n := by
  cases component with
  | root =>
    cases henter
    exact fun n hn => absurd hn List.not_mem_nil
  | current =>
    cases henter
    exact h
  | parent =>
    simp only [enter?] at henter
    split at henter
    · cases henter
    · cases henter
      exact fun n hn => h n (List.dropLast_subset names hn)
  | normal name =>
    cases henter
    intro n hn
    rcases List.mem_append.1 hn with hn | hn
    · exact h n hn
    · exact hcomponent n (congrArg _ (List.mem_singleton.1 hn).symm)

/-- Following a component on a path of names is following it on the names. -/
theorem follow?_ofNames {component : Component} (h : ∀ n ∈ names, IsName n)
    (hcomponent : ∀ n, component = .normal n → IsName n) (hroot : component ≠ .root) :
    (ofNames rooted names).follow? component = (enter? names component).map (ofNames rooted) := by
  cases component with
  | root => exact absurd rfl hroot
  | current => rfl
  | parent =>
    rcases List.eq_nil_or_concat names with rfl | ⟨before, last, hconcat⟩
    · exact parent?_ofNames_nil
    · rw [List.concat_eq_append] at hconcat
      subst hconcat
      have hparent : (ofNames rooted (before ++ [last])).parent? = some (ofNames rooted before) :=
        parent?_ofNames (fun n hn => h n (List.mem_append_left _ hn)) (h last (by simp))
      simp [follow?, enter?, hparent]
  | normal name => exact congrArg some (join_ofNames h (hcomponent name rfl))

theorem foldlM_follow? {components : List Component} (h : ∀ n ∈ names, IsName n)
    (hcomponents : ∀ n, .normal n ∈ components → IsName n) (hroot : .root ∉ components) :
    components.foldlM follow? (ofNames rooted names) =
      (components.foldlM enter? names).map (ofNames rooted) := by
  induction components generalizing names with
  | nil => rfl
  | cons c components ih =>
    have hc : ∀ n, c = .normal n → IsName n := fun n hn =>
      hcomponents n (hn ▸ List.mem_cons_self)
    have hne : c ≠ .root := fun heq => hroot (heq ▸ List.mem_cons_self)
    rw [List.foldlM_cons, List.foldlM_cons, follow?_ofNames h hc hne]
    cases henter : enter? names c with
    | none => rfl
    | some next =>
      exact ih (isName_enter? h hc henter)
        (fun n hn => hcomponents n (List.mem_cons_of_mem c hn))
        fun hmem => hroot (List.mem_cons_of_mem c hmem)

theorem split_root_iff (p : Path) : p.split.1 = .root ↔ p.isAbsolute = true := by
  unfold split isAbsolute
  split
  · next rest h => simp [h]
  · next h => simp [h]
  · next rest h => simp [h]
  · next hroot _ _ =>
    cases hchars : p.chars with
    | nil => simp
    | cons c rest =>
      have hc : c ≠ '/' := fun heq => hroot rest (by rw [hchars, heq])
      simp [hc]

/-- The slash at the start of an absolute path is its first component, and there is no other one. -/
theorem components_eq (p : Path) :
    ∃ rest, p.components = rootOf p.isAbsolute ++ rest ∧ .root ∉ rest := by
  have hpieces : .root ∉ (slashPieces p.split.2).filterMap componentOf? := by
    intro hmem
    obtain ⟨piece, -, hpiece⟩ := List.mem_filterMap.1 hmem
    unfold componentOf? at hpiece
    split at hpiece
    · cases hpiece
    · split at hpiece <;> cases hpiece
  have habsolute := split_root_iff p
  rw [components]
  cases hlead : p.split.1 with
  | root =>
    rw [habsolute.1 hlead]
    exact ⟨_, rfl, hpieces⟩
  | current =>
    have hrelative : p.isAbsolute = false := by
      rw [← Bool.not_eq_true, ← habsolute, hlead]
      exact nofun
    rw [hrelative]
    refine ⟨_, rfl, fun hmem => ?_⟩
    rcases List.mem_cons.1 hmem with heq | hmem
    · cases heq
    · exact hpieces hmem
  | none =>
    have hrelative : p.isAbsolute = false := by
      rw [← Bool.not_eq_true, ← habsolute, hlead]
      exact nofun
    rw [hrelative]
    exact ⟨_, rfl, hpieces⟩

/-- Following the components of a path from nowhere leads to the names that are left on the
stack. -/
theorem foldlM_components (p : Path) :
    p.components.foldlM follow? ⟨""⟩ = p.stack?.map (ofNames p.isAbsolute) := by
  obtain ⟨rest, hcomponents, hroot⟩ := p.components_eq
  have hnames : ∀ n, .normal n ∈ rest → IsName n := fun n hn =>
    isName_of_mem_components (hcomponents ▸ List.mem_append_right _ hn)
  have hrest : rest.foldlM follow? (ofNames p.isAbsolute []) =
      (rest.foldlM enter? []).map (ofNames p.isAbsolute) :=
    foldlM_follow? (fun n hn => nomatch hn) hnames hroot
  rw [stack?, hcomponents, List.foldlM_append, List.foldlM_append]
  cases habsolute : p.isAbsolute with
  | true =>
    rw [habsolute] at hrest
    exact hrest
  | false =>
    rw [habsolute] at hrest
    exact hrest

theorem isName_of_mem_stack {p : Path} (h : p.stack? = some names) : ∀ n ∈ names, IsName n := by
  have hfold : ∀ (components : List Component) (before : List String),
      (∀ n, .normal n ∈ components → IsName n) → (∀ n ∈ before, IsName n) →
        components.foldlM enter? before = some names → ∀ n ∈ names, IsName n := by
    intro components
    induction components with
    | nil =>
      intro before _ hbefore heq
      cases heq
      exact hbefore
    | cons c components ih =>
      intro before hcomponents hbefore heq
      rw [List.foldlM_cons] at heq
      cases henter : enter? before c with
      | none =>
        rw [henter] at heq
        cases heq
      | some next =>
        rw [henter] at heq
        exact ih next (fun n hn => hcomponents n (List.mem_cons_of_mem c hn))
          (isName_enter? hbefore (fun n hn => hcomponents n (hn ▸ List.mem_cons_self)) henter) heq
  exact hfold p.components [] (fun _ => isName_of_mem_components) (fun n hn => nomatch hn) h

/-! ## Normal forms -/

theorem normal_of_stack_none {p : Path} (h : p.stack? = none) :
    p.normal = .error (.escapesRoot p) := by
  rw [normal, foldlM_components, h]
  rfl

theorem normal_of_stack_nil {p : Path} (h : p.stack? = some []) :
    p.normal = .error (.namesNoFile p) := by
  rw [normal, foldlM_components, h]
  change (if (ofNames p.isAbsolute []).fileName?.isNone then _ else _) = _
  rw [fileName?_ofNames_nil]
  rfl

theorem normal_of_stack {p : Path} (h : p.stack? = some names) (hne : names ≠ []) :
    p.normal = .ok (ofNames p.isAbsolute names) := by
  have hnames := isName_of_mem_stack h
  rcases List.eq_nil_or_concat names with heq | ⟨before, last, hconcat⟩
  · exact absurd heq hne
  · rw [List.concat_eq_append] at hconcat
    subst hconcat
    have hfile : (ofNames p.isAbsolute (before ++ [last])).fileName? = some last :=
      fileName?_ofNames (fun n hn => hnames n (List.mem_append_left _ hn)) (hnames last (by simp))
    rw [normal, foldlM_components, h]
    change (if (ofNames p.isAbsolute (before ++ [last])).fileName?.isNone then _ else _) = _
    rw [hfile]
    rfl

/-- A path has a normal form if following its components is never left without a name to leave and
ends with some names; the normal form is the plainest form of these names. -/
theorem normal_eq_ok_iff {p place : Path} : p.normal = .ok place ↔
    ∃ names, p.stack? = some names ∧ names ≠ [] ∧ place = ofNames p.isAbsolute names := by
  constructor
  · intro h
    cases hstack : p.stack? with
    | none =>
      rw [normal_of_stack_none hstack] at h
      cases h
    | some names =>
      by_cases hne : names = []
      · rw [normal_of_stack_nil (hne ▸ hstack)] at h
        cases h
      · rw [normal_of_stack hstack hne] at h
        cases h
        exact ⟨names, rfl, hne, rfl⟩
  · rintro ⟨names, hstack, hne, rfl⟩
    exact normal_of_stack hstack hne

/-- Names are found again on the stack of their path. -/
theorem stack?_ofNames (h : ∀ n ∈ names, IsName n) :
    (ofNames rooted names).stack? = some names := by
  have hfold : ∀ (names before : List String),
      (names.map Component.normal).foldlM enter? before = some (before ++ names) := by
    intro names
    induction names with
    | nil =>
      intro before
      rw [List.append_nil]
      rfl
    | cons n names ih =>
      intro before
      rw [List.map_cons, List.foldlM_cons]
      refine (ih (before ++ [n])).trans ?_
      rw [List.append_assoc]
      rfl
  rw [stack?, components_ofNames h]
  cases rooted <;> exact hfold names []

/-- A normal form is its own normal form. -/
theorem normal_ofNames (h : ∀ n ∈ names, IsName n) (hne : names ≠ []) :
    (ofNames rooted names).normal = .ok (ofNames rooted names) := by
  rw [normal_of_stack (stack?_ofNames h) hne, isAbsolute_ofNames h]

/-- Different names make different normal forms. -/
theorem ofNames_injective {others : List String} (h : ∀ n ∈ names, IsName n)
    (hothers : ∀ n ∈ others, IsName n) (heq : ofNames rooted names = ofNames rooted others) :
    names = others := by
  have hstack : (ofNames rooted names).stack? = some names := stack?_ofNames h
  rw [heq, stack?_ofNames hothers] at hstack
  exact (Option.some.inj hstack).symm

/-! ## Markers -/

theorem isName_lock (hname : IsName name) : IsName (name ++ ".lock") := by
  have hchars : (name ++ ".lock").toList = name.toList ++ ['.', 'l', 'o', 'c', 'k'] :=
    String.toList_append
  constructor
  · rw [hchars]
    simp
  · rw [hchars, List.mem_append, not_or]
    exact ⟨hname.slashless, by decide⟩
  all_goals
    rw [hchars]
    intro heq
    have hlength := congrArg List.length heq
    simp at hlength

/-- The marker of a target stands beside it. -/
theorem marker?_ofNames (h : ∀ n ∈ names, IsName n) (hname : IsName name) :
    (ofNames rooted (names ++ [name])).marker? =
      some (ofNames rooted (names ++ [name ++ ".lock"])) := by
  rw [marker?, fileName?_ofNames h hname, Option.map_some, withFileName, fileName?_ofNames h hname,
    parent?_ofNames h hname]
  exact congrArg some (join_ofNames h (isName_lock hname))

end Path

end FileGateway

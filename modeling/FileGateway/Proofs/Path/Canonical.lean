import FileGateway.Proofs.Path.Markers
import Mathlib.Data.List.Infix

/-!
# Canonical paths

The normal form of a path is what its components leave on the stack of names, written in the one
canonical way: no two slashes in a row, none at the end, and no dots (`Path.IsCanonical`). A
canonical text is told by its components (`Path.IsCanonical.eq_of_components`), so whatever leads to
one place has one text in the end, byte for byte.

A relative path that is hung under an absolute one goes on where that one has come to
(`Path.stack?_join`). As long as it never climbs above where it starts, it stays below it
(`Path.foldlM_enter?_below`).
-/

namespace FileGateway

/-! ## Pieces -/

theorem slashPieces_ne_nil (chars : List Char) : slashPieces chars ≠ [] := by
  cases chars with
  | nil => exact List.cons_ne_nil _ _
  | cons c rest =>
    rw [slashPieces]
    split
    · exact List.cons_ne_nil _ _
    · split <;> exact List.cons_ne_nil _ _

/-- Wherever there is a slash, the pieces are those before it and those after it. -/
theorem slashPieces_append_slash (front rest : List Char) :
    slashPieces (front ++ '/' :: rest) = slashPieces front ++ slashPieces rest := by
  induction front with
  | nil => rfl
  | cons c front ih =>
    by_cases hc : c = '/'
    · rw [List.cons_append, slashPieces, if_pos hc, slashPieces, if_pos hc, ih, List.cons_append]
    · rw [List.cons_append, slashPieces, if_neg hc, ih, slashPieces, if_neg hc]
      cases hfront : slashPieces front with
      | nil => exact absurd hfront (slashPieces_ne_nil front)
      | cons piece pieces => rfl

/-- A text is its pieces with slashes between them. -/
theorem joinPieces_slashPieces (chars : List Char) : joinPieces (slashPieces chars) = chars := by
  induction chars with
  | nil => rfl
  | cons c rest ih =>
    by_cases hc : c = '/'
    · rw [slashPieces, if_pos hc, joinPieces_cons (slashPieces_ne_nil rest), ih, hc]
      rfl
    · rw [slashPieces, if_neg hc]
      cases hrest : slashPieces rest with
      | nil => exact absurd hrest (slashPieces_ne_nil rest)
      | cons piece pieces =>
        rw [hrest] at ih
        cases pieces with
        | nil => exact congrArg (c :: ·) ih
        | cons next pieces =>
          rw [joinPieces_cons (List.cons_ne_nil _ _)] at ih ⊢
          rw [List.cons_append, ih]

theorem joinPieces_append {front back : List (List Char)} (hfront : front ≠ [])
    (hback : back ≠ []) :
    joinPieces (front ++ back) = joinPieces front ++ '/' :: joinPieces back := by
  induction front with
  | nil => exact absurd rfl hfront
  | cons piece front ih =>
    cases front with
    | nil => exact joinPieces_cons hback piece
    | cons next front =>
      rw [List.cons_append, joinPieces_cons (List.append_ne_nil_of_left_ne_nil
        (List.cons_ne_nil _ _) _), ih (List.cons_ne_nil _ _), joinPieces_cons
        (List.cons_ne_nil _ _), List.append_assoc]
      rfl

theorem joinPieces_eq_intercalate (pieces : List (List Char)) :
    joinPieces pieces = ['/'].intercalate pieces := by
  induction pieces with
  | nil => rfl
  | cons piece pieces ih =>
    cases pieces with
    | nil => rw [joinPieces, List.intercalate_singleton]
    | cons next pieces =>
      rw [joinPieces_cons (List.cons_ne_nil _ _), ih, List.intercalate_cons_cons, List.append_assoc]
      rfl

/-- Slashes that stand alone, and none of them at an end, leave no piece empty. -/
theorem nil_not_mem_slashPieces {chars : List Char} (hne : chars ≠ [])
    (hfirst : chars.head? ≠ some '/') (hlast : chars.getLast? ≠ some '/')
    (hsingle : ¬['/', '/'] <:+: chars) : [] ∉ slashPieces chars := by
  intro hmem
  obtain ⟨front, back, hpieces⟩ := List.append_of_mem hmem
  have hchars := joinPieces_slashPieces chars
  rw [hpieces] at hchars
  by_cases hfront : front = []
  · by_cases hback : back = []
    · subst hfront hback
      exact hne hchars.symm
    · rw [hfront, List.nil_append, joinPieces_cons hback] at hchars
      exact hfirst (hchars ▸ rfl)
  · rw [joinPieces_append hfront (List.cons_ne_nil _ _)] at hchars
    by_cases hback : back = []
    · rw [hback] at hchars
      exact hlast (hchars ▸ List.getLast?_concat)
    · rw [joinPieces_cons hback] at hchars
      exact hsingle ⟨joinPieces front, joinPieces back, by rw [← hchars]; simp⟩

/-- Whether a component is a name. -/
def Component.isName : Component → Bool
  | normal _ => true
  | _ => false

namespace Path

variable {rooted : Bool} {names : List String} {name : String} {p q : Path}

/-! ## Canonical texts -/

/-- A text that is written in the canonical way: slashes stand alone and not at the end, and
nothing between them is a dot, or two. -/
structure IsCanonical (q : Path) : Prop where
  nonempty : q.chars ≠ []
  single : ¬['/', '/'] <:+: q.chars
  closed : q.chars.getLast? ≠ some '/'
  undotted : ∀ piece ∈ slashPieces q.chars, piece ≠ ['.'] ∧ piece ≠ ['.', '.']

theorem text_ofNames (rooted : Bool) (names : List String) :
    (ofNames rooted names).text = (if rooted then "/" else "") ++ "/".intercalate names := by
  refine String.toList_inj.1 ?_
  rw [String.toList_append, String.toList_intercalate]
  change (ofNames rooted names).chars = _
  rw [chars_ofNames, joinPieces_eq_intercalate]
  cases rooted <;> rfl

theorem slashPieces_chars_ofNames (hne : names ≠ []) (h : ∀ n ∈ names, IsName n) :
    slashPieces (ofNames rooted names).chars =
      (if rooted then [[]] else []) ++ names.map String.toList := by
  rw [chars_ofNames]
  conv => rhs; rw [← slashPieces_names hne h]
  cases rooted <;> rfl

theorem isCanonical_ofNames (hne : names ≠ []) (h : ∀ n ∈ names, IsName n) :
    (ofNames rooted names).IsCanonical := by
  obtain ⟨before, last, hconcat⟩ := (List.eq_nil_or_concat names).resolve_left hne
  rw [List.concat_eq_append] at hconcat
  obtain ⟨c, hc, hslash⟩ := getLast?_ofNames rooted before
    (h last (hconcat ▸ List.mem_append_right before List.mem_cons_self))
  rw [← hconcat] at hc
  have hpieces : slashPieces (ofNames rooted names).chars =
      (if rooted then [[]] else []) ++ names.map String.toList := slashPieces_chars_ofNames hne h
  have hnonempty : ∀ piece ∈ names.map String.toList, piece ≠ [] := by
    intro piece hpiece
    obtain ⟨n, hn, rfl⟩ := List.mem_map.1 hpiece
    exact (h n hn).nonempty
  constructor
  · intro hnil
    rw [hnil] at hc
    cases hc
  · -- two slashes would leave an empty piece behind the first one
    rintro ⟨front, back, hdouble⟩
    rw [← hdouble, List.append_assoc, List.cons_append, List.cons_append, List.nil_append,
      slashPieces_append_slash, slashPieces, if_pos rfl] at hpieces
    obtain ⟨first, others, hfirst⟩ := List.exists_cons_of_ne_nil (slashPieces_ne_nil front)
    rw [hfirst] at hpieces
    have hmem : [] ∈ others ++ [] :: slashPieces back :=
      List.mem_append_right others List.mem_cons_self
    cases rooted with
    | true =>
      have hothers : others ++ [] :: slashPieces back = names.map String.toList :=
        (List.cons.inj hpieces).2
      exact hnonempty [] (hothers ▸ hmem) rfl
    | false =>
      have hall : first :: (others ++ [] :: slashPieces back) = names.map String.toList := hpieces
      exact hnonempty [] (hall ▸ List.mem_cons_of_mem first hmem) rfl
  · rw [hc]
    exact fun heq => hslash (Option.some.inj heq)
  · intro piece hpiece
    rw [hpieces] at hpiece
    rcases List.mem_append.1 hpiece with hpiece | hpiece
    · cases rooted with
      | true =>
        rw [List.mem_singleton.1 hpiece]
        exact ⟨(List.cons_ne_nil _ _).symm, (List.cons_ne_nil _ _).symm⟩
      | false => cases hpiece
    · obtain ⟨n, hn, rfl⟩ := List.mem_map.1 hpiece
      exact ⟨(h n hn).notDot, (h n hn).notDots⟩

/-- The pieces of a text, if they are names, make up the path of these names. -/
theorem eq_ofNames_of_chars {body : List Char}
    (hchars : q.chars = (if rooted then ['/'] else []) ++ body) (hne : [] ∉ slashPieces body)
    (hdots : ∀ piece ∈ slashPieces body, piece ≠ ['.'] ∧ piece ≠ ['.', '.']) :
    ∃ names, names ≠ [] ∧ (∀ n ∈ names, IsName n) ∧ q = ofNames rooted names := by
  have hback : ((slashPieces body).map String.ofList).map String.toList = slashPieces body := by
    rw [List.map_map]
    exact (List.map_congr_left fun piece _ => String.toList_ofList).trans (List.map_id' _)
  refine ⟨(slashPieces body).map String.ofList, ?_, ?_, ext_chars ?_⟩
  · exact fun hnil => slashPieces_ne_nil body (List.map_eq_nil_iff.1 hnil)
  · intro n hn
    obtain ⟨piece, hpiece, rfl⟩ := List.mem_map.1 hn
    constructor
    all_goals rw [String.toList_ofList]
    · exact fun hnil => hne (hnil ▸ hpiece)
    · exact not_mem_of_mem_slashPieces hpiece
    · exact (hdots piece hpiece).1
    · exact (hdots piece hpiece).2
  · rw [chars_ofNames, hback, joinPieces_slashPieces, hchars]

/-- The canonical texts are the paths of names. -/
theorem IsCanonical.exists_names (h : q.IsCanonical) :
    ∃ rooted names, names ≠ [] ∧ (∀ n ∈ names, IsName n) ∧ q = ofNames rooted names := by
  cases hchars : q.chars with
  | nil => exact absurd hchars h.nonempty
  | cons c rest =>
    have hsingle := h.single
    have hclosed := h.closed
    have hundotted := h.undotted
    rw [hchars] at hsingle hclosed hundotted
    by_cases hc : c = '/'
    · subst hc
      rw [slashPieces, if_pos rfl] at hundotted
      refine ⟨true, eq_ofNames_of_chars hchars (nil_not_mem_slashPieces ?_ ?_ ?_ ?_)
        fun piece hpiece => hundotted piece (List.mem_cons_of_mem _ hpiece)⟩
      · rintro rfl
        exact hclosed rfl
      · intro hfirst
        cases rest with
        | nil => cases hfirst
        | cons d rest =>
          cases hfirst
          exact hsingle ⟨[], rest, rfl⟩
      · intro hlast
        rw [List.getLast?_cons, hlast] at hclosed
        exact hclosed rfl
      · rintro ⟨front, back, hdouble⟩
        exact hsingle ⟨'/' :: front, back, congrArg ('/' :: ·) hdouble⟩
    · refine ⟨false, @eq_ofNames_of_chars _ _ (c :: rest) hchars (nil_not_mem_slashPieces
        (List.cons_ne_nil _ _) ?_ hclosed hsingle) hundotted⟩
      exact fun hfirst => hc (Option.some.inj hfirst)

theorem rootOf_append_injective {r r' : Bool} {names names' : List String}
    (h : rootOf r ++ names.map .normal = rootOf r' ++ names'.map .normal) :
    r = r' ∧ names = names' := by
  have hinjective : Function.Injective Component.normal := fun _ _ heq => Component.normal.inj heq
  have hroot : ∀ {l l' : List String},
      .root :: l.map Component.normal ≠ l'.map Component.normal := by
    intro l l' heq
    cases l' with
    | nil => cases heq
    | cons n l' => cases (List.cons.inj heq).1
  cases r <;> cases r'
  · exact ⟨rfl, List.map_injective_iff.2 hinjective h⟩
  · exact absurd h.symm hroot
  · exact absurd h hroot
  · exact ⟨rfl, List.map_injective_iff.2 hinjective (List.cons.inj h).2⟩

/-- There is one canonical text for some components. -/
theorem IsCanonical.eq_of_components (h : p.IsCanonical) (h' : q.IsCanonical)
    (hcomponents : p.components = q.components) : p = q := by
  obtain ⟨r, names, -, hnames, rfl⟩ := h.exists_names
  obtain ⟨r', names', -, hnames', rfl⟩ := h'.exists_names
  rw [components_ofNames hnames, components_ofNames hnames'] at hcomponents
  obtain ⟨rfl, rfl⟩ := rootOf_append_injective hcomponents
  rfl

/-! ## Climbing -/

/-- Somewhere two dots come when no name is left on the stack. -/
def Escapes (components : List Component) (names : List String) : Prop :=
  ∃ front back, components = front ++ .parent :: back ∧ front.foldlM enter? names = some []

theorem foldlM_enter?_eq_none_iff {components : List Component} :
    components.foldlM enter? names = none ↔ Escapes components names := by
  induction components generalizing names with
  | nil =>
    refine ⟨nofun, ?_⟩
    rintro ⟨front, back, hcomponents, -⟩
    exact absurd hcomponents.symm (List.append_ne_nil_of_right_ne_nil _ (List.cons_ne_nil _ _))
  | cons c components ih =>
    rw [List.foldlM_cons]
    constructor
    · intro h
      cases henter : enter? names c with
      | none =>
        -- nothing but two dots is stuck, and only on an empty stack
        cases c with
        | parent =>
          simp only [enter?, ite_eq_left_iff, reduceCtorEq, imp_false, not_not] at henter
          exact ⟨[], components, rfl, congrArg some henter⟩
        | _ => cases henter
      | some next =>
        rw [henter] at h
        obtain ⟨front, back, rfl, hfront⟩ := ih.1 h
        refine ⟨c :: front, back, rfl, ?_⟩
        rw [List.foldlM_cons, henter]
        exact hfront
    · rintro ⟨front, back, hcomponents, hfront⟩
      cases front with
      | nil =>
        cases hfront
        rw [(List.cons.inj hcomponents).1]
        rfl
      | cons d front =>
        obtain ⟨rfl, rfl⟩ := List.cons.inj hcomponents
        rw [List.foldlM_cons] at hfront
        cases henter : enter? names c with
        | none => rfl
        | some next =>
          rw [henter] at hfront
          exact ih.2 ⟨front, back, rfl, hfront⟩

/-- A path never climbs above where it starts: wherever it has come to, it has entered at least as
many names as it has left. -/
def StaysBelow (p : Path) : Prop :=
  ∀ front, front <+: p.components → front.count .parent ≤ front.countP Component.isName

/-- Components that leave no more names than there are and are entered do so on a longer stack too,
and do not touch what is below. -/
theorem foldlM_enter?_below {components : List Component} {bottom : List String}
    (hroot : .root ∉ components)
    (h : ∀ front, front <+: components →
      front.count .parent ≤ names.length + front.countP Component.isName) :
    ∃ rest, components.foldlM enter? (bottom ++ names) = some (bottom ++ rest) := by
  induction components generalizing names with
  | nil => exact ⟨names, rfl⟩
  | cons c components ih =>
    have hroot' : .root ∉ components := fun hmem => hroot (List.mem_cons_of_mem c hmem)
    have hfront : ∀ front, front <+: components → (c :: front).count .parent ≤
        names.length + (c :: front).countP Component.isName := fun front hfrom =>
      h (c :: front) ((List.cons_prefix_cons).2 ⟨rfl, hfrom⟩)
    rw [List.foldlM_cons]
    cases c with
    | root => exact absurd List.mem_cons_self hroot
    | current =>
      refine ih hroot' fun front hfrom => ?_
      simpa [Component.isName] using hfront front hfrom
    | parent =>
      have hone := hfront [] List.nil_prefix
      have hlength : 1 ≤ names.length := by simpa [Component.isName] using hone
      have hne : names ≠ [] := List.ne_nil_of_length_pos hlength
      have henter : enter? (bottom ++ names) .parent = some (bottom ++ names.dropLast) := by
        rw [enter?, if_neg (List.append_ne_nil_of_right_ne_nil _ hne),
          List.dropLast_append_of_ne_nil hne]
      rw [henter]
      refine ih hroot' fun front hfrom => ?_
      have hcount := hfront front hfrom
      simp only [List.count_cons_self, List.countP_cons, Component.isName, Bool.false_eq_true,
        if_false, List.length_dropLast] at hcount ⊢
      omega
    | normal name =>
      have henter : enter? (bottom ++ names) (.normal name) =
          some (bottom ++ (names ++ [name])) := by
        rw [enter?, List.append_assoc]
      rw [henter]
      refine ih hroot' fun front hfrom => ?_
      have hcount := hfront front hfrom
      simp only [List.countP_cons, Component.isName, if_true, List.length_append,
        List.length_singleton, ne_eq, reduceCtorEq, not_false_eq_true, List.count_cons_of_ne]
        at hcount ⊢
      omega

/-! ## Paths under another path -/

/-- The components that the pieces of a text are. -/
def pieceComponents (chars : List Char) : List Component :=
  (slashPieces chars).filterMap componentOf?

theorem pieceComponents_append_slash (front rest : List Char) :
    pieceComponents (front ++ '/' :: rest) = pieceComponents front ++ pieceComponents rest := by
  rw [pieceComponents, slashPieces_append_slash, List.filterMap_append]
  rfl

theorem components_of_chars {body : List Char} (h : p.chars = '/' :: body) :
    p.components = .root :: pieceComponents body := by
  rw [components, split_of_chars h]
  rfl

theorem exists_body (h : p.isAbsolute = true) : ∃ body, p.chars = '/' :: body := by
  unfold isAbsolute at h
  cases hchars : p.chars with
  | nil =>
    rw [hchars] at h
    cases h
  | cons c body =>
    rw [hchars] at h
    have hc : c = '/' := by simpa using h
    exact ⟨body, by rw [hc]⟩

/-- The dot that a relative path may start with leads nowhere. -/
theorem foldlM_relative (h : q.isAbsolute = false) (names : List String) :
    q.components.foldlM enter? names = (pieceComponents q.chars).foldlM enter? names := by
  have hroot : ∀ rest, q.chars ≠ '/' :: rest := by
    intro rest hchars
    rw [isAbsolute, hchars] at h
    cases h
  by_cases hdot : q.chars = ['.']
  · have hsplit : q.split = (.current, []) := by
      unfold split
      rw [hdot]
      rfl
    rw [components, hsplit, hdot]
    rfl
  · by_cases hcurrent : ∃ rest, q.chars = '.' :: '/' :: rest
    · obtain ⟨rest, hrest⟩ := hcurrent
      have hsplit : q.split = (.current, '/' :: rest) := by
        unfold split
        rw [hrest]
        rfl
      rw [components, hsplit, hrest]
      rfl
    · rw [components, split_eq_none hroot hdot fun rest hrest => hcurrent ⟨rest, hrest⟩]
      rfl

theorem chars_append_slash (base q : Path) :
    (⟨base.text ++ "/" ++ q.text⟩ : Path).chars = base.chars ++ '/' :: q.chars := by
  simp [chars]

/-- A path that is hung under an absolute one starts at the root too, and its pieces come behind
those of that one. -/
theorem chars_join {base : Path} {body : List Char} (hbody : base.chars = '/' :: body)
    (hq : q.isAbsolute = false) : ∃ text, (base.join q).chars = '/' :: text ∧
      pieceComponents text = pieceComponents body ++ pieceComponents q.chars := by
  rw [join, if_neg (by rw [hq]; exact Bool.false_ne_true), hbody, List.isEmpty_cons, Bool.false_or]
  split
  · next hslash =>
    -- the slash at the end of the base is the one before the path
    have happend : (⟨base.text ++ q.text⟩ : Path).chars = '/' :: (body ++ q.chars) := by
      have htext : base.text.toList = '/' :: body := hbody
      simp [chars, htext]
    refine ⟨body ++ q.chars, happend, ?_⟩
    rcases List.eq_nil_or_concat body with rfl | ⟨front, last, rfl⟩
    · rfl
    · have hlast : last = '/' := by
        rw [List.concat_eq_append, ← List.cons_append, List.getLast?_concat] at hslash
        simpa using hslash
      rw [List.concat_eq_append, hlast, List.append_assoc, List.singleton_append,
        pieceComponents_append_slash, pieceComponents_append_slash, List.append_assoc]
      rfl
  · refine ⟨body ++ '/' :: q.chars, ?_, pieceComponents_append_slash _ _⟩
    rw [chars_append_slash, hbody, List.cons_append]

theorem isAbsolute_join {base : Path} (hbase : base.isAbsolute = true) (hq : q.isAbsolute = false) :
    (base.join q).isAbsolute = true := by
  obtain ⟨body, hbody⟩ := exists_body hbase
  obtain ⟨text, htext, -⟩ := chars_join hbody hq
  rw [isAbsolute, htext]
  rfl

theorem components_join {base : Path} (hbase : base.isAbsolute = true) (hq : q.isAbsolute = false) :
    (base.join q).components = base.components ++ pieceComponents q.chars := by
  obtain ⟨body, hbody⟩ := exists_body hbase
  obtain ⟨text, htext, hpieces⟩ := chars_join hbody hq
  rw [components_of_chars htext, components_of_chars hbody, hpieces, List.cons_append]

/-- A path that is hung under another one goes on where that one has come to. -/
theorem stack?_join {base : Path} (hbase : base.isAbsolute = true) (hq : q.isAbsolute = false) :
    (base.join q).stack? = base.stack?.bind fun names => q.components.foldlM enter? names := by
  rw [stack?, components_join hbase hq, List.foldlM_append]
  cases hstack : base.stack? with
  | none => rw [show base.components.foldlM enter? [] = none from hstack]; rfl
  | some names =>
    rw [show base.components.foldlM enter? [] = some names from hstack, Option.bind_some,
      foldlM_relative hq]
    rfl

/-! ## Normal forms -/

/-- The normal form of a path that leaves some names on the stack. It is the one canonical text for
its components. -/
structure Written (p place : Path) (names : List String) : Prop where
  absolute : place.isAbsolute = p.isAbsolute
  components : place.components = (if p.isAbsolute then [.root] else []) ++ names.map .normal
  text : place.text = (if p.isAbsolute then "/" else "") ++ "/".intercalate names
  canonical : place.IsCanonical
  unique : ∀ q, q.IsCanonical → q.components = place.components → q = place
  stable : place.normal = .ok place

/-- What becomes of a relative path that is hung under an absolute one: its components are followed
on the stack that the base has left. If it never climbs above where it starts, it is not stuck, and
what the base has left stays on the stack. -/
structure Hung (base p : Path) : Prop where
  normal_iff : ∀ place, (base.join p).normal = .ok place ↔ ∃ start names,
    base.stack? = some start ∧ p.components.foldlM enter? start = some names ∧ names ≠ [] ∧
      place = ofNames true names
  below : p.StaysBelow → ∀ start, base.stack? = some start →
    ∃ rest, p.components.foldlM enter? start = some (start ++ rest)
  keeps : p.StaysBelow → ∀ n place, base.normal = .ok n → (base.join p).normal = .ok place →
    n.components <+: place.components

theorem written_of_normal {place : Path} (h : p.normal = .ok place) :
    ∃ names, p.stack? = some names ∧ names ≠ [] ∧ Written p place names := by
  obtain ⟨names, hstack, hne, rfl⟩ := normal_eq_ok_iff.1 h
  have hnames := isName_of_mem_stack hstack
  have hcanonical : (ofNames p.isAbsolute names).IsCanonical := isCanonical_ofNames hne hnames
  refine ⟨names, hstack, hne, isAbsolute_ofNames hnames, ?_, text_ofNames _ _, hcanonical,
    fun q hq hcomponents => hq.eq_of_components hcanonical hcomponents,
    normal_ofNames hnames hne⟩
  rw [components_ofNames hnames]
  cases p.isAbsolute <;> rfl

theorem fails_iff : (∃ fault, p.normal = .error fault) ↔
    Escapes p.components [] ∨ p.stack? = some [] := by
  rw [← foldlM_enter?_eq_none_iff]
  change _ ↔ p.stack? = none ∨ _
  constructor
  · rintro ⟨fault, hfault⟩
    cases hstack : p.stack? with
    | none => exact .inl rfl
    | some names =>
      refine .inr (congrArg some (not_not.1 fun hne => ?_))
      rw [normal_of_stack hstack hne] at hfault
      cases hfault
  · rintro (hnone | hnil)
    · exact ⟨_, normal_of_stack_none hnone⟩
    · exact ⟨_, normal_of_stack_nil hnil⟩

theorem StaysBelow.foldlM (h : p.StaysBelow) (hp : p.isAbsolute = false) (start : List String) :
    ∃ rest, p.components.foldlM enter? start = some (start ++ rest) := by
  obtain ⟨components, hcomponents, hroot⟩ := p.components_eq
  rw [hp] at hcomponents
  have hfront : ∀ front, front <+: p.components →
      front.count .parent ≤ ([] : List String).length + front.countP Component.isName :=
    fun front hfrom => by simpa using h front hfrom
  have hbelow : ∃ rest, p.components.foldlM enter? (start ++ []) = some (start ++ rest) :=
    foldlM_enter?_below (hcomponents ▸ hroot) hfront
  rwa [List.append_nil] at hbelow

theorem hung_of_relative {base : Path} (hbase : base.isAbsolute = true)
    (hp : p.isAbsolute = false) : Hung base p := by
  have hnormal : ∀ place, (base.join p).normal = .ok place ↔ ∃ start names,
      base.stack? = some start ∧ p.components.foldlM enter? start = some names ∧ names ≠ [] ∧
        place = ofNames true names := by
    intro place
    rw [normal_eq_ok_iff, stack?_join hbase hp, isAbsolute_join hbase hp]
    simp only [Option.bind_eq_some_iff]
    constructor
    · rintro ⟨names, ⟨start, hstart, hnames⟩, hne, rfl⟩
      exact ⟨start, names, hstart, hnames, hne, rfl⟩
    · rintro ⟨start, names, hstart, hnames, hne, rfl⟩
      exact ⟨names, ⟨start, hstart, hnames⟩, hne, rfl⟩
  refine ⟨hnormal, fun hbelow start _ => hbelow.foldlM hp start, ?_⟩
  intro hbelow n place hn hplace
  obtain ⟨names, hnames, -, rfl⟩ := normal_eq_ok_iff.1 hn
  obtain ⟨start, all, hstart, hall, -, rfl⟩ := (hnormal place).1 hplace
  obtain ⟨rest, hrest⟩ := hbelow.foldlM hp start
  rw [hnames] at hstart
  cases hstart
  rw [hall] at hrest
  cases hrest
  -- the names of the base are found among all names, and all of them are names
  have hisName : ∀ m ∈ names ++ rest, IsName m := by
    have hjoin : (base.join p).stack? = some (names ++ rest) := by
      rw [stack?_join hbase hp, hnames]
      exact hall
    exact isName_of_mem_stack hjoin
  rw [hbase, components_ofNames hisName,
    components_ofNames fun m hm => hisName m (List.mem_append_left rest hm), List.map_append,
    ← List.append_assoc]
  exact List.prefix_append _ _

/-- **Normal forms.** A path has no normal form exactly if its components lead above an empty stack
of names, or leave nothing on it. Otherwise the normal form is the canonical text of the names that
are left, from the root if the path is. A relative path under an absolute one goes on where that one
has come to, and stays below it if it never climbs above where it starts. -/
theorem normal_exact (base p : Path) :
    ((∃ fault, p.normal = .error fault) ↔ Escapes p.components [] ∨ p.stack? = some []) ∧
    (∀ place, p.normal = .ok place →
      ∃ names, p.stack? = some names ∧ names ≠ [] ∧ Written p place names) ∧
    (base.isAbsolute = true → p.isAbsolute = false → Hung base p) :=
  ⟨fails_iff, fun _ => written_of_normal, hung_of_relative⟩

/-- A path that climbs, but not above its base. -/
theorem normal_exact_nested :
    (⟨"/srv//data/."⟩ : Path).isAbsolute = true ∧ (⟨"./in/../out//x/"⟩ : Path).isAbsolute = false ∧
      (⟨"./in/../out//x/"⟩ : Path).normal = .ok ⟨"out/x"⟩ ∧
      Written ⟨"./in/../out//x/"⟩ ⟨"out/x"⟩ ["out", "x"] ∧
      ((⟨"/srv//data/."⟩ : Path).join ⟨"./in/../out//x/"⟩).normal = .ok ⟨"/srv/data/out/x"⟩ := by
  obtain ⟨-, hnormal, hhung⟩ := normal_exact ⟨"/srv//data/."⟩ ⟨"./in/../out//x/"⟩
  have hok : (⟨"./in/../out//x/"⟩ : Path).normal = .ok ⟨"out/x"⟩ := by decide +kernel
  obtain ⟨names, hnames, -, hwritten⟩ := hnormal _ hok
  have hstack : (⟨"./in/../out//x/"⟩ : Path).stack? = some ["out", "x"] := by decide +kernel
  rw [hstack] at hnames
  cases hnames
  have hjoined := (hhung (by decide +kernel) (by decide +kernel)).normal_iff ⟨"/srv/data/out/x"⟩
  exact ⟨by decide +kernel, by decide +kernel, hok, hwritten, hjoined.2
    ⟨["srv", "data"], ["srv", "data", "out", "x"], by decide +kernel, by decide +kernel, nofun,
      by decide +kernel⟩⟩

end Path

end FileGateway

import FileGateway.Disk.Volume
import FileGateway.Proofs.Path.Names
import Mathlib.Logic.Function.Basic

/-!
# Plain trees

A tree of directories and files, without links and devices. On such a tree a walk leads where the
names of the path say, whatever is to be done there, and it gets there if every directory on the way
is there (`Finds.walk`). What is put at a place or taken away from it is seen there and nowhere else
(`node?_put`, `node?_erase`), so a tree is a map from places to what is there.
-/

namespace FileGateway

namespace FileTree

theorem node?_of_ne_nil (t : FileTree) {place : Place} (hne : place ≠ []) :
    t.node? place = t.entries.lookup place := by
  cases place with
  | nil => exact absurd rfl hne
  | cons name rest => rfl

theorem lookup_filter_ne (entries : List (Place × Node)) (place other : Place) :
    (entries.filter fun entry => entry.1 ≠ place).lookup other =
      if other = place then none else entries.lookup other := by
  induction entries with
  | nil => simp
  | cons entry entries ih =>
    obtain ⟨p, node⟩ := entry
    rw [List.filter_cons, List.lookup_cons]
    by_cases hp : p = place
    · subst hp
      rw [if_neg (by simp), ih]
      by_cases hother : other = p
      · simp [hother]
      · have hbeq : (other == p) = false := by simpa using hother
        simp [hother, hbeq]
    · rw [if_pos (by simpa using hp), List.lookup_cons, ih]
      by_cases hother : other = p
      · subst hother
        simp [hp]
      · have hbeq : (other == p) = false := by simpa using hother
        simp [hbeq]

/-- What is taken away is gone, and everything else is as it was. -/
theorem node?_erase (t : FileTree) {place : Place} (hne : place ≠ []) :
    (t.erase place).node? = Function.update t.node? place none := by
  funext other
  by_cases hother : other = []
  · subst hother
    rw [Function.update_of_ne (Ne.symm hne)]
    rfl
  · rw [node?_of_ne_nil _ hother, erase, lookup_filter_ne, Function.update_apply,
      node?_of_ne_nil _ hother]

/-- What is put somewhere is there, and everything else is as it was. -/
theorem node?_put (t : FileTree) {place : Place} (hne : place ≠ []) (node : Node) :
    (t.put place node).node? = Function.update t.node? place (some node) := by
  funext other
  by_cases hother : other = []
  · subst hother
    rw [Function.update_of_ne (Ne.symm hne)]
    rfl
  · rw [node?_of_ne_nil _ hother, put, List.lookup_cons, erase, lookup_filter_ne,
      Function.update_apply, node?_of_ne_nil _ hother]
    by_cases hplace : other = place
    · simp [hplace]
    · have hbeq : (other == place) = false := by simpa using hplace
      simp [hplace, hbeq]

/-- The root stays a directory, whatever is put there. -/
theorem node?_put_nil (t : FileTree) (node : Node) : (t.put [] node).node? = t.node? := by
  funext other
  by_cases hother : other = []
  · rw [hother]
    rfl
  · have hbeq : (other == []) = false := by simpa using hother
    rw [node?_of_ne_nil _ hother, put, List.lookup_cons, hbeq, erase, lookup_filter_ne,
      if_neg hother, node?_of_ne_nil _ hother]

theorem node?_erase_nil (t : FileTree) : (t.erase []).node? = t.node? := by
  funext other
  by_cases hother : other = []
  · rw [hother]
    rfl
  · rw [node?_of_ne_nil _ hother, erase, lookup_filter_ne, if_neg hother, node?_of_ne_nil _ hother]

/-- What is put twice at one place is put once. -/
theorem put_put (t : FileTree) (place : Place) (first second : Node) :
    (t.put place first).put place second = t.put place second := by
  simp [put, erase, List.filter_filter]

/-! ## Files and directories -/

/-- Whether there is nothing but files and directories. -/
def Plain (t : FileTree) : Prop :=
  ∀ place node, t.node? place = some node → node = .directory ∨ ∃ content, node = .file content

variable {t : FileTree}

theorem plain_empty : empty.Plain := by
  intro place node hnode
  cases place with
  | nil => exact .inl (Option.some.inj hnode).symm
  | cons name rest => cases hnode

theorem Plain.put_file (h : t.Plain) (place : Place) (content : Bytes) :
    (t.put place (.file content)).Plain := by
  intro other node hnode
  by_cases hne : place = []
  · rw [hne, node?_put_nil] at hnode
    exact h other node hnode
  · rw [node?_put t hne, Function.update_apply] at hnode
    split at hnode
    · cases hnode
      exact .inr ⟨content, rfl⟩
    · exact h other node hnode

theorem Plain.erase (h : t.Plain) (place : Place) : (t.erase place).Plain := by
  intro other node hnode
  by_cases hne : place = []
  · rw [hne, node?_erase_nil] at hnode
    exact h other node hnode
  · rw [node?_erase t hne, Function.update_apply] at hnode
    split at hnode
    · cases hnode
    · exact h other node hnode

/-! ## Walks -/

variable {last : LastName} {here : Place} {slashed : Bool} {name next : String}
  {rest : List String}

theorem entry?_of_short (h : name.utf8ByteSize ≤ maxNameSize) :
    t.entry? here name = .ok (t.node? (here ++ [name])) :=
  if_neg (Nat.not_lt.2 h)

theorem entry?_of_long (h : maxNameSize < name.utf8ByteSize) :
    t.entry? here name = .error .nameTooLong :=
  if_pos h

theorem stage_singleton (h : IsName name) :
    t.stage last here slashed [name] = t.atLast last here name slashed := by
  unfold stage
  split
  · next heq => cases heq
  · next heq => cases heq; exact absurd rfl h.ne_dot
  · next heq => cases heq; exact absurd rfl h.ne_dots
  · next heq => cases heq; rfl
  · next hne heq => cases heq; exact absurd rfl hne

/-- What is made of what is there under a name on the way. -/
def pass (t : FileTree) (last : LastName) (here : Place) (slashed : Bool) (name : String)
    (rest : List String) : Option Node → SystemResult (Spot ⊕ Way)
  | none => .error .noEntry
  | some .directory => t.stage last (here ++ [name]) slashed rest
  | some (.link target) => .ok (.inr (.detour here target rest slashed))
  | some _ => .error .notDirectory

theorem stage_cons_cons (h : IsName name) :
    t.stage last here slashed (name :: next :: rest) =
      t.entry? here name >>= t.pass last here slashed name (next :: rest) := by
  conv => lhs; unfold stage
  split
  · next heq => cases heq
  · next heq => cases heq; exact absurd rfl h.ne_dot
  · next heq => cases heq; exact absurd rfl h.ne_dots
  · next heq => cases heq
  · next heq =>
    cases heq
    refine bind_congr fun node => ?_
    cases node with
    | none => rfl
    | some node => cases node <;> rfl

theorem atLast_of_plain (h : t.Plain) (hslash : (last = .create && slashed) = false) :
    t.atLast last here name slashed =
      (t.entry? here name).map fun node => .inl ⟨here ++ [name], node, slashed⟩ := by
  rw [atLast, hslash, if_neg Bool.false_ne_true]
  by_cases hlong : name.utf8ByteSize > maxNameSize
  · rw [entry?_of_long hlong]
    rfl
  · rw [entry?_of_short (Nat.not_lt.1 hlong)]
    cases hnode : t.node? (here ++ [name]) with
    | none => rfl
    | some node =>
      rcases h _ node hnode with rfl | ⟨content, rfl⟩ <;> rfl

/-- The way is open: every directory before the end of the pieces is there. -/
def Open (t : FileTree) (here : Place) (pieces : List String) : Prop :=
  ∀ front rest, pieces = front ++ rest → rest ≠ [] → t.node? (here ++ front) = some .directory

theorem Open.tail (h : t.Open here (name :: rest)) : t.Open (here ++ [name]) rest := by
  intro front back hrest hne
  rw [List.append_assoc]
  exact h (name :: front) back (by rw [hrest]; rfl) hne

/-- The way to a name is open if that through its directory is. -/
theorem Open.concat {before : Place}
    (h : ∀ front rest, before = front ++ rest → t.node? front = some .directory) :
    t.Open [] (before ++ [name]) := by
  intro front rest heq hne
  rcases List.eq_nil_or_concat rest with hnil | ⟨middle, last, hconcat⟩
  · exact absurd hnil hne
  · rw [hconcat, List.concat_eq_append, ← List.append_assoc] at heq
    exact h front middle (List.append_inj' heq rfl).1

/-- A walk over an open way gets to its end, unless a name is too long. -/
theorem stage_of_open (h : t.Plain) {pieces : List String} (hne : pieces ≠ [])
    (hnames : ∀ n ∈ pieces, IsName n) (hopen : t.Open here pieces) :
    t.stage last here false pieces =
      if pieces.any fun n => n.utf8ByteSize > maxNameSize then .error .nameTooLong
      else .ok (.inl ⟨here ++ pieces, t.node? (here ++ pieces), false⟩) := by
  induction pieces generalizing here with
  | nil => exact absurd rfl hne
  | cons name rest ih =>
    have hname := hnames name List.mem_cons_self
    rw [List.any_cons]
    cases rest with
    | nil =>
      rw [stage_singleton hname, atLast_of_plain h (Bool.and_false _)]
      by_cases hlong : name.utf8ByteSize > maxNameSize
      · rw [entry?_of_long hlong, decide_eq_true hlong]
        rfl
      · rw [entry?_of_short (Nat.not_lt.1 hlong), decide_eq_false hlong]
        rfl
    | cons next rest =>
      rw [stage_cons_cons hname]
      by_cases hlong : name.utf8ByteSize > maxNameSize
      · rw [entry?_of_long hlong, decide_eq_true hlong]
        rfl
      · have hnode : t.node? (here ++ [name]) = some .directory :=
          hopen [name] (next :: rest) rfl (List.cons_ne_nil _ _)
        rw [entry?_of_short (Nat.not_lt.1 hlong), hnode, decide_eq_false hlong, Bool.false_or]
        have hrest := ih (List.cons_ne_nil _ _) (fun n hn => hnames n (List.mem_cons_of_mem _ hn))
          hopen.tail
        rw [List.append_assoc] at hrest
        exact hrest

/-- A walk meets no link, and if it gets to a directory it has passed nothing but directories. -/
theorem directories_of_stage (h : t.Plain) {pieces : List String} {r : Spot ⊕ Way}
    (hnames : ∀ n ∈ pieces, IsName n) (hhere : t.node? here = some .directory)
    (hstage : t.stage .follow here slashed pieces = .ok r) :
    ∃ spot, r = .inl spot ∧ (spot.node = some .directory →
      ∀ front rest, pieces = front ++ rest → t.node? (here ++ front) = some .directory) := by
  have hstart : t.node? (here ++ []) = some .directory := by rwa [List.append_nil]
  induction pieces generalizing here with
  | nil =>
    cases hstage
    refine ⟨_, rfl, fun _ front rest heq => ?_⟩
    rw [(List.append_eq_nil_iff.1 heq.symm).1]
    exact hstart
  | cons name rest ih =>
    have hname := hnames name List.mem_cons_self
    have hentry : ∀ (k : Option Node → SystemResult (Spot ⊕ Way)),
        (t.entry? here name >>= k) = .ok r → k (t.node? (here ++ [name])) = .ok r := by
      intro k hk
      by_cases hlong : name.utf8ByteSize > maxNameSize
      · rw [entry?_of_long hlong] at hk
        cases hk
      · rwa [entry?_of_short (Nat.not_lt.1 hlong)] at hk
    cases rest with
    | nil =>
      rw [stage_singleton hname, atLast_of_plain h rfl] at hstage
      cases hentry (fun node => .ok (.inl ⟨here ++ [name], node, slashed⟩)) hstage
      refine ⟨_, rfl, fun hnode front rest heq => ?_⟩
      rcases List.singleton_eq_append_iff.1 heq with ⟨rfl, -⟩ | ⟨rfl, -⟩
      · exact hstart
      · exact hnode
    | cons next rest =>
      rw [stage_cons_cons hname] at hstage
      have hpass := hentry _ hstage
      cases hnode : t.node? (here ++ [name]) with
      | none =>
        rw [hnode] at hpass
        cases hpass
      | some node =>
        rw [hnode] at hpass
        rcases h _ node hnode with rfl | ⟨content, rfl⟩
        · obtain ⟨spot, rfl, hspot⟩ := ih (fun n hn => hnames n (List.mem_cons_of_mem _ hn)) hnode
            hpass (by rwa [List.append_nil])
          refine ⟨spot, rfl, fun hdirectory front back heq => ?_⟩
          rcases List.cons_eq_append_iff.1 heq with ⟨rfl, -⟩ | ⟨front, rfl, hback⟩
          · exact hstart
          · have hfront := hspot hdirectory front back hback
            rwa [List.append_assoc] at hfront
        · cases hpass

/-! ## Paths of names -/

/-- What keeps the system from looking for the path of some names at all, or for one of the
names. -/
def barred? (names : Place) : Option SystemError :=
  let p := Path.ofNames true names
  if p.chars.contains '\x00' then some .nullInPath
  else if p.text.utf8ByteSize ≥ maxPathSize then some .nameTooLong
  else if names.any fun n => n.utf8ByteSize > maxNameSize then some .nameTooLong
  else none

theorem pieces_ofPath {names : Place} (hnames : ∀ n ∈ names, IsName n) :
    (Way.ofPath here (.ofNames true names)).pieces = names := by
  have hfilter : (names.map String.toList).filter (fun piece => !piece.isEmpty) =
      names.map String.toList := by
    refine List.filter_eq_self.2 fun piece hpiece => ?_
    obtain ⟨n, hn, rfl⟩ := List.mem_map.1 hpiece
    simp [(hnames n hn).nonempty]
  have hlist : (names.map String.toList).map String.ofList = names := by
    simp
  have hslash : slashPieces (Path.ofNames true names).chars =
      [] :: slashPieces (joinPieces (names.map String.toList)) := by
    rw [Path.chars_ofNames]
    rfl
  rw [Way.ofPath, hslash]
  by_cases hne : names = []
  · rw [hne]
    rfl
  · rw [Path.slashPieces_names hne hnames, List.filter_cons]
    simp only [List.isEmpty_nil, Bool.not_true, Bool.false_eq_true, if_false]
    rw [hfilter, hlist]

theorem ofPath_ofNames {names : Place} (hne : names ≠ []) (hnames : ∀ n ∈ names, IsName n) :
    Way.ofPath here (.ofNames true names) = ⟨[], names, false⟩ := by
  have hslashed : ((Path.ofNames true names).chars.getLast? == some '/') = false := by
    rcases List.eq_nil_or_concat names with heq | ⟨before, name, hconcat⟩
    · exact absurd heq hne
    · rw [List.concat_eq_append] at hconcat
      subst hconcat
      obtain ⟨c, hc, hslash⟩ := Path.getLast?_ofNames true before (hnames name (by simp))
      rw [hc]
      simpa using hslash
  have hhere : (Way.ofPath here (.ofNames true names)).here = [] :=
    if_pos (Path.isAbsolute_ofNames hnames)
  have hpieces : (Way.ofPath here (.ofNames true names)).pieces = names := pieces_ofPath hnames
  cases hway : Way.ofPath here (.ofNames true names) with
  | mk start pieces slashed =>
    rw [hway] at hhere hpieces
    cases hhere
    cases hpieces
    exact congrArg (Way.mk [] pieces) ((congrArg Way.slashed hway).symm.trans hslashed)

/-- A walk over an open way from the root gets to its end, unless the path is barred. -/
theorem walk_of_open (h : t.Plain) {names : Place} (hne : names ≠ [])
    (hnames : ∀ n ∈ names, IsName n) (hopen : t.Open [] names) :
    t.walk last here (.ofNames true names) =
      (barred? names).elim (.ok ⟨names, t.node? names, false⟩) .error := by
  have hway : Way.ofPath here (.ofNames true names) = _ := ofPath_ofNames hne hnames
  have hstage : t.stage last [] false names = _ := stage_of_open h hne hnames hopen
  have hchars : (Path.ofNames true names).chars.isEmpty = false := by
    rw [Path.chars_ofNames]
    rfl
  rw [walk, barred?]
  split
  · rfl
  rw [hchars, if_neg Bool.false_ne_true]
  split
  · rfl
  rw [hway, walkWay, hstage]
  split <;> rfl

/-- If the path of some names leads to a directory, the way through it is open. -/
theorem directories_of_walk (h : t.Plain) {names : Place} (hnames : ∀ n ∈ names, IsName n)
    {spot : Spot} (hwalk : t.walk .follow here (.ofNames true names) = .ok spot)
    (hspot : spot.node = some .directory) :
    ∀ front rest, names = front ++ rest → t.node? front = some .directory := by
  have hhere : (Way.ofPath here (.ofNames true names)).here = [] :=
    if_pos (Path.isAbsolute_ofNames hnames)
  unfold walk at hwalk
  split at hwalk
  · cases hwalk
  split at hwalk
  · cases hwalk
  split at hwalk
  · cases hwalk
  rw [walkWay, pieces_ofPath hnames, hhere] at hwalk
  cases hstage : t.stage .follow [] (Way.ofPath here (.ofNames true names)).slashed names with
  | error e =>
    rw [hstage] at hwalk
    cases hwalk
  | ok r =>
    obtain ⟨found, rfl, hfound⟩ := directories_of_stage h hnames rfl hstage
    rw [hstage] at hwalk
    cases hwalk
    exact hfound hspot

end FileTree

end FileGateway

import FileGateway.Connection.Decode
import FileGateway.Proofs.Json.Printed

/-!
# Configurations described by an object

A configuration can be described by many JSON objects: the fields may stand in any order, those that
have a default may be left out if they have it, and every text may be spelled in its own way
(`ConnectionConfig.DescribedBy`). All of them are decoded as the one configuration, and an object
that names a field twice, or one that there is not, is refused wherever this stands
(`ConnectionConfig.decode_described`).

A draft of a record holds the values of the fields that were read (`Json.held`), whatever their
order was. So the members of an object are gone through by induction
(`RecordForm.ofMembers_given`), with one case for each field.
-/

namespace FileGateway

open Json

namespace Json

variable {α : Type}

/-! ## Leaves -/

/-- A value is the string of a text, whichever way its characters are written. -/
def IsText (tree : Tree) (text : String) : Prop :=
  ∃ raw, tree = .string raw ∧ Written text.toList raw

/-- A value is the number of a natural number. -/
def IsNatural (tree : Tree) (n : Nat) : Prop :=
  tree = .number (.ofNat n)

/-- An optional value is given as `null` if there is none. -/
inductive IsOptional (gives : Tree → α → Prop) : Tree → Option α → Prop where
  | absent : IsOptional gives .null none
  | present {tree : Tree} {a : α} (h : gives tree a) : IsOptional gives tree (some a)

theorem isText_tree (text : String) : IsText (Value.string text).tree text :=
  ⟨_, rfl, written_escaped text.toList⟩

theorem IsText.text {tree : Tree} {text : String} (h : IsText tree text) (expected : String) :
    tree.text expected = .ok text := by
  obtain ⟨raw, rfl, hraw⟩ := h
  exact textOf_written hraw

theorem IsText.keyText {tree : Tree} {text : String} (h : IsText tree text) :
    tree.keyText = .ok text := by
  obtain ⟨raw, rfl, hraw⟩ := h
  exact textOf_written hraw

theorem IsText.variant {tree : Tree} {name : String} {known : List (String × α)} {a : α}
    (h : IsText tree name) (hknown : known.lookup name = some a) : tree.variant known = .ok a := by
  obtain ⟨raw, rfl, hraw⟩ := h
  rw [Tree.variant, textOf_written hraw]
  change Tree.variant.pick known name = _
  rw [Tree.variant.pick, hknown]

theorem IsOptional.decode {gives : Tree → α → Prop} {decode : Tree → Decoded α} {tree : Tree}
    {value : Option α} (h : IsOptional gives tree value) (hnull : ∀ a, ¬gives .null a)
    (hdecode : ∀ {tree a}, gives tree a → decode tree = .ok a) :
    tree.optional decode = .ok value := by
  cases h with
  | absent => rfl
  | @present _ a h =>
    rw [Tree.optional]
    · rw [hdecode h]
      rfl
    · rintro rfl
      exact hnull a h

theorem not_isText_null (text : String) : ¬IsText .null text := by
  rintro ⟨raw, hnull, -⟩
  cases hnull

/-! ## Records -/

/-- The members of an object give fields of a record, none of them twice. -/
inductive Given (gives : String → Tree → Prop) : List String → List (Tree × Tree) → Prop where
  | nil : Given gives [] []
  | cons {name : String} {names : List String} {key value : Tree} {members : List (Tree × Tree)}
    (named : IsText key name) (field : gives name value) (fresh : name ∉ names)
    (tail : Given gives names members) : Given gives (name :: names) ((key, value) :: members)

/-- The members of an object describe a record: they give fields of it, none of them twice, and
leave out only what may be left out. -/
def Described (gives : String → Tree → Prop) (leavesOut : List String → Prop)
    (members : List (Tree × Tree)) : Prop :=
  ∃ names, Given gives names members ∧ leavesOut names

/-- A field in a draft, which holds its value once it was read. -/
def held (names : List String) (name : String) (a : α) : Option α :=
  if name ∈ names then some a else none

theorem held_cons (read name : String) (names : List String) (a : α) :
    held (read :: names) name a = if name = read then some a else held names name a := by
  simp only [held, List.mem_cons]
  by_cases h : name = read <;> simp [h]

/-- In which order the fields were read is not seen. -/
theorem held_reverse (names : List String) (name : String) (a : α) :
    held names.reverse name a = held names name a := by
  simp only [held, List.mem_reverse]

/-- A field that may be left out if it has its default is that in the end. -/
theorem getD_held {names : List String} {name : String} {a default : α}
    (h : name ∉ names → a = default) : (held names name a).getD default = a := by
  unfold held
  split
  · rfl
  · next hmem => exact (h hmem).symm

theorem need_held {names : List String} {name : String} (h : name ∈ names) (a : α) :
    need name (held names name a) = .ok a := by
  rw [held, if_pos h]
  rfl

namespace RecordForm

variable {σ : Type} {form : RecordForm σ}

/-- A field of a record is read where it was not yet. -/
theorem ofMembers_cons {draft after : σ} {seen : List String} {name : String} {key value : Tree}
    (named : IsText key name) (hknown : form.fields.contains name = true)
    (hfresh : seen.contains name = false) (hput : form.put draft name value = .ok after)
    (rest : List (Tree × Tree)) (cut : Option Break) :
    form.ofMembers draft seen ((key, value) :: rest) cut =
      form.ofMembers after (name :: seen) rest cut := by
  rw [ofMembers, named.keyText]
  change (if form.fields.contains name then _ else _) = _
  rw [hknown, if_pos rfl, hfresh, if_neg Bool.false_ne_true, hput]
  rfl

/-- If each field enters a draft of the fields before it, the members of an object make up the draft
of them all. -/
theorem ofMembers_given {gives : String → Tree → Prop} {draftOf : List String → σ}
    (hknown : ∀ {name tree}, gives name tree → form.fields.contains name = true)
    (hput : ∀ {name tree} names, gives name tree →
      form.put (draftOf names) name tree = .ok (draftOf (name :: names)))
    {names : List String} {members : List (Tree × Tree)} (h : Given gives names members)
    (seen : List String) (hseen : ∀ name ∈ names, name ∉ seen) :
    form.ofMembers (draftOf seen) seen members none = .ok (draftOf (names.reverse ++ seen)) := by
  induction h generalizing seen with
  | nil => rfl
  | @cons name names key value members named field fresh tail ih =>
    have hfresh : seen.contains name = false := by
      simpa using hseen name List.mem_cons_self
    have hrest : ∀ other ∈ names, other ∉ name :: seen := by
      intro other hother hmem
      rcases List.mem_cons.1 hmem with rfl | hmem
      · exact fresh hother
      · exact hseen other (List.mem_cons_of_mem _ hother) hmem
    rw [ofMembers_cons named (hknown field) hfresh (hput seen field), ih (name :: seen) hrest,
      List.reverse_cons, List.append_assoc]
    rfl

theorem draft_given {gives : String → Tree → Prop} {draftOf : List String → σ}
    (hknown : ∀ {name tree}, gives name tree → form.fields.contains name = true)
    (hput : ∀ {name tree} names, gives name tree →
      form.put (draftOf names) name tree = .ok (draftOf (name :: names)))
    {names : List String} {members : List (Tree × Tree)} (h : Given gives names members) :
    form.draft (draftOf []) (.object members none) = .ok (draftOf names.reverse) := by
  have hmembers := ofMembers_given hknown hput h [] nofun
  rwa [List.append_nil] at hmembers

/-- What must be so for a member to be read without a fault. -/
theorem ofMembers_cons_ok (hstrict : form.strict = true) {draft result : σ} {seen : List String}
    {key value : Tree} {rest : List (Tree × Tree)} {cut : Option Break}
    (h : form.ofMembers draft seen ((key, value) :: rest) cut = .ok result) :
    ∃ name after, key.keyText = .ok name ∧ name ∈ form.fields ∧ name ∉ seen ∧
      form.put draft name value = .ok after ∧
      form.ofMembers after (name :: seen) rest cut = .ok result := by
  rw [ofMembers] at h
  cases hkey : key.keyText with
  | error fault =>
    rw [hkey] at h
    cases h
  | ok name =>
    rw [hkey] at h
    change (if form.fields.contains name then _ else if form.strict then _ else _) = _ at h
    by_cases hknown : form.fields.contains name = true
    · rw [if_pos hknown] at h
      by_cases hseen : seen.contains name = true
      · rw [if_pos hseen] at h
        cases h
      · rw [if_neg hseen] at h
        cases hput : form.put draft name value with
        | error fault =>
          rw [hput] at h
          cases h
        | ok after =>
          rw [hput] at h
          exact ⟨name, after, rfl, by simpa using hknown, by simpa using hseen, hput, h⟩
    · rw [if_neg hknown, if_pos hstrict] at h
      cases h

/-- Whatever is read of an object without a fault has keys of known fields, none of them twice, and
values that these fields can have. -/
theorem ofMembers_ok (hstrict : form.strict = true) {draft result : σ} {seen : List String}
    {members : List (Tree × Tree)} {cut : Option Break}
    (h : form.ofMembers draft seen members cut = .ok result) :
    (∀ m ∈ members, ∃ name ∈ form.fields, m.1.keyText = .ok name ∧ name ∉ seen ∧
      ∃ before after, form.put before name m.2 = .ok after) ∧
    members.Pairwise fun m later => m.1.keyText ≠ later.1.keyText := by
  induction members generalizing draft seen with
  | nil => exact ⟨nofun, .nil⟩
  | cons m members ih =>
    obtain ⟨name, after, hkey, hknown, hfresh, hput, hrest⟩ := ofMembers_cons_ok hstrict h
    obtain ⟨hmembers, hdiffer⟩ := ih hrest
    refine ⟨List.forall_mem_cons.2 ⟨?_, ?_⟩, List.pairwise_cons.2 ⟨?_, hdiffer⟩⟩
    · exact ⟨name, hknown, hkey, hfresh, draft, after, hput⟩
    · intro m hm
      obtain ⟨other, hfield, hother, hnot, hvalue⟩ := hmembers m hm
      exact ⟨other, hfield, hother, fun hmem => hnot (List.mem_cons_of_mem _ hmem), hvalue⟩
    · intro m hm heq
      obtain ⟨other, -, hother, hnot, -⟩ := hmembers m hm
      rw [hkey, hother] at heq
      cases heq
      exact hnot List.mem_cons_self

end RecordForm

/-- A member is added to an object, at any place: of a field that the record has not, or of one that
the object has. -/
inductive Adds (fields : List String) : List (Tree × Tree) → List (Tree × Tree) → Prop where
  | unknown {front back : List (Tree × Tree)} {key value : Tree} {name : String}
    (named : IsText key name) (strange : name ∉ fields) :
    Adds fields (front ++ back) (front ++ (key, value) :: back)
  | again {front back : List (Tree × Tree)} {key value : Tree} {name : String}
    (named : IsText key name) (there : ∃ m ∈ front ++ back, IsText m.1 name) :
    Adds fields (front ++ back) (front ++ (key, value) :: back)

theorem Adds.refused {σ : Type} {form : RecordForm σ} (hstrict : form.strict = true)
    {members others : List (Tree × Tree)} (h : Adds form.fields members others) (start result : σ) :
    form.draft start (.object others none) ≠ .ok result := by
  intro hok
  obtain ⟨hmembers, hdiffer⟩ := RecordForm.ofMembers_ok hstrict hok
  cases h with
  | unknown named strange =>
    obtain ⟨name, hfield, hname, -⟩ :=
      hmembers _ (List.mem_append_right _ List.mem_cons_self)
    rw [named.keyText] at hname
    cases hname
    exact strange hfield
  | @again front back key value name named there =>
    obtain ⟨m, hm, htext⟩ := there
    obtain ⟨-, hback, hfront⟩ := List.pairwise_append.1 hdiffer
    rcases List.mem_append.1 hm with hm | hm
    · exact hfront m hm _ List.mem_cons_self (htext.keyText.trans named.keyText.symm)
    · exact (List.pairwise_cons.1 hback).1 m hm (named.keyText.trans htext.keyText.symm)

end Json

/-! ## Fields -/

/-- A value is a text that is read as a duration. -/
def Duration.GivenBy (tree : Tree) (d : Duration) : Prop :=
  ∃ words, IsText tree words ∧ Duration.read words = .ok d

theorem Duration.GivenBy.decode {tree : Tree} {d : Duration} (h : Duration.GivenBy tree d) :
    Duration.ofTree tree = .ok d := by
  obtain ⟨words, htext, hread⟩ := h
  simp only [Duration.ofTree, htext.text, bind, Except.bind, hread]

theorem Path.ofTree_isText {tree : Tree} {path : Path} (h : IsText tree path.text) :
    Path.ofTree tree = .ok path := by
  rw [Path.ofTree, h.text]
  rfl

theorem Protocol.ofTree_isText {tree : Tree} {p : Protocol} (h : IsText tree p.name) :
    Protocol.ofTree tree = .ok p := by
  refine h.variant ?_
  cases p <;> rfl

theorem LockScheme.ofTree_isText {tree : Tree} {s : LockScheme} (h : IsText tree s.name) :
    LockScheme.ofTree tree = .ok s := by
  refine h.variant ?_
  cases s <;> rfl

theorem ConnectionConfig.word32_isNatural {tree : Tree} {n : UInt32} (h : IsNatural tree n.toNat) :
    word32 tree = .ok n := by
  have hn : n.toNat < 4294967296 := n.toNat_lt
  rw [word32, h, Tree.natural_ofNat hn (Nat.lt_trans hn (by decide))]
  exact congrArg Except.ok UInt32.ofNat_toNat

theorem ConnectionConfig.word16_isNatural {tree : Tree} {n : UInt16} (h : IsNatural tree n.toNat) :
    word16 tree = .ok n := by
  have hn : n.toNat < 65536 := n.toNat_lt
  rw [word16, h, Tree.natural_ofNat hn (Nat.lt_trans hn (by decide))]
  exact congrArg Except.ok UInt16.ofNat_toNat

namespace Options

/-- A value is an object of the entries, in any order. -/
def GivenBy (tree : Tree) (o : Options) : Prop :=
  ∃ members entries, tree = .object members none ∧
    List.Forall₂ (fun m e => IsText m.1 e.1 ∧ IsText m.2 e.2) members entries ∧
    entries.Perm o.entries

theorem insertEntry_perm {key value : String} {entries : List (String × String)}
    (h : ∀ e ∈ entries, e.1 ≠ key) :
    (insertEntry key value entries).Perm ((key, value) :: entries) := by
  induction entries with
  | nil => exact .refl _
  | cons e entries ih =>
    obtain ⟨k, v⟩ := e
    have hne : key ≠ k := (h (k, v) List.mem_cons_self).symm
    rw [insertEntry, if_neg hne]
    split
    · exact .refl _
    · have hrest := ih fun e he => h e (List.mem_cons_of_mem _ he)
      exact (hrest.cons _).trans (.swap _ _ _)

/-- Entries with different names make up options of just these entries. -/
theorem ofList_perm {entries : List (String × String)} (h : (entries.map Prod.fst).Nodup) :
    (ofList entries).entries.Perm entries := by
  have hinsert : ∀ (entries : List (String × String)) (o : Options),
      ((entries ++ o.entries).map Prod.fst).Nodup →
      (entries.foldl (fun o e => o.insert e.1 e.2) o).entries.Perm (entries ++ o.entries) := by
    intro entries
    induction entries with
    | nil => exact fun o _ => .refl _
    | cons e entries ih =>
      intro o hnodup
      rw [List.cons_append, List.map_cons, List.nodup_cons] at hnodup
      have hnew : (o.insert e.1 e.2).entries.Perm (e :: o.entries) :=
        insertEntry_perm fun other hother heq => hnodup.1
          (List.mem_map.2 ⟨other, List.mem_append_right _ hother, heq⟩)
      have hall : (entries ++ (o.insert e.1 e.2).entries).Perm (e :: (entries ++ o.entries)) :=
        (hnew.append_left entries).trans List.perm_middle
      refine (ih (o.insert e.1 e.2) ?_).trans hall
      exact (hall.map Prod.fst).nodup_iff.2 (List.nodup_cons.2 hnodup)
  have hentries := hinsert entries empty
  rw [empty, List.append_nil] at hentries
  exact hentries h

theorem nodup_names (o : Options) : (o.entries.map Prod.fst).Nodup :=
  List.pairwise_map.2 (o.ascending.imp fun hlt => (String.ne_of_lt hlt))

theorem ofList_of_perm {o : Options} {entries : List (String × String)}
    (h : entries.Perm o.entries) : ofList entries = o := by
  have hnodup : (entries.map Prod.fst).Nodup := (h.map Prod.fst).nodup_iff.2 o.nodup_names
  refine Options.ext (List.Perm.eq_of_pairwise ?_ (ofList entries).ascending o.ascending
    ((ofList_perm hnodup).trans h))
  exact fun a b _ _ hab hba => absurd hba (String.lt_asymm hab)

theorem GivenBy.decode {tree : Tree} {o : Options} (h : GivenBy tree o) :
    Options.ofTree tree = .ok o := by
  obtain ⟨members, entries, rfl, hmembers, hperm⟩ := h
  have hentries : (members.mapM fun member => do
      let key ← member.1.keyText
      let value ← member.2.text "a string"
      return (key, value)) = .ok entries := by
    clear hperm
    induction hmembers with
    | nil => rfl
    | cons hmember _ ih =>
      rw [List.mapM_cons, hmember.1.keyText, hmember.2.text, ih]
      rfl
  rw [Options.ofTree, Tree.textMembers, hentries]
  exact congrArg Except.ok (ofList_of_perm hperm)

end Options

/-! ## Locks -/

namespace LockConfig

/-- A value of a field of a lock configuration. -/
inductive Gives (lock : LockConfig) : String → Tree → Prop where
  | scheme {tree : Tree} (h : IsText tree lock.scheme.name) : Gives lock "scheme" tree
  | expiry {tree : Tree} (h : Duration.GivenBy tree lock.expiry) : Gives lock "expiry" tree

/-- What is left out of a description of a lock configuration has its default. -/
structure LeavesOut (lock : LockConfig) (names : List String) : Prop where
  scheme : "scheme" ∉ names → lock.scheme = .none
  expiry : "expiry" ∉ names → lock.expiry = defaultExpiry

/-- The members of an object describe a lock configuration. -/
def DescribedBy (lock : LockConfig) (members : List (Tree × Tree)) : Prop :=
  Described lock.Gives lock.LeavesOut members

/-- What a lock configuration is in the draft once some fields were read. -/
def draftOf (lock : LockConfig) (names : List String) : Draft where
  scheme := held names "scheme" lock.scheme
  expiry := held names "expiry" lock.expiry

theorem put_given {lock : LockConfig} {name : String} {tree : Tree} (names : List String)
    (h : lock.Gives name tree) :
    form.put (lock.draftOf names) name tree = .ok (lock.draftOf (name :: names)) := by
  cases h with
  | scheme h =>
    simp only [form, if_true, LockScheme.ofTree_isText h, draftOf, held_cons, String.reduceEq,
      if_false]
    rfl
  | expiry h =>
    simp only [form, if_true, h.decode, draftOf, held_cons, String.reduceEq, if_false]
    rfl

theorem DescribedBy.decode {lock : LockConfig} {members : List (Tree × Tree)}
    (h : lock.DescribedBy members) : ofTree (.object members none) = .ok lock := by
  obtain ⟨names, hgiven, hdefault⟩ := h
  have hdraft : form.draft {} (.object members none) = .ok (lock.draftOf names.reverse) :=
    RecordForm.draft_given (fun hfield => by cases hfield <;> rfl) put_given hgiven
  simp only [ofTree, hdraft, draftOf, held_reverse, bind, Except.bind]
  rw [getD_held hdefault.scheme, getD_held hdefault.expiry]
  rfl

theorem ofTree_ne_ok {members others : List (Tree × Tree)} (h : Adds form.fields members others)
    (lock : LockConfig) : ofTree (.object others none) ≠ .ok lock := by
  intro hok
  cases hdraft : form.draft {} (.object others none) with
  | error fault =>
    rw [ofTree, hdraft] at hok
    cases hok
  | ok draft => exact h.refused rfl _ _ hdraft

end LockConfig

/-! ## Connections -/

namespace ConnectionConfig

/-- A value of a field of a configuration. -/
inductive Gives (c : ConnectionConfig) : String → Tree → Prop where
  | name {tree : Tree} (h : IsText tree c.name) : Gives c "name" tree
  | space {tree : Tree} (h : IsText tree c.space) : Gives c "namespace" tree
  | protocol {tree : Tree} (h : IsText tree c.protocol.name) : Gives c "protocol" tree
  | host {tree : Tree} (h : IsOptional IsText tree c.host) : Gives c "host" tree
  | port {tree : Tree} (h : IsOptional (fun tree n => IsNatural tree n.toNat) tree c.port) :
    Gives c "port" tree
  | username {tree : Tree} (h : IsOptional IsText tree c.username) : Gives c "username" tree
  | password {tree : Tree} (h : IsOptional IsText tree c.password) : Gives c "password" tree
  | workingDir {tree : Tree} (h : IsText tree c.workingDir.text) : Gives c "working_dir" tree
  | maxFailures {tree : Tree} (h : IsNatural tree c.maxFailures.toNat) :
    Gives c "max_failure_retry_count" tree
  | suspendDuration {tree : Tree} (h : Duration.GivenBy tree c.suspendDuration) :
    Gives c "suspend_duration" tree
  | backoffMultiplier {tree : Tree} (h : IsNatural tree c.backoffMultiplier.toNat) :
    Gives c "backoff_multiplier" tree
  | maxBackoff {tree : Tree} (h : IsOptional Duration.GivenBy tree c.maxBackoff) :
    Gives c "max_backoff" tree
  | options {tree : Tree} (h : Options.GivenBy tree c.options) : Gives c "options" tree
  | lock {members : List (Tree × Tree)} (h : c.lock.DescribedBy members) :
    Gives c "lock" (.object members none)

/-- What is left out of a description of a configuration has its default, and what has none is not
left out. -/
structure LeavesOut (c : ConnectionConfig) (names : List String) : Prop where
  name : "name" ∈ names
  space : "namespace" ∉ names → c.space = defaultSpace
  protocol : "protocol" ∈ names
  host : "host" ∉ names → c.host = none
  port : "port" ∉ names → c.port = none
  username : "username" ∉ names → c.username = none
  password : "password" ∉ names → c.password = none
  workingDir : "working_dir" ∈ names
  maxFailures : "max_failure_retry_count" ∉ names → c.maxFailures = defaultMaxFailures
  suspendDuration : "suspend_duration" ∉ names → c.suspendDuration = initialSuspension
  backoffMultiplier : "backoff_multiplier" ∉ names → c.backoffMultiplier = 1
  maxBackoff : "max_backoff" ∉ names → c.maxBackoff = none
  options : "options" ∉ names → c.options = .empty
  lock : "lock" ∉ names → c.lock = .default

/-- The members of an object describe a configuration. -/
def DescribedBy (c : ConnectionConfig) (members : List (Tree × Tree)) : Prop :=
  Described c.Gives c.LeavesOut members

/-- What a configuration is in the draft once some fields were read. -/
def draftOf (c : ConnectionConfig) (names : List String) : Draft where
  name := held names "name" c.name
  space := held names "namespace" c.space
  protocol := held names "protocol" c.protocol
  host := held names "host" c.host
  port := held names "port" c.port
  username := held names "username" c.username
  password := held names "password" c.password
  workingDir := held names "working_dir" c.workingDir
  maxFailures := held names "max_failure_retry_count" c.maxFailures
  suspendDuration := held names "suspend_duration" c.suspendDuration
  backoffMultiplier := held names "backoff_multiplier" c.backoffMultiplier
  maxBackoff := held names "max_backoff" c.maxBackoff
  options := held names "options" c.options
  lock := held names "lock" c.lock

theorem put_given {c : ConnectionConfig} {name : String} {tree : Tree} (names : List String)
    (h : c.Gives name tree) :
    form.put (c.draftOf names) name tree = .ok (c.draftOf (name :: names)) := by
  have htext : ∀ {tree text}, IsText tree text → Tree.text "a string" tree = .ok text := fun h =>
    h.text "a string"
  have hnull : ∀ d, ¬Duration.GivenBy .null d := fun d ⟨words, h, _⟩ => not_isText_null words h
  -- every field is decoded as its value, and enters none of the others
  simp only [form, draftOf, held_cons]
  cases h with
  | name h => simp [Draft.put, h.text]
  | space h => simp [Draft.put, h.text]
  | protocol h => simp [Draft.put, Protocol.ofTree_isText h]
  | host h => simp [Draft.put, h.decode not_isText_null htext]
  | port h => simp [Draft.put, h.decode nofun word16_isNatural]
  | username h => simp [Draft.put, h.decode not_isText_null htext]
  | password h => simp [Draft.put, h.decode not_isText_null htext]
  | workingDir h => simp [Draft.put, Path.ofTree_isText h]
  | maxFailures h => simp [Draft.put, word32_isNatural h]
  | suspendDuration h => simp [Draft.put, h.decode]
  | backoffMultiplier h => simp [Draft.put, word32_isNatural h]
  | maxBackoff h => simp [Draft.put, h.decode hnull Duration.GivenBy.decode]
  | options h => simp [Draft.put, h.decode]
  | lock h => simp [Draft.put, h.decode]

theorem DescribedBy.decode {c : ConnectionConfig} {members : List (Tree × Tree)}
    (h : c.DescribedBy members) : ofTree (.object members none) = .ok c := by
  obtain ⟨names, hgiven, hdefault⟩ := h
  have hdraft : form.draft {} (.object members none) = .ok (c.draftOf names.reverse) :=
    RecordForm.draft_given (fun hfield => by cases hfield <;> rfl) put_given hgiven
  simp only [ofTree, hdraft, draftOf, held_reverse, Draft.complete, bind, Except.bind,
    need_held hdefault.name, need_held hdefault.protocol, need_held hdefault.workingDir]
  rw [getD_held hdefault.space, getD_held hdefault.host, getD_held hdefault.port,
    getD_held hdefault.username, getD_held hdefault.password, getD_held hdefault.maxFailures,
    getD_held hdefault.suspendDuration, getD_held hdefault.backoffMultiplier,
    getD_held hdefault.maxBackoff, getD_held hdefault.options, getD_held hdefault.lock]
  rfl

/-- A member is added to an object of a configuration, or to the object of its lock in it, that is
of no field there or of one that is there already. -/
inductive Spoils : List (Tree × Tree) → List (Tree × Tree) → Prop where
  | own {members others : List (Tree × Tree)} (h : Adds form.fields members others) :
    Spoils members others
  | lock {front back inner others : List (Tree × Tree)} {key : Tree} (named : IsText key "lock")
    (h : Adds LockConfig.form.fields inner others) :
    Spoils (front ++ (key, .object inner none) :: back)
      (front ++ (key, .object others none) :: back)

theorem Spoils.refused {members others : List (Tree × Tree)} (h : Spoils members others)
    (c : ConnectionConfig) : ofTree (.object others none) ≠ .ok c := by
  intro hok
  cases hdraft : form.draft {} (.object others none) with
  | error fault =>
    rw [ofTree, hdraft] at hok
    cases hok
  | ok draft =>
    cases h with
    | own h => exact h.refused rfl _ _ hdraft
    | @lock front back inner others key named h =>
      -- the lock itself cannot have been read
      obtain ⟨hmembers, -⟩ := RecordForm.ofMembers_ok rfl hdraft
      obtain ⟨name, -, hname, -, before, after, hput⟩ :=
        hmembers _ (List.mem_append_right _ List.mem_cons_self)
      rw [named.keyText] at hname
      cases hname
      change (LockConfig.ofTree (.object others none) >>= _) = _ at hput
      cases hlock : LockConfig.ofTree (.object others none) with
      | error fault =>
        rw [hlock] at hput
        cases hput
      | ok lock => exact LockConfig.ofTree_ne_ok h lock hlock

/-- **Ways to write a configuration.** Every text of an object that describes a configuration, with
its fields in any order, those left out that have their default, and everything spelled as its
writer liked, is read as this configuration. A text of the object with a member added, to it or to
the object of its lock, that is of no field or of one that is given already, is refused. -/
theorem decode_described {c : ConnectionConfig} {members : List (Tree × Tree)} {text : String}
    (h : c.DescribedBy members) (hspells : Spells (.object members none) text) :
    Json.decode ofTree text = .ok c ∧
      ∀ others spoilt, Spoils members others → Spells (.object others none) spoilt →
        ∃ fault, Json.decode ofTree spoilt = .error fault := by
  refine ⟨(decode_spelled hspells ofTree).trans h.decode, fun others spoilt hspoils hothers => ?_⟩
  rw [decode_spelled hothers]
  cases hread : ofTree (.object others none) with
  | error fault => exact ⟨fault, rfl⟩
  | ok c => exact absurd hread (hspoils.refused c)

set_option maxRecDepth 4096 in
/-- A description with its fields in an order of its own, a lock that has one of its fields, and an
absent host; and what becomes of it if the host is named again. -/
theorem decode_described_once :
    let c : ConnectionConfig :=
      { ConnectionConfig.onDisk "default" "a" ⟨"/srv"⟩ with
        options := .ofList [("a", "2"), ("z", "1")]
        lock := ⟨.none, .ofSeconds 60⟩ }
    let members : List (String × Value) := [("working_dir", .string "/srv"),
      ("options", .object [("z", .string "1"), ("a", .string "2")]),
      ("lock", .object [("expiry", .string "1m")]), ("host", .null), ("protocol", .string "file"),
      ("name", .string "a")]
    let again := members ++ [("host", .string "h")]
    Json.decode ofTree (Value.object members).write = .ok c ∧
      ∃ fault, Json.decode ofTree (Value.object again).write = .error fault := by
  intro c members again
  have htext := isText_tree
  have hlock : c.lock.DescribedBy (Value.memberTrees [("expiry", .string "1m")]) :=
    ⟨["expiry"], .cons (htext _) (.expiry ⟨"1m", htext _, by rfl⟩) (by decide) .nil,
      ⟨fun _ => rfl, fun h => absurd (by decide) h⟩⟩
  have hoptions : Options.GivenBy (Value.object [("z", .string "1"), ("a", .string "2")]).tree
      c.options :=
    ⟨_, [("z", "1"), ("a", "2")], rfl,
      .cons ⟨htext _, htext _⟩ (.cons ⟨htext _, htext _⟩ .nil), .swap _ _ _⟩
  have hdescribed : c.DescribedBy (Value.memberTrees members) := by
    refine ⟨["working_dir", "options", "lock", "host", "protocol", "name"], ?_, ?_⟩
    · refine .cons (htext _) (.workingDir (htext _)) (by decide) ?_
      refine .cons (htext _) (.options hoptions) (by decide) ?_
      refine .cons (htext _) (.lock hlock) (by decide) ?_
      refine .cons (htext _) (.host .absent) (by decide) ?_
      refine .cons (htext _) (.protocol (htext _)) (by decide) ?_
      exact .cons (htext _) (.name (htext _)) (by decide) .nil
    · constructor <;> decide
  have hagain : Spoils (Value.memberTrees members) (Value.memberTrees again) :=
    .own (@Adds.again form.fields (Value.memberTrees members) [] _ _ "host" (htext _)
      ⟨_, List.mem_append_left _ (.tail _ (.tail _ (.tail _ (.head _)))), htext _⟩)
  obtain ⟨hread, hrefused⟩ := decode_described hdescribed (Value.object members).spells_write
  exact ⟨hread, hrefused _ _ hagain (Value.object again).spells_write⟩

end ConnectionConfig

end FileGateway

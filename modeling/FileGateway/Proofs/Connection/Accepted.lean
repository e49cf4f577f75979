import FileGateway.Connection.File
import Mathlib.Data.List.Nodup

/-!
# Accepted connections files

A list of connections passes if every connection is in order and no two have one key
(`ConnectionsFile.firstFault?_eq_none_iff`). So in a file that was accepted, a key leads to at most
one connection, and looking the key up finds it (`ConnectionsFile.Sound.find?_eq_some_iff`).
-/

namespace FileGateway.ConnectionsFile

/-- Every connection is in order, and no two have one key. -/
structure Sound (f : ConnectionsFile) : Prop where
  valid : ∀ c ∈ f.connections, c.fault? = none
  keys : (f.connections.map ConnectionConfig.key).Nodup

/-- A list has no fault if each of its connections has none, and their keys differ from one another
and from those seen before. -/
theorem firstFault?_eq_none_iff {seen : List ConnectionKey} {cs : List ConnectionConfig} :
    firstFault? seen cs = none ↔
      (∀ c ∈ cs, c.fault? = none) ∧ (cs.map ConnectionConfig.key).Nodup ∧
        ∀ c ∈ cs, c.key ∉ seen := by
  induction cs generalizing seen with
  | nil => simp [firstFault?]
  | cons c rest ih =>
    rw [firstFault?]
    cases hc : c.fault? with
    | some fault => simp [hc]
    | none =>
      by_cases hseen : c.key ∈ seen
      · simp [hseen]
      · -- the key of the first connection is one of those seen before the rest
        have hcontains : seen.contains c.key = false := by simpa using hseen
        simp only [hcontains, Bool.false_eq_true, if_false, ih, List.mem_cons, not_or,
          List.map_cons, List.nodup_cons, List.mem_map, not_exists, not_and, forall_eq_or_imp]
        constructor
        · rintro ⟨hvalid, hnodup, hfresh⟩
          exact ⟨⟨hc, hvalid⟩, ⟨fun c' hc' => (hfresh c' hc').1, hnodup⟩, hseen,
            fun c' hc' => (hfresh c' hc').2⟩
        · rintro ⟨⟨-, hvalid⟩, ⟨hother, hnodup⟩, -, hfresh⟩
          exact ⟨hvalid, hnodup, fun c' hc' => ⟨hother c' hc', hfresh c' hc'⟩⟩

/-- A text is accepted if it can be decoded and what it lists is sound. -/
theorem parse_eq_ok_iff {text : String} {f : ConnectionsFile} :
    parse text = .ok f ↔ Json.decode ofTree text = .ok f ∧ f.Sound := by
  rw [parse]
  cases hd : Json.decode ofTree text with
  | error fault => simp
  | ok file =>
    simp only [Except.ok.injEq]
    have hsound : firstFault? [] file.connections = none ↔ file.Sound := by
      rw [firstFault?_eq_none_iff]
      exact ⟨fun h => ⟨h.1, h.2.1⟩, fun h => ⟨h.valid, h.keys, fun _ _ => List.not_mem_nil⟩⟩
    cases hf : firstFault? [] file.connections with
    | some fault =>
      rw [hf] at hsound
      constructor
      · intro h
        cases h
      · rintro ⟨rfl, hs⟩
        exact absurd (hsound.2 hs) (Option.some_ne_none fault)
    | none =>
      constructor
      · intro h
        cases h
        exact ⟨rfl, hsound.1 hf⟩
      · rintro ⟨rfl, -⟩
        rfl

/-! ## Looking a key up -/

variable {f : ConnectionsFile} {key : ConnectionKey}

theorem matches_iff {c : ConnectionConfig} :
    (c.space == key.space && c.name == key.name) = true ↔ c.key = key := by
  cases key
  simp [ConnectionConfig.key]

theorem find?_eq_none_iff : f.find? key = none ↔ ∀ c ∈ f.connections, c.key ≠ key := by
  rw [find?, List.find?_eq_none]
  exact forall₂_congr fun c _ => not_congr matches_iff

theorem mem_of_find? {c : ConnectionConfig} (h : f.find? key = some c) :
    c ∈ f.connections ∧ c.key = key := by
  rw [find?] at h
  have hmatches := List.find?_some h
  exact ⟨List.mem_of_find?_eq_some h, matches_iff.1 hmatches⟩

/-- A key leads to at most one connection. -/
theorem Sound.unique (h : f.Sound) {c c' : ConnectionConfig} (hc : c ∈ f.connections)
    (hc' : c' ∈ f.connections) (hkey : c.key = c'.key) : c = c' :=
  List.inj_on_of_nodup_map h.keys hc hc' hkey

/-- Looking a key up finds the connection that has it. -/
theorem Sound.find?_eq_some_iff (h : f.Sound) {c : ConnectionConfig} :
    f.find? key = some c ↔ c ∈ f.connections ∧ c.key = key := by
  constructor
  · exact mem_of_find?
  · rintro ⟨hc, hkey⟩
    cases hfind : f.find? key with
    | none => exact absurd hkey (find?_eq_none_iff.1 hfind c hc)
    | some c' =>
      obtain ⟨hc', hkey'⟩ := mem_of_find? hfind
      rw [h.unique hc hc' (hkey.trans hkey'.symm)]

end FileGateway.ConnectionsFile

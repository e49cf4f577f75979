import FileGateway.Proofs.Connection.Printed

/-!
# The first fault of a connections file

A connection of a file is at fault for itself, or else because an earlier one has its key
(`ConnectionsFile.Blamed`). A file is accepted if no connection is at fault, and otherwise it is
refused for the first one that is (`ConnectionsFile.parse_blames_first`). The keys seen so far are
those of the connections that were passed, so a list is read up to its first fault as if it ended
there (`ConnectionsFile.firstFault?_append`).
-/

namespace FileGateway.ConnectionsFile

variable {cs : List ConnectionConfig} {i : Nat} {fault : FileFault}

/-- What the connection at one place of a list is at fault for. -/
inductive Blamed (cs : List ConnectionConfig) (i : Nat) : FileFault → Prop where
  | invalid {c : ConnectionConfig} {fault : ConfigFault} (here : cs[i]? = some c)
    (own : c.fault? = some fault) : Blamed cs i (.connection fault)
  | repeated {c earlier : ConnectionConfig} {j : Nat} (here : cs[i]? = some c)
    (valid : c.fault? = none) (before : j < i) (there : cs[j]? = some earlier)
    (same : earlier.key = c.key) : Blamed cs i (.duplicate c.key)

/-- A connection is at fault for one thing. -/
theorem Blamed.unique {other : FileFault} (h : Blamed cs i fault) (h' : Blamed cs i other) :
    fault = other := by
  cases h with
  | invalid here own =>
    cases h' with
    | invalid here' own' =>
      obtain rfl := Option.some.inj (here.symm.trans here')
      rw [Option.some.inj (own.symm.trans own')]
    | repeated here' valid =>
      obtain rfl := Option.some.inj (here.symm.trans here')
      rw [own] at valid
      cases valid
  | repeated here valid =>
    cases h' with
    | invalid here' own' =>
      obtain rfl := Option.some.inj (here.symm.trans here')
      rw [own'] at valid
      cases valid
    | repeated here' =>
      obtain rfl := Option.some.inj (here.symm.trans here')
      rfl

/-- Whether a connection is at fault shows in the list up to it. -/
theorem Blamed.of_front {front rest : List ConnectionConfig} (hi : i < front.length)
    (h : Blamed (front ++ rest) i fault) : Blamed front i fault := by
  have hat : ∀ {j : Nat}, j ≤ i → (front ++ rest)[j]? = front[j]? := fun hj =>
    List.getElem?_append_left (Nat.lt_of_le_of_lt hj hi)
  cases h with
  | invalid here own => exact .invalid ((hat (Nat.le_refl i)).symm.trans here) own
  | repeated here valid before there same =>
    exact .repeated ((hat (Nat.le_refl i)).symm.trans here) valid before
      ((hat (Nat.le_of_lt before)).symm.trans there) same

/-- In a list without a fault no connection is at fault. -/
theorem not_blamed (hvalid : ∀ c ∈ cs, c.fault? = none)
    (hkeys : (cs.map ConnectionConfig.key).Nodup) : ¬Blamed cs i fault := by
  intro h
  cases h with
  | invalid here own =>
    rw [hvalid _ (List.mem_of_getElem? here)] at own
    cases own
  | @repeated c earlier j here valid before there same =>
    have hhere : (cs.map ConnectionConfig.key)[i]? = some c.key := by
      rw [List.getElem?_map, here, Option.map_some]
    have hthere : (cs.map ConnectionConfig.key)[j]? = some c.key := by
      rw [List.getElem?_map, there, Option.map_some, same]
    have hji : j = i := by
      obtain ⟨hi, hget⟩ := List.getElem?_eq_some_iff.1 hhere
      obtain ⟨hj, hget'⟩ := List.getElem?_eq_some_iff.1 hthere
      exact (hkeys.getElem_inj_iff).1 (hget'.trans hget.symm)
    exact absurd before (hji ▸ Nat.lt_irrefl j)

/-! ## Reading a list up to its first fault -/

/-- After connections without a fault the rest is read with their keys. -/
theorem firstFault?_append {seen : List ConnectionKey} {front : List ConnectionConfig}
    (rest : List ConnectionConfig) (h : firstFault? seen front = none) :
    firstFault? seen (front ++ rest) =
      firstFault? ((front.map ConnectionConfig.key).reverse ++ seen) rest := by
  induction front generalizing seen with
  | nil => rfl
  | cons c front ih =>
    rw [firstFault?] at h
    cases hc : c.fault? with
    | some fault =>
      rw [hc] at h
      cases h
    | none =>
      cases hseen : seen.contains c.key with
      | true =>
        rw [hc, hseen] at h
        cases h
      | false =>
        rw [hc, hseen] at h
        rw [List.cons_append, firstFault?, hc, hseen]
        refine (ih h).trans ?_
        rw [List.map_cons, List.reverse_cons, List.append_assoc]
        rfl

/-- A list with a fault is without one up to some connection, which is the one at fault. -/
theorem exists_first {seen : List ConnectionKey} (h : firstFault? seen cs ≠ none) :
    ∃ front c rest, cs = front ++ c :: rest ∧ firstFault? seen front = none ∧
      (c.fault? ≠ none ∨ c.key ∈ (front.map ConnectionConfig.key).reverse ++ seen) := by
  induction cs generalizing seen with
  | nil => exact absurd rfl h
  | cons c cs ih =>
    cases hc : c.fault? with
    | some fault => exact ⟨[], c, cs, rfl, rfl, .inl (by rw [hc]; exact nofun)⟩
    | none =>
      by_cases hseen : c.key ∈ seen
      · exact ⟨[], c, cs, rfl, rfl, .inr hseen⟩
      · have hcontains : seen.contains c.key = false := by simpa using hseen
        have hstep : ∀ rest, firstFault? seen (c :: rest) = firstFault? (c.key :: seen) rest := by
          intro rest
          rw [firstFault?, hc, hcontains]
          rfl
        rw [hstep] at h
        obtain ⟨front, d, rest, rfl, hfront, hd⟩ := ih h
        refine ⟨c :: front, d, rest, rfl, (hstep front).trans hfront, hd.imp_right fun hmem => ?_⟩
        rw [List.map_cons, List.reverse_cons, List.append_assoc]
        exact hmem

/-- The fault of a list is what its first connection at fault is blamed for. -/
theorem firstFault?_eq_some_iff : firstFault? [] cs = some fault ↔
    ∃ i, Blamed cs i fault ∧ ∀ j < i, ∀ other, ¬Blamed cs j other := by
  have hfirst : ∀ {found}, firstFault? [] cs = some found →
      ∃ i, Blamed cs i found ∧ ∀ j < i, ∀ other, ¬Blamed cs j other := by
    intro found hfound
    obtain ⟨front, c, rest, rfl, hfront, hc⟩ := exists_first (by rw [hfound]; exact nofun)
    obtain ⟨hvalid, hkeys, -⟩ := firstFault?_eq_none_iff.1 hfront
    have hhere : (front ++ c :: rest)[front.length]? = some c := by simp
    refine ⟨front.length, ?_, fun j hj other hblamed => not_blamed hvalid hkeys
      (hblamed.of_front hj)⟩
    rw [firstFault?_append _ hfront, firstFault?, List.append_nil] at hfound
    cases hown : c.fault? with
    | some own =>
      rw [hown] at hfound
      cases hfound
      exact .invalid hhere hown
    | none =>
      have hmem : c.key ∈ (front.map ConnectionConfig.key).reverse := by
        simpa [hown] using hc
      rw [hown] at hfound
      simp only [List.contains_iff_mem.2 hmem, if_true] at hfound
      cases hfound
      -- the key is that of a connection that was passed
      obtain ⟨earlier, hearlier, hsame⟩ := List.mem_map.1 (List.mem_reverse.1 hmem)
      obtain ⟨j, hj, hget⟩ := List.mem_iff_getElem.1 hearlier
      refine .repeated hhere hown hj ?_ hsame
      rw [List.getElem?_append_left hj, List.getElem?_eq_getElem hj, hget]
  refine ⟨hfirst, ?_⟩
  rintro ⟨i, hblamed, hbefore⟩
  cases hfault : firstFault? [] cs with
  | none =>
    obtain ⟨hvalid, hkeys, -⟩ := firstFault?_eq_none_iff.1 hfault
    exact absurd hblamed (not_blamed hvalid hkeys)
  | some found =>
    -- there is one first connection at fault
    obtain ⟨j, hblamed', hbefore'⟩ := hfirst hfault
    rcases Nat.lt_trichotomy i j with hij | rfl | hij
    · exact absurd hblamed (hbefore' i hij fault)
    · rw [hblamed.unique hblamed']
    · exact absurd hblamed' (hbefore j hij found)

/-! ## Files -/

/-- No two connections of a list have both the namespace and the name in common. -/
def KeysDiffer (cs : List ConnectionConfig) : Prop :=
  cs.Pairwise fun a b => ¬(a.space = b.space ∧ a.name = b.name)

theorem nodup_keys_iff : (cs.map ConnectionConfig.key).Nodup ↔ KeysDiffer cs := by
  rw [List.Nodup, List.pairwise_map, KeysDiffer]
  simp only [ConnectionConfig.key, ne_eq, ConnectionKey.mk.injEq]

theorem parse_of_decoded {text : String} {f : ConnectionsFile}
    (h : Json.decode ofTree text = .ok f) : parse text =
      match firstFault? [] f.connections with
      | some fault => .error fault
      | none => .ok f := by
  cases hfault : firstFault? [] f.connections <;> simp only [parse, h, hfault]

/-- Looking keys up in a file finds its connections, and nothing else. -/
structure Found (f : ConnectionsFile) : Prop where
  some_iff : ∀ space name, (∃ c, f.find? ⟨space, name⟩ = some c) ↔
    ∃ c ∈ f.connections, c.space = space ∧ c.name = name
  own : ∀ c ∈ f.connections, f.find? c.key = some c

theorem Sound.found {f : ConnectionsFile} (h : f.Sound) : f.Found := by
  refine ⟨fun space name => ?_, fun c hc => h.find?_eq_some_iff.2 ⟨hc, rfl⟩⟩
  refine exists_congr fun c => h.find?_eq_some_iff.trans (and_congr_right fun _ => ?_)
  rw [ConnectionConfig.key, ConnectionKey.mk.injEq]

/-- **The first fault.** A file that can be read is accepted exactly if every connection is in order
and no two have one key. Otherwise it is refused for the first connection at fault, for itself
before it is for repeating a key. In an accepted file every connection is found under its own key,
and nothing is found under any other. -/
theorem parse_blames_first {text : String} {f : ConnectionsFile}
    (h : Json.decode ofTree text = .ok f) :
    ((∃ g, parse text = .ok g) ↔
      (∀ c ∈ f.connections, c.fault? = none) ∧ KeysDiffer f.connections) ∧
    (∀ fault, parse text = .error fault ↔ ∃ i, Blamed f.connections i fault ∧
      ∀ j < i, ∀ other, ¬Blamed f.connections j other) ∧
    (∀ g, parse text = .ok g → g = f ∧ f.Found) := by
  have hparse := parse_of_decoded h
  refine ⟨?_, fun fault => ?_, fun g hg => ?_⟩
  · rw [← nodup_keys_iff]
    constructor
    · rintro ⟨g, hg⟩
      obtain ⟨hdecode, hsound⟩ := parse_eq_ok_iff.1 hg
      rw [h] at hdecode
      cases hdecode
      exact ⟨hsound.valid, hsound.keys⟩
    · rintro ⟨hvalid, hkeys⟩
      exact ⟨f, parse_eq_ok_iff.2 ⟨h, hvalid, hkeys⟩⟩
  · rw [← firstFault?_eq_some_iff, hparse]
    cases firstFault? [] f.connections <;> simp
  · obtain ⟨hdecode, hsound⟩ := parse_eq_ok_iff.1 hg
    rw [h] at hdecode
    cases hdecode
    exact ⟨rfl, hsound.found⟩

/-- Two faults in one file: the second connection repeats a key, the third has no directory. -/
theorem parse_blames_first_twice :
    let c := ConnectionConfig.onDisk "ops" "a" ⟨"/srv"⟩
    let f : ConnectionsFile := ⟨[c, c, .onDisk "ops" "b" ⟨""⟩]⟩
    Json.decode ofTree f.toJson.write = .ok f ∧
      parse f.toJson.write = .error (.duplicate ⟨"ops", "a"⟩) := by
  intro c f
  have hread : Json.decode ofTree f.toJson.write = .ok f := Json.decode_write f.ofTree_toJson
  refine ⟨hread, ((parse_blames_first hread).2.1 _).2 ⟨1, ?_, fun j hj other hblamed => ?_⟩⟩
  · have hvalid : c.fault? = none := by decide +kernel
    exact @Blamed.repeated _ _ c c _ rfl hvalid Nat.zero_lt_one rfl rfl
  · obtain rfl : j = 0 := Nat.lt_one_iff.1 hj
    have hvalid : c.fault? = none := by decide +kernel
    have hfront : Blamed [c] 0 other := hblamed.of_front Nat.zero_lt_one
    have hall : ∀ d ∈ [c], d.fault? = none := fun d hd => List.mem_singleton.1 hd ▸ hvalid
    exact not_blamed hall (List.nodup_singleton _) hfront

end FileGateway.ConnectionsFile

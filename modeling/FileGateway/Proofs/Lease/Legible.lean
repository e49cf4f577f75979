import FileGateway.Proofs.Lease.Diagnostics
import Mathlib.Data.List.Basic

/-!
# What survives being written into a marker

A marker has one line for each entry and no way to write a line's end within a line. So the host's
name and address survive just if they are lines themselves (`IsLine`): a line feed makes more lines
than a marker has (`Diagnostics.parse?_text_of_feed`), and a carriage return at the end is taken for
a part of the line's end.

Whatever was read of a text has no line feeds. It may still end in a carriage return, namely where a
line feed of the text follows two of them: one is a part of the line's end, and the other is read.
Written again, that one is lost too (`Diagnostics.not_reread`). Everything else that is read of a
text is read again (`Diagnostics.reread`).
-/

namespace FileGateway

/-! ## Lines -/

/-- Two carriage returns before a line feed: one of them belongs to the line. -/
def doubledReturn : List Char := ['\r', '\r', '\n']

/-- A text that can be one line, and is read as it was written. -/
def IsLine (line : List Char) : Prop :=
  '\n' ∉ line ∧ line.getLast? ≠ some '\r'

theorem chomp_concat (line : List Char) (c : Char) :
    chomp (line ++ [c]) = if c = '\r' then line else line ++ [c] := by
  unfold chomp
  rw [List.reverse_concat]
  split
  · next before heq =>
    injection heq with hc hbefore
    rw [if_pos hc, ← hbefore, List.reverse_reverse]
  · next before hother =>
    have hc : c ≠ '\r' := fun hc => hother _ (by rw [hc])
    rw [if_neg hc, List.reverse_cons, List.reverse_reverse]

theorem chomp_eq_self_iff {line : List Char} : chomp line = line ↔ line.getLast? ≠ some '\r' := by
  rcases List.eq_nil_or_concat' line with rfl | ⟨front, c, rfl⟩
  · exact iff_of_true rfl nofun
  · rw [chomp_concat, List.getLast?_concat]
    constructor
    · rintro h hc
      cases hc
      -- a line does not equal what is in front of its last character
      rw [if_pos rfl] at h
      exact List.cons_ne_nil _ _ (List.self_eq_append_right.1 h)
    · intro hc
      exact if_neg fun heq => hc (congrArg some heq)

/-- A line that ends in a carriage return had another one before its end. -/
theorem eq_concat_of_chomp {line : List Char} (h : (chomp line).getLast? = some '\r') :
    ∃ front, line = front ++ ['\r', '\r'] := by
  rcases List.eq_nil_or_concat' line with rfl | ⟨front, c, rfl⟩
  · cases h
  · rw [chomp_concat] at h
    by_cases hc : c = '\r'
    · subst hc
      rw [if_pos rfl] at h
      obtain ⟨before, rfl⟩ := List.getLast?_eq_some_iff.1 h
      exact ⟨before, List.append_assoc _ _ _⟩
    · rw [if_neg hc, List.getLast?_concat] at h
      exact absurd (Option.some.inj h) hc

/-- Every line feed ends a line. -/
theorem count_feed_le_length_go (before text : List Char) :
    text.count '\n' ≤ (linesOf.go before text).length := by
  induction text generalizing before with
  | nil => exact Nat.zero_le _
  | cons c text ih =>
    by_cases hc : c = '\n'
    · subst hc
      rw [List.count_cons_self]
      unfold linesOf.go
      exact Nat.succ_le_succ (ih [])
    · rw [linesOf.go.eq_4 _ _ _ hc, List.count_cons_of_ne hc]
      exact ih (c :: before)

theorem length_linesOf_le_one {text : List Char} (h : '\n' ∉ text) :
    (linesOf text).length ≤ 1 := by
  have hgo : ∀ before, (linesOf.go before text).length ≤ 1 := by
    induction text with
    | nil =>
      intro before
      unfold linesOf.go
      split
      · exact Nat.zero_le 1
      · exact Nat.le_refl 1
    | cons c text ih =>
      intro before
      rw [linesOf.go.eq_4 _ _ _ fun heq => h (heq ▸ List.mem_cons_self)]
      exact ih (fun hmem => h (List.mem_cons_of_mem c hmem)) _
  exact hgo []

/-- A text of several lines begins with the first of them and its end. -/
theorem exists_of_linesOf {text line : List Char} {lines : List (List Char)} (hne : lines ≠ [])
    (h : linesOf text = line :: lines) :
    ∃ front rest, text = front ++ '\n' :: rest ∧ '\n' ∉ front ∧ chomp front = line ∧
      linesOf rest = lines := by
  by_cases hfeed : '\n' ∈ text
  · obtain ⟨front, rest, rfl, hfront⟩ := List.eq_append_cons_of_mem hfeed
    rw [linesOf_append _ _ hfront] at h
    injection h with hline hlines
    exact ⟨front, rest, rfl, hfront, hline, hlines⟩
  · have hlength := length_linesOf_le_one hfeed
    rw [h, List.length_cons] at hlength
    exact absurd (List.length_eq_zero_iff.1 (Nat.le_zero.1 (Nat.succ_le_succ_iff.1 hlength))) hne

/-- A line feed after two carriage returns leaves one of them to its line. -/
theorem exists_mem_go {text : List Char} (h : doubledReturn <:+: text) (before : List Char) :
    ∃ line ∈ linesOf.go before text, line.getLast? = some '\r' := by
  obtain ⟨front, rest, rfl⟩ := h
  induction front generalizing before with
  | nil =>
    refine ⟨('\r' :: before).reverse, List.mem_cons_self, ?_⟩
    rw [List.reverse_cons, List.getLast?_concat]
  | cons c front ih =>
    simp only [List.cons_append]
    by_cases hc : c = '\n'
    · subst hc
      unfold linesOf.go
      obtain ⟨line, hmem, hlast⟩ := ih []
      exact ⟨line, List.mem_cons_of_mem _ hmem, hlast⟩
    · rw [linesOf.go.eq_4 _ _ _ hc]
      exact ih (c :: before)

theorem not_mem_chomp {line : List Char} (h : '\n' ∉ line) : '\n' ∉ chomp line := by
  rcases List.eq_nil_or_concat' line with rfl | ⟨front, c, rfl⟩
  · exact h
  · rw [chomp_concat]
    split
    · exact fun hmem => h (List.mem_append_left _ hmem)
    · exact h

namespace Diagnostics

/-! ## Markers that were written -/

/-- A marker with a line feed in an entry has too many lines. -/
theorem parse?_text_of_feed {d : Diagnostics}
    (h : '\n' ∈ d.hostName.toList ∨ '\n' ∈ d.hostAddress.toList) : parse? d.text = none := by
  have hcount : 4 ≤ d.text.toList.count '\n' := by
    have hname : '\n' ∈ d.hostName.toList → 0 < d.hostName.toList.count '\n' :=
      List.count_pos_iff.2
    have haddress : '\n' ∈ d.hostAddress.toList → 0 < d.hostAddress.toList.count '\n' :=
      List.count_pos_iff.2
    have hfeed : "\n".toList.count '\n' = 1 := by decide
    simp only [text, String.toList_append, List.count_append, hfeed]
    rcases h with h | h
    · have := hname h
      omega
    · have := haddress h
      omega
  have hlines := Nat.le_trans hcount (count_feed_le_length_go [] d.text.toList)
  unfold parse?
  split
  · next name address process hthree =>
    rw [linesOf] at hthree
    rw [hthree] at hlines
    exact absurd hlines (Nat.not_succ_le_self 3)
  · rfl

theorem chomped_eq_self_iff {d : Diagnostics} :
    d.chomped = d ↔
      d.hostName.toList.getLast? ≠ some '\r' ∧ d.hostAddress.toList.getLast? ≠ some '\r' := by
  have hentry : ∀ s : String, String.ofList (chomp s.toList) = s ↔ chomp s.toList = s.toList := by
    intro s
    constructor
    · intro h
      rw [← String.toList_ofList (l := chomp s.toList), h]
    · intro h
      rw [h, String.ofList_toList]
  rw [← chomp_eq_self_iff, ← chomp_eq_self_iff, ← hentry, ← hentry]
  obtain ⟨name, address, process⟩ := d
  simp only [chomped, Diagnostics.mk.injEq, and_true]

/-- A marker is read as what was written just if its entries are lines; an entry with a line feed
makes it unreadable. -/
theorem legible_iff (d : Diagnostics) :
    (parse? d.text = some d ↔ IsLine d.hostName.toList ∧ IsLine d.hostAddress.toList) ∧
      ('\n' ∈ d.hostName.toList ∨ '\n' ∈ d.hostAddress.toList → parse? d.text = none) := by
  refine ⟨?_, parse?_text_of_feed⟩
  by_cases hfeed : '\n' ∈ d.hostName.toList ∨ '\n' ∈ d.hostAddress.toList
  · rw [parse?_text_of_feed hfeed]
    constructor
    · nofun
    · rintro ⟨hname, haddress⟩
      exact absurd hfeed (not_or.2 ⟨hname.1, haddress.1⟩)
  · obtain ⟨hname, haddress⟩ := not_or.1 hfeed
    rw [parse?_text d hname haddress, Option.some_inj, chomped_eq_self_iff]
    exact ⟨fun h => ⟨⟨hname, h.1⟩, haddress, h.2⟩, fun h => ⟨h.1.2, h.2.2⟩⟩

/-! ## Markers that were read -/

/-- A text that can be read consists of the three lines that are read of it. -/
structure ReadFrom (d : Diagnostics) (front middle last : List Char) : Prop where
  name : chomp front = d.hostName.toList
  address : chomp middle = d.hostAddress.toList
  feedless : '\n' ∉ front ∧ '\n' ∉ middle
  process : ∃ line, linesOf last = [line] ∧ Text.readBelow word32 line = some d.processId.toNat

theorem readFrom_of_parse? {t : String} {d : Diagnostics} (h : parse? t = some d) :
    ∃ front middle last, t.toList = front ++ '\n' :: (middle ++ '\n' :: last) ∧
      d.ReadFrom front middle last := by
  unfold parse? at h
  split at h
  · next name address process hlines =>
    obtain ⟨n, hn, rfl⟩ := Option.map_eq_some_iff.1 h
    obtain ⟨front, rest, hfront, hfeed, hname, hrest⟩ :=
      exists_of_linesOf (List.cons_ne_nil _ _) hlines
    obtain ⟨middle, last, rfl, hfeed', haddress, hlast⟩ :=
      exists_of_linesOf (List.cons_ne_nil _ _) hrest
    refine ⟨front, middle, last, hfront, ?_, ?_, ⟨hfeed, hfeed'⟩, process, hlast, ?_⟩
    · rw [hname, String.toList_ofList]
    · rw [haddress, String.toList_ofList]
    · -- the number was read below the limit, so it is a number of a process
      have hbelow : n < word32 := by
        rw [Text.readBelow, Option.filter_eq_some_iff] at hn
        exact of_decide_eq_true hn.2
      rw [UInt32.toNat_ofNat_of_lt' hbelow]
      exact hn
  · cases h

/-- A number ends in a digit. -/
theorem getLast?_of_readBelow {limit n : Nat} {line : List Char}
    (h : Text.readBelow limit line = some n) : line.getLast? ≠ some '\r' := by
  intro hlast
  obtain ⟨front, rfl⟩ := List.getLast?_eq_some_iff.1 hlast
  have hreturn : ∀ digits : List Char, '\r' ∈ digits → digits.all Char.isDigit = false := by
    intro digits hmem
    rw [List.all_eq_false]
    exact ⟨'\r', hmem, by decide⟩
  have hnone : Text.readNatural (front ++ ['\r']) = none := by
    unfold Text.readNatural
    split
    · next rest heq =>
      -- the sign is not the last character
      have hmem : '\r' ∈ rest := by
        have hend : '\r' ∈ '+' :: rest := heq ▸ List.mem_append_right _ List.mem_cons_self
        exact (List.mem_cons.1 hend).resolve_left (by decide)
      simp [hreturn rest hmem]
    · simp [hreturn _ (List.mem_append_right front List.mem_cons_self)]
  rw [Text.readBelow, hnone] at h
  cases h

namespace ReadFrom

variable {d : Diagnostics} {front middle last : List Char}

/-- What is read ends in a carriage return just where there were two before a line feed. -/
theorem chomped_eq_self_iff (h : d.ReadFrom front middle last) :
    d.chomped = d ↔ ¬ doubledReturn <:+: front ++ '\n' :: (middle ++ '\n' :: last) := by
  obtain ⟨line, hlast, hread⟩ := h.process
  rw [Diagnostics.chomped_eq_self_iff, ← h.name, ← h.address, ← not_or, not_iff_not]
  constructor
  · rintro (hname | haddress)
    · obtain ⟨before, rfl⟩ := eq_concat_of_chomp hname
      exact ⟨before, middle ++ '\n' :: last, by simp [doubledReturn]⟩
    · obtain ⟨before, rfl⟩ := eq_concat_of_chomp haddress
      exact ⟨front ++ '\n' :: before, last, by simp [doubledReturn]⟩
  · intro hdoubled
    obtain ⟨l, hmem, hreturn⟩ := exists_mem_go hdoubled []
    have hlines : linesOf (front ++ '\n' :: (middle ++ '\n' :: last)) =
        [chomp front, chomp middle, line] := by
      rw [linesOf_append _ _ h.feedless.1, linesOf_append _ _ h.feedless.2, hlast]
    rw [← linesOf, hlines] at hmem
    rcases List.mem_cons.1 hmem with rfl | hmem
    · exact .inl hreturn
    rcases List.mem_cons.1 hmem with rfl | hmem
    · exact .inr hreturn
    · cases List.mem_singleton.1 hmem
      exact absurd hreturn (getLast?_of_readBelow hread)

/-- What is read has no line feeds, so it is read again, less the carriage returns at its ends. -/
theorem parse?_text (h : d.ReadFrom front middle last) : parse? d.text = some d.chomped := by
  refine Diagnostics.parse?_text d ?_ ?_
  · rw [← h.name]
    exact not_mem_chomp h.feedless.1
  · rw [← h.address]
    exact not_mem_chomp h.feedless.2

end ReadFrom

/-- Whatever is read of a text is read again when it is written, unless the text has a line feed
after two carriage returns. Then what is read loses the carriage returns it ends in, and nothing
else. -/
theorem reread {t : String} {d : Diagnostics} (h : parse? t = some d) :
    (parse? d.text = some d ↔ ¬ doubledReturn <:+: t.toList) ∧ parse? d.text = some d.chomped := by
  obtain ⟨front, middle, last, ht, hread⟩ := readFrom_of_parse? h
  refine ⟨?_, hread.parse?_text⟩
  rw [hread.parse?_text, ht, Option.some_inj]
  exact hread.chomped_eq_self_iff

/-- A marker of another system, with a sign and a zero before the number and no end of the last
line. -/
theorem reread_foreign :
    parse? "host\r\n10.0.0.1\r\n+042" = some ⟨"host", "10.0.0.1", 42⟩ ∧
      (parse? (text ⟨"host", "10.0.0.1", 42⟩) = some ⟨"host", "10.0.0.1", 42⟩ ↔
        ¬ doubledReturn <:+: "host\r\n10.0.0.1\r\n+042".toList) ∧
      parse? (text ⟨"host", "10.0.0.1", 42⟩) = some (chomped ⟨"host", "10.0.0.1", 42⟩) := by
  have hparse : parse? "host\r\n10.0.0.1\r\n+042" = some ⟨"host", "10.0.0.1", 42⟩ := by
    decide +kernel
  exact ⟨hparse, reread hparse⟩

/-- A carriage return that was read is not read again. -/
theorem not_reread : ¬ ∀ {t : String} {d : Diagnostics}, parse? t = some d →
    parse? d.text = some d := by
  intro h
  have hparse : parse? "a\r\r\nb\n1\n" = some ⟨"a\r", "b", 1⟩ := by decide +kernel
  exact absurd (h hparse) (by decide +kernel)

end Diagnostics

end FileGateway

import FileGateway.Lease.Diagnostics

/-!
# Reading markers

The marker of a gateway can be read by every gateway: its three lines are read as what was written,
as long as the host's name and address have no line feeds. A carriage return at the end of a line is
taken for a part of its end, so a name that ends in one loses it.

* `linesOf_append` takes one line off a text;
* `Text.readBelow_toString` reads a number that was written;
* `Diagnostics.parse?_text` puts them together.
-/

namespace FileGateway

/-- What is left of a line when its end is taken off: a carriage return belongs to the end. -/
def chomp (line : List Char) : List Char :=
  match line.reverse with
  | '\r' :: before => before.reverse
  | before => before.reverse

theorem chomp_eq_self {line : List Char} (h : '\r' ∉ line) : chomp line = line := by
  unfold chomp
  split
  · next before hline =>
    refine absurd ?_ h
    rw [← List.mem_reverse, hline]
    exact List.mem_cons_self
  · exact List.reverse_reverse line

/-- Within a line the characters up to the line feed are collected. -/
theorem go_append (before line rest : List Char) (h : '\n' ∉ line) :
    linesOf.go before (line ++ '\n' :: rest) =
      chomp (before.reverse ++ line) :: linesOf.go [] rest := by
  induction line generalizing before with
  | nil =>
    rw [List.nil_append, List.append_nil, chomp, List.reverse_reverse]
    conv => lhs; unfold linesOf.go
    rfl
  | cons c line ih =>
    have hc : c ≠ '\n' := fun heq => h (heq ▸ List.mem_cons_self)
    have hline : '\n' ∉ line := fun hmem => h (List.mem_cons_of_mem c hmem)
    rw [List.cons_append, linesOf.go.eq_4 _ _ _ hc, ih _ hline, List.reverse_cons,
      List.append_assoc]
    rfl

/-- A text begins with what comes before its first line feed. -/
theorem linesOf_append (line rest : List Char) (h : '\n' ∉ line) :
    linesOf (line ++ '\n' :: rest) = chomp line :: linesOf rest :=
  go_append [] line rest h

namespace Text

theorem readNatural_toString (n : Nat) : readNatural (toString n).toList = some n := by
  rw [Nat.toString_eq_repr, Nat.toList_repr]
  have hdigits : ∀ c ∈ Nat.toDigits 10 n, c.isDigit = true := fun c hc =>
    Nat.isDigit_of_mem_toDigits (by decide) (by decide) hc
  have hvalue : (Nat.toDigits 10 n).foldl (fun n c => n * 10 + (c.toNat - '0'.toNat)) 0 = n := by
    have hread := Nat.ofDigitChars_ten_toDigits (n := n)
    rw [Nat.ofDigitChars_eq_foldl] at hread
    simpa only [Nat.mul_comm] using hread
  unfold readNatural
  split
  · next rest hplus =>
    -- no digit is a plus sign
    have hsign := hdigits '+' (hplus ▸ List.mem_cons_self)
    cases hsign
  · have hempty : (Nat.toDigits 10 n).isEmpty = false := by
      rw [List.isEmpty_eq_false_iff]
      exact Nat.toDigits_ne_nil
    have hall : (Nat.toDigits 10 n).all Char.isDigit = true := List.all_eq_true.2 hdigits
    simp only [hempty, hall, Bool.not_true, Bool.or_false, Bool.false_eq_true, if_false, hvalue]

/-- A number that is written in decimal is read as what it is, if it is below the limit. -/
theorem readBelow_toString {limit n : Nat} (h : n < limit) :
    readBelow limit (toString n).toList = some n := by
  rw [readBelow, readNatural_toString]
  simp [h]

end Text

namespace Diagnostics

/-- What is read of a marker. -/
def chomped (d : Diagnostics) : Diagnostics :=
  { d with
    hostName := String.ofList (chomp d.hostName.toList)
    hostAddress := String.ofList (chomp d.hostAddress.toList) }

/-- Whoever reads a marker finds there what was written. -/
theorem parse?_text (d : Diagnostics) (hname : '\n' ∉ d.hostName.toList)
    (haddress : '\n' ∉ d.hostAddress.toList) : parse? d.text = some d.chomped := by
  have hprocess : ∀ c ∈ (toString d.processId.toNat).toList, c.isDigit = true := by
    rw [Nat.toString_eq_repr, Nat.toList_repr]
    exact fun c hc => Nat.isDigit_of_mem_toDigits (by decide) (by decide) hc
  have hfeed : '\n' ∉ (toString d.processId.toNat).toList := fun h => by cases hprocess _ h
  have hreturn : '\r' ∉ (toString d.processId.toNat).toList := fun h => by cases hprocess _ h
  have hlines : linesOf d.text.toList =
      [chomp d.hostName.toList, chomp d.hostAddress.toList,
        (toString d.processId.toNat).toList] := by
    simp only [text, String.toList_append, List.append_assoc]
    change linesOf (d.hostName.toList ++ '\n' :: (d.hostAddress.toList ++ '\n' ::
      ((toString d.processId.toNat).toList ++ '\n' :: []))) = _
    rw [linesOf_append _ _ hname, linesOf_append _ _ haddress, linesOf_append _ _ hfeed,
      chomp_eq_self hreturn]
    rfl
  have hbelow : d.processId.toNat < word32 := d.processId.toNat_lt
  simp only [parse?, hlines, Text.readBelow_toString hbelow, Option.map_some, UInt32.ofNat_toNat]
  rfl

end Diagnostics

end FileGateway

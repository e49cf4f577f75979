import FileGateway.Json.Printer
import FileGateway.Proofs.Json.Spelled

/-!
# Reading what was printed

The text of a value is one of the spellings of that value: its characters are those of its tokens,
with no blanks between them (`Value.spaced_writeChars`). So it is read as that value
(`decode_write`).
-/

namespace FileGateway.Json

/-! ## Strings -/

/-- The characters that are written with their number in hexadecimal. -/
theorem hexDigit_spec : ∀ n < 32,
    IsUnit ['0', '0', Value.hexDigit (n / 16), Value.hexDigit (n % 16)] n := by
  have hdigits : ∀ n < 32,
      (['0', '0', Value.hexDigit (n / 16), Value.hexDigit (n % 16)].all
        fun d => (Token.hexValue? d).isSome) = true ∧
      hexUnit ['0', '0', Value.hexDigit (n / 16), Value.hexDigit (n % 16)] = n := by
    decide
  exact fun n hn => ⟨(hdigits n hn).1, (hdigits n hn).2⟩

theorem escaped_escapeChar (c : Char) : Escaped c (Value.escapeChar c) := by
  unfold Value.escapeChar
  iterate 7
    split
    · next h => subst h; exact .short (by decide)
  split
  · next hlt => exact .unit (hexDigit_spec c.toNat hlt)
  · next hquote hslash _ _ _ _ _ hshown => exact .plain hquote hslash hshown

theorem written_escaped (chars : List Char) : Written chars (chars.flatMap Value.escapeChar) := by
  induction chars with
  | nil => exact .nil
  | cons c chars ih => exact .cons (escaped_escapeChar c) ih

/-! ## Numbers -/

/-- The written number of a natural number. -/
def Numeral.ofNat (n : Nat) : Numeral :=
  ⟨false, Nat.toDigits 10 n, none, none⟩

theorem head?_toDigits {n : Nat} (h : 0 < n) : (Nat.toDigits 10 n).head? ≠ some '0' := by
  induction n using Nat.strongRecOn with
  | ind n ih =>
    by_cases hn : n < 10
    · rw [Nat.toDigits_of_lt_base hn]
      have hdigit : ∀ k < 10, 0 < k → [Nat.digitChar k].head? ≠ some '0' := by decide
      exact hdigit n hn h
    · have hhead := ih (n / 10) (by omega) (by omega)
      rw [Nat.toDigits_of_base_le (by decide) (by omega)]
      cases hdigits : Nat.toDigits 10 (n / 10) with
      | nil => exact absurd hdigits Nat.toDigits_ne_nil
      | cons c front =>
        rw [hdigits] at hhead
        exact hhead

/-- No zero stands before the digits of a number. -/
theorem plain_toDigits (n : Nat) : Plain (Nat.toDigits 10 n) := by
  intro c rest h
  cases n with
  | zero => cases h
  | succ n => exact head?_toDigits (Nat.succ_pos n) (congrArg List.head? h)

theorem Numeral.unsigned_ofNat (n : Nat) : (ofNat n).Unsigned (Nat.toDigits 10 n) := by
  have hdigits : IsDigits (Nat.toDigits 10 n) :=
    ⟨Nat.toDigits_ne_nil, fun _ hc => Nat.isDigit_of_mem_toDigits (by decide) (by decide) hc⟩
  have hread : (ofNat n).Unsigned (Nat.toDigits 10 n ++ ([] ++ [])) :=
    .mk hdigits (plain_toDigits n) .none .none
  rwa [List.append_nil, List.append_nil] at hread

theorem Numeral.value_ofNat {n : Nat} (h : n < word64) : (ofNat n).value = .integer n := by
  have hdigits : digitsValue (Nat.toDigits 10 n) = n := by
    have hread := Nat.ofDigitChars_ten_toDigits (n := n)
    rw [Nat.ofDigitChars_eq_foldl] at hread
    simpa only [digitsValue, Nat.mul_comm] using hread
  simp only [value, ofNat, hdigits, h, if_true]

theorem Tree.natural_ofNat {bits n : Nat} (h : n < Nat.pow 2 bits) (hword : n < word64) :
    (Tree.number (.ofNat n)).natural bits = .ok n := by
  have hrange : (0 : Int) ≤ n ∧ (n : Int) < (Nat.pow 2 bits : Nat) := by omega
  rw [natural, Numeral.value_ofNat hword]
  simp only [hrange, and_self, if_true, Int.toNat_natCast]

/-! ## Tokens -/

/-- Blanks may stand before the first token. -/
theorem Spaced.indent {tokens : List Token} {chars gap : List Char} (h : Spaced tokens chars)
    (blank : ∀ c ∈ gap, Token.isSpace c = true) : Spaced tokens (gap ++ chars) := by
  have hblank : ∀ {inner : List Char}, (∀ c ∈ inner, Token.isSpace c = true) →
      ∀ c ∈ gap ++ inner, Token.isSpace c = true := fun hinner c hc =>
    (List.mem_append.1 hc).elim (blank c) (hinner c)
  cases h with
  | nil inner => exact .nil (hblank inner)
  | cons inner spelled tail =>
    rw [← List.append_assoc]
    exact .cons (hblank inner) spelled tail

theorem Spaced.append {tokens others : List Token} {chars rest : List Char}
    (h : Spaced tokens chars) (h' : Spaced others rest) :
    Spaced (tokens ++ others) (chars ++ rest) := by
  induction h with
  | nil blank => exact h'.indent blank
  | cons blank spelled tail ih =>
    rw [List.append_assoc, List.append_assoc]
    exact .cons blank spelled ih

/-- A token that follows without blanks. -/
theorem Spaced.adjoin {token : Token} {tokens : List Token} {chars rest : List Char}
    (spelled : token.Spelled chars) (h : Spaced tokens rest) :
    Spaced (token :: tokens) (chars ++ rest) :=
  .cons (List.forall_mem_nil _) spelled h

/-! ## Values -/

namespace Value

mutual

/-- The tree of the text of a value. -/
def tree : Value → Tree
  | null => .null
  | bool value => .bool value
  | number n => .number (.ofNat n)
  | string text => .string (text.toList.flatMap escapeChar)
  | array items => .array (itemTrees items) none
  | object members => .object (memberTrees members) none

/-- The trees of the items of an array. -/
def itemTrees : List Value → List Tree
  | [] => []
  | item :: rest => tree item :: itemTrees rest

/-- The trees of the members of an object. -/
def memberTrees : List (String × Value) → List (Tree × Tree)
  | [] => []
  | (key, value) :: rest =>
    (.string (key.toList.flatMap escapeChar), tree value) :: memberTrees rest

end

theorem spelled_writeString (text : String) :
    Token.Spelled (.string (text.toList.flatMap escapeChar)) (writeString text) :=
  .string (written_escaped text.toList).quotable

theorem spaced_nil : Spaced [] [] :=
  .nil (List.forall_mem_nil _)

theorem spaced_singleton {token : Token} {chars : List Char} (spelled : token.Spelled chars) :
    Spaced [token] chars := by
  have h := Spaced.adjoin spelled spaced_nil
  rwa [List.append_nil] at h

mutual

/-- The characters of a value are a spelling of its tokens. -/
theorem spaced_writeChars (value : Value) : Spaced value.tree.tokens value.writeChars := by
  match value with
  | null => exact spaced_singleton .null
  | bool true => exact spaced_singleton .yes
  | bool false => exact spaced_singleton .no
  | number n => exact spaced_singleton (.positive rfl (Numeral.unsigned_ofNat n))
  | string text => exact spaced_singleton (spelled_writeString text)
  | array items => exact .adjoin .openArray (spaced_writeItems items)
  | object members => exact .adjoin .openObject (spaced_writeMembers members)

theorem spaced_writeItems (items : List Value) : Spaced (Tree.itemTokens (itemTrees items))
    (commaSeparated (writeItems items) ++ [']']) := by
  match items with
  | [] => exact spaced_singleton .closeArray
  | [item] => exact (spaced_writeChars item).append (spaced_singleton .closeArray)
  | item :: next :: items =>
    have hnext := spaced_writeItems (next :: items)
    have hitem := (spaced_writeChars item).append (.adjoin .comma hnext)
    rw [writeItems, writeItems, commaSeparated, List.append_assoc]
    · exact hitem
    · exact nofun

theorem spaced_writeMembers (members : List (String × Value)) :
    Spaced (Tree.memberTokens (memberTrees members))
      (commaSeparated (writeMembers members) ++ ['\x7d']) := by
  match members with
  | [] => exact spaced_singleton .closeObject
  | [(key, value)] =>
    have hvalue := (spaced_writeChars value).append (spaced_singleton .closeObject)
    rw [writeMembers, writeMembers, commaSeparated, List.append_assoc, List.cons_append]
    exact .adjoin (spelled_writeString key) (.adjoin .colon hvalue)
  | (key, value) :: next :: members =>
    have hnext := spaced_writeMembers (next :: members)
    have hvalue := (spaced_writeChars value).append (.adjoin .comma hnext)
    rw [writeMembers, writeMembers, commaSeparated, List.append_assoc, List.append_assoc,
      List.cons_append]
    · exact .adjoin (spelled_writeString key) (.adjoin .colon hvalue)
    · exact nofun

end

theorem spells_write (value : Value) : Spells value.tree value.write := by
  rw [Spells, write, String.toList_ofList]
  exact spaced_writeChars value

end Value

/-- A text that was printed is decoded as its value is. -/
theorem decode_write {α : Type} {decoder : Tree → Decoded α} {value : Value} {a : α}
    (h : decoder value.tree = .ok a) : decode decoder value.write = .ok a :=
  (decode_spelled value.spells_write decoder).trans h

end FileGateway.Json

import FileGateway.Json.Decode
import Mathlib.Data.List.Chain

/-!
# The texts of a JSON value

JSON leaves it to the writer which blanks stand between the tokens of a value and how the characters
of a string are escaped. The texts of a value are given here as a grammar: a value has its tokens
(`Tree.tokens`), a token has its spellings (`Token.Spelled`), and blanks may stand around each of
them (`Spaced`). Every such text is read as the value, so a decoder makes of the text what it makes
of the value (`decode_spelled`).
-/

namespace FileGateway.Json

/-! ## Strings -/

/-- Four hexadecimal digits, in either case, and their number. -/
structure IsUnit (digits : List Char) (n : Nat) : Prop where
  hex : (digits.all fun d => (Token.hexValue? d).isSome) = true
  value : hexUnit digits = n

/-- The characters that may be escaped by a letter, each behind its letter. -/
def shortEscapes : List (Char × Char) :=
  [('"', '"'), ('\\', '\\'), ('/', '/'), ('b', '\x08'), ('f', '\x0c'), ('n', '\n'), ('r', '\r'),
    ('t', '\t')]

/-- What may stand between quotes. Some of it has no text, for half of a surrogate pair may stand
alone. -/
inductive Quotable : List Char → Prop where
  | nil : Quotable []
  | plain {c : Char} {raw : List Char} (quote : c ≠ '"') (slash : c ≠ '\\') (shown : ¬c < ' ')
    (tail : Quotable raw) : Quotable (c :: raw)
  | short {letter c : Char} {raw : List Char} (known : (letter, c) ∈ shortEscapes)
    (tail : Quotable raw) : Quotable ('\\' :: letter :: raw)
  | unit {i j k l : Char} {n : Nat} {raw : List Char} (digits : IsUnit [i, j, k, l] n)
    (tail : Quotable raw) : Quotable ('\\' :: 'u' :: i :: j :: k :: l :: raw)

/-- The ways of writing a character in a string. Beyond the first plane it is a surrogate pair. -/
inductive Escaped (c : Char) : List Char → Prop where
  | plain (quote : c ≠ '"') (slash : c ≠ '\\') (shown : ¬c < ' ') : Escaped c [c]
  | short {letter : Char} (known : (letter, c) ∈ shortEscapes) : Escaped c ['\\', letter]
  | unit {i j k l : Char} (digits : IsUnit [i, j, k, l] c.toNat) : Escaped c ['\\', 'u', i, j, k, l]
  | pair {i j k l m n o p : Char} (beyond : 0x10000 ≤ c.toNat)
    (first : IsUnit [i, j, k, l] (0xd800 + (c.toNat - 0x10000) / 0x400))
    (second : IsUnit [m, n, o, p] (0xdc00 + (c.toNat - 0x10000) % 0x400)) :
    Escaped c ['\\', 'u', i, j, k, l, '\\', 'u', m, n, o, p]

/-- The ways of writing a text between quotes. -/
inductive Written : List Char → List Char → Prop where
  | nil : Written [] []
  | cons {c : Char} {front chars raw : List Char} (head : Escaped c front)
    (tail : Written chars raw) : Written (c :: chars) (front ++ raw)

theorem Written.quotable {chars raw : List Char} (h : Written chars raw) : Quotable raw := by
  induction h with
  | nil => exact .nil
  | cons head tail ih =>
    cases head with
    | plain quote slash shown => exact .plain quote slash shown ih
    | short known => exact .short known ih
    | unit digits => exact .unit digits ih
    | pair beyond first second => exact .unit first (.unit second ih)

/-- A string ends at the first quote that is not escaped. -/
theorem Quotable.quoted {raw : List Char} (h : Quotable raw) (rest : List Char) :
    Token.quoted (raw ++ '"' :: rest) = .closed raw := by
  induction h with
  | nil => rfl
  | @plain c raw quote slash shown tail ih =>
    have hstep : Token.quoted (c :: (raw ++ '"' :: rest)) =
        (Token.quoted (raw ++ '"' :: rest)).prepend [c] := by
      simp [Token.quoted, slash, shown]
    rw [List.cons_append, hstep, ih]
    rfl
  | @short letter c raw known tail ih =>
    have hletter : letter ∈ shortEscapes.map Prod.fst := List.mem_map_of_mem known
    have hstep : Token.quoted ('\\' :: letter :: (raw ++ '"' :: rest)) =
        (Token.quoted (raw ++ '"' :: rest)).prepend ['\\', letter] := by
      simp only [shortEscapes, List.map_cons, List.map_nil, List.mem_cons, List.not_mem_nil,
        or_false] at hletter
      rcases hletter with rfl | rfl | rfl | rfl | rfl | rfl | rfl | rfl <;> rfl
    rw [List.cons_append, List.cons_append, hstep, ih]
    rfl
  | unit digits tail ih =>
    simp only [List.cons_append]
    rw [Token.quoted, if_pos digits.hex, ih]
    rfl

/-- Four hexadecimal digits that are no half of a surrogate pair are a character. -/
theorem unescape_unit {i j k l : Char} {n : Nat} (hunit : hexUnit [i, j, k, l] = n)
    (hlow : isLowSurrogate n = false) (hhigh : isHighSurrogate n = false) (rest : List Char) :
    unescape ('\\' :: 'u' :: i :: j :: k :: l :: rest) =
      (unescape rest).prepend (Char.ofNat n) := by
  conv => lhs; unfold unescape
  subst hunit
  simp only [hlow, hhigh, Bool.false_eq_true, if_false]

/-- Two halves of a surrogate pair are one character. -/
theorem unescape_pair {i j k l m n o p : Char} {high low : Nat}
    (hfirst : hexUnit [i, j, k, l] = high) (hsecond : hexUnit [m, n, o, p] = low)
    (hhigh : isHighSurrogate high = true) (hlow : isLowSurrogate low = true) (rest : List Char) :
    unescape ('\\' :: 'u' :: i :: j :: k :: l :: '\\' :: 'u' :: m :: n :: o :: p :: rest) =
      (unescape rest).prepend
        (Char.ofNat (0x10000 + (high - 0xd800) * 0x400 + (low - 0xdc00))) := by
  have hnot : isLowSurrogate high = false := by
    simp only [isHighSurrogate, isLowSurrogate, Bool.and_eq_true, decide_eq_true_eq,
      Bool.and_eq_false_iff, decide_eq_false_iff_not] at hhigh ⊢
    omega
  conv => lhs; unfold unescape
  subst hfirst hsecond
  simp only [hnot, hhigh, hlow, Bool.false_eq_true, if_false, if_true]

/-- Every character is read as what it was written for. -/
theorem unescape_escaped {c : Char} {front : List Char} (h : Escaped c front) (rest : List Char) :
    unescape (front ++ rest) = (unescape rest).prepend c := by
  have hvalid : c.toNat < 0xd800 ∨ 0xdfff < c.toNat ∧ c.toNat < 0x110000 := c.valid
  cases h with
  | plain quote slash shown => simp [unescape, slash]
  | @short letter known =>
    simp only [shortEscapes, List.mem_cons, Prod.mk.injEq, List.not_mem_nil, or_false] at known
    rcases known with ⟨rfl, rfl⟩ | ⟨rfl, rfl⟩ | ⟨rfl, rfl⟩ | ⟨rfl, rfl⟩ | ⟨rfl, rfl⟩ | ⟨rfl, rfl⟩ |
      ⟨rfl, rfl⟩ | ⟨rfl, rfl⟩ <;> rfl
  | unit digits =>
    have hlow : isLowSurrogate c.toNat = false := by simp [isLowSurrogate]; omega
    have hhigh : isHighSurrogate c.toNat = false := by simp [isHighSurrogate]; omega
    have hread := unescape_unit digits.value hlow hhigh rest
    rwa [Char.ofNat_toNat] at hread
  | pair beyond first second =>
    have hhigh : isHighSurrogate (0xd800 + (c.toNat - 0x10000) / 0x400) = true := by
      simp [isHighSurrogate]; omega
    have hlow : isLowSurrogate (0xdc00 + (c.toNat - 0x10000) % 0x400) = true := by
      simp [isLowSurrogate]; omega
    have hjoin : 0x10000 + (0xd800 + (c.toNat - 0x10000) / 0x400 - 0xd800) * 0x400 +
        (0xdc00 + (c.toNat - 0x10000) % 0x400 - 0xdc00) = c.toNat := by omega
    have hread := unescape_pair first.value second.value hhigh hlow rest
    rwa [hjoin, Char.ofNat_toNat] at hread

theorem textOf_written {text : String} {raw : List Char} (h : Written text.toList raw) :
    textOf raw = .ok text := by
  have hread : ∀ {chars raw : List Char}, Written chars raw → unescape raw = .text chars := by
    intro chars raw hw
    induction hw with
    | nil => rfl
    | cons head tail ih =>
      rw [unescape_escaped head, ih]
      rfl
  rw [textOf, hread h]
  exact congrArg Except.ok String.ofList_toList

/-! ## Numbers -/

/-- Decimal digits. -/
structure IsDigits (digits : List Char) : Prop where
  nonempty : digits ≠ []
  decimal : ∀ c ∈ digits, c.isDigit = true

/-- Digits of which a zero comes first only if it is the only one. -/
def Plain (digits : List Char) : Prop :=
  ∀ c rest, digits ≠ '0' :: c :: rest

/-- How a fraction is written, if there is one. -/
inductive IsFraction : Option (List Char) → List Char → Prop where
  | none : IsFraction none []
  | some {digits : List Char} (h : IsDigits digits) : IsFraction (some digits) ('.' :: digits)

/-- How an exponent is written, if there is one. -/
inductive IsExponent : Option (Bool × List Char) → List Char → Prop where
  | none : IsExponent none []
  | bare {e : Char} {digits : List Char} (he : e = 'e' ∨ e = 'E') (h : IsDigits digits) :
    IsExponent (some (false, digits)) (e :: digits)
  | plus {e : Char} {digits : List Char} (he : e = 'e' ∨ e = 'E') (h : IsDigits digits) :
    IsExponent (some (false, digits)) (e :: '+' :: digits)
  | minus {e : Char} {digits : List Char} (he : e = 'e' ∨ e = 'E') (h : IsDigits digits) :
    IsExponent (some (true, digits)) (e :: '-' :: digits)

/-- How a number is written without its sign. -/
inductive Numeral.Unsigned : Numeral → List Char → Prop where
  | mk {negative : Bool} {whole fraction exponent : List Char} {f : Option (List Char)}
    {e : Option (Bool × List Char)} (digits : IsDigits whole) (plain : Plain whole)
    (hf : IsFraction f fraction) (he : IsExponent e exponent) :
    Unsigned ⟨negative, whole, f, e⟩ (whole ++ (fraction ++ exponent))

namespace Token

/-- Whether a number stops before a text. -/
def Stops (rest : List Char) : Prop :=
  ∀ c ∈ rest.head?, c.isDigit = false ∧ c ≠ '.' ∧ c ≠ 'e' ∧ c ≠ 'E'

theorem digits_append {found rest : List Char} (h : IsDigits found)
    (hrest : ∀ c ∈ rest.head?, c.isDigit = false) : digits (found ++ rest) = .ok (found, rest) := by
  have hover : rest.takeWhile Char.isDigit = [] ∧ rest.dropWhile Char.isDigit = rest := by
    cases rest with
    | nil => exact ⟨rfl, rfl⟩
    | cons c rest =>
      have hc := hrest c rfl
      simp [hc]
  rw [digits, List.takeWhile_append_of_pos h.decimal, List.dropWhile_append_of_pos h.decimal,
    hover.1, hover.2, List.append_nil]
  cases found with
  | nil => exact absurd rfl h.nonempty
  | cons c found => rfl

theorem wholeDigits_append {found rest : List Char} (h : IsDigits found) (hplain : Plain found)
    (hrest : ∀ c ∈ rest.head?, c.isDigit = false) :
    wholeDigits (found ++ rest) = .ok (found, rest) := by
  simp only [wholeDigits, digits_append h hrest, bind, Except.bind]
  split
  · next c more => exact absurd rfl (hplain c more)
  · rfl

theorem fractionDigits_append {f : Option (List Char)} {fraction rest : List Char}
    (h : IsFraction f fraction) (hrest : ∀ c ∈ rest.head?, c.isDigit = false ∧ c ≠ '.') :
    fractionDigits (fraction ++ rest) = .ok (f, rest) := by
  cases h with
  | none =>
    rw [List.nil_append]
    unfold fractionDigits
    split
    · exact absurd rfl (hrest '.' rfl).2
    · rfl
  | some h =>
    simp only [List.cons_append, fractionDigits, digits_append h fun c hc => (hrest c hc).1]
    rfl

theorem exponentDigits_append {e : Option (Bool × List Char)} {exponent rest : List Char}
    (h : IsExponent e exponent) (hstops : Stops rest) :
    exponentDigits (exponent ++ rest) = .ok (e, rest) := by
  have hdigit : ∀ c ∈ rest.head?, c.isDigit = false := fun c hc => (hstops c hc).1
  have hmark : ∀ {c : Char}, c = 'e' ∨ c = 'E' → (c == 'e' || c == 'E') = true := by
    rintro c (rfl | rfl) <;> rfl
  cases h with
  | none =>
    cases rest with
    | nil => rfl
    | cons c rest =>
      obtain ⟨-, -, hsmall, hlarge⟩ := hstops c rfl
      simp [exponentDigits, hsmall, hlarge]
  | @bare c digits he h =>
    cases digits with
    | nil => exact absurd rfl h.nonempty
    | cons d digits =>
      have hd := h.decimal d List.mem_cons_self
      simp only [List.cons_append, exponentDigits, hmark he, if_true]
      split
      · next heq => cases heq; cases hd
      · next heq => cases heq; cases hd
      · rw [← List.cons_append, digits_append h hdigit]
        rfl
  | plus he h =>
    simp only [List.cons_append, exponentDigits, hmark he, if_true, digits_append h hdigit]
    rfl
  | minus he h =>
    simp only [List.cons_append, exponentDigits, hmark he, if_true, digits_append h hdigit]
    rfl

/-- An exponent, or what stops a number, goes on neither with digits nor with a fraction. -/
theorem head_exponent {e : Option (Bool × List Char)} {exponent rest : List Char}
    (h : IsExponent e exponent) (hstops : Stops rest) :
    ∀ c ∈ (exponent ++ rest).head?, c.isDigit = false ∧ c ≠ '.' := by
  have hmark : ∀ {c : Char}, c = 'e' ∨ c = 'E' → c.isDigit = false ∧ c ≠ '.' := by
    rintro c (rfl | rfl) <;> decide
  intro c hc
  cases h with
  | none => exact ⟨(hstops c hc).1, (hstops c hc).2.1⟩
  | bare he => cases hc; exact hmark he
  | plus he => cases hc; exact hmark he
  | minus he => cases hc; exact hmark he

theorem numeral_unsigned {n : Numeral} {chars rest : List Char} (h : n.Unsigned chars)
    (hstops : Stops rest) : numeral n.negative (chars ++ rest) = .ok (n, rest) := by
  obtain ⟨digits, plain, hf, he⟩ := h
  rename_i negative whole fraction exponent f e
  have hexponent := head_exponent he hstops
  have hfraction : ∀ c ∈ (fraction ++ (exponent ++ rest)).head?, c.isDigit = false := by
    intro c hc
    cases hf with
    | none => exact (hexponent c hc).1
    | some => cases hc; rfl
  rw [List.append_assoc, List.append_assoc, numeral, wholeDigits_append digits plain hfraction]
  change (fractionDigits _ >>= _) = _
  rw [fractionDigits_append hf hexponent]
  change (exponentDigits _ >>= _) = _
  rw [exponentDigits_append he hstops]
  rfl

theorem ofNumeral_unsigned {n : Numeral} {chars rest : List Char} (h : n.Unsigned chars)
    (hstops : Stops rest) : ofNumeral n.negative (chars ++ rest) 0 = (number n, chars.length) := by
  rw [ofNumeral, numeral_unsigned h hstops]
  simp only [List.length_append, Prod.mk.injEq, true_and]
  omega

end Token

/-! ## Tokens -/

namespace Token

/-- The spellings of a token. A token that broke off has none. -/
inductive Spelled : Token → List Char → Prop where
  | openObject : Spelled openObject ['\x7b']
  | closeObject : Spelled closeObject ['\x7d']
  | openArray : Spelled openArray ['[']
  | closeArray : Spelled closeArray [']']
  | colon : Spelled colon [':']
  | comma : Spelled comma [',']
  | null : Spelled null ['n', 'u', 'l', 'l']
  | yes : Spelled (bool true) ['t', 'r', 'u', 'e']
  | no : Spelled (bool false) ['f', 'a', 'l', 's', 'e']
  | positive {n : Numeral} {chars : List Char} (sign : n.negative = false) (h : n.Unsigned chars) :
    Spelled (number n) chars
  | negative {n : Numeral} {chars : List Char} (sign : n.negative = true) (h : n.Unsigned chars) :
    Spelled (number n) ('-' :: chars)
  | string {raw : List Char} (h : Quotable raw) :
    Spelled (string raw) ('"' :: (raw ++ ['"']))

/-- Whether a token is a number, whose end is not seen before what follows it is. -/
def isNumber : Token → Bool
  | number _ => true
  | _ => false

/-- Whether a token stands between values, or at their end. -/
def isMark : Token → Bool
  | closeObject => true
  | closeArray => true
  | colon => true
  | comma => true
  | _ => false

/-- Whether a token was read to its end. -/
def isWhole : Token → Bool
  | broken _ _ => false
  | _ => true

/-- What belongs to a token already read is passed over. -/
theorem sequenceFrom_append (front rest : List Char) :
    sequenceFrom front.length (front ++ rest) = sequenceFrom 0 rest := by
  induction front with
  | nil => rfl
  | cons c front ih => exact ih

/-- After a token the rest is read. -/
theorem sequenceFrom_cons {c : Char} {front rest : List Char} {token : Token}
    (hspace : isSpace c = false) (hnext : next c (front ++ rest) = (token, front.length))
    (hwhole : token.isWhole = true) :
    sequenceFrom 0 (c :: (front ++ rest)) = token :: sequenceFrom 0 rest := by
  rw [sequenceFrom, hspace, hnext, ← sequenceFrom_append front rest]
  cases token with
  | broken part why => cases hwhole
  | _ => rfl

theorem next_of_isDigit {c : Char} (h : c.isDigit = true) (rest : List Char) :
    next c rest = ((ofNumeral false (c :: rest) 0).1, (ofNumeral false (c :: rest) 0).2 - 1) := by
  have hne : ∀ d : Char, d.isDigit = false → c ≠ d := fun d hd heq => by
    rw [heq, hd] at h
    cases h
  simp only [next, hne '\x7b' rfl, hne '\x7d' rfl, hne '[' rfl, hne ']' rfl, hne ':' rfl,
    hne ',' rfl, hne 'n' rfl, hne 't' rfl, hne 'f' rfl, hne '"' rfl, hne '-' rfl, h, if_true,
    if_false]

theorem not_isSpace_of_isDigit {c : Char} (h : c.isDigit = true) : isSpace c = false := by
  have hne : ∀ d : Char, d.isDigit = false → (c == d) = false := fun d hd =>
    beq_eq_false_iff_ne.2 fun heq => by
      rw [heq, hd] at h
      cases h
  simp only [isSpace, hne ' ' rfl, hne '\n' rfl, hne '\t' rfl, hne '\r' rfl, Bool.or_false]

/-- A token is read, and what follows it. -/
theorem sequenceFrom_spelled {token : Token} {chars rest : List Char} (h : token.Spelled chars)
    (hstops : token.isNumber = true → Stops rest) :
    sequenceFrom 0 (chars ++ rest) = token :: sequenceFrom 0 rest := by
  cases h with
  | @positive n _ sign h =>
    have hread := ofNumeral_unsigned h (hstops rfl)
    rw [sign] at hread
    obtain ⟨c, more, rfl, hc⟩ : ∃ c more, chars = c :: more ∧ c.isDigit = true := by
      obtain ⟨digits⟩ := h
      obtain ⟨c, more, rfl⟩ := List.exists_cons_of_ne_nil digits.nonempty
      exact ⟨c, _, rfl, digits.decimal c List.mem_cons_self⟩
    refine sequenceFrom_cons (not_isSpace_of_isDigit hc) ?_ rfl
    rw [next_of_isDigit hc, ← List.cons_append, hread]
    rfl
  | @negative n chars sign h =>
    have hread := ofNumeral_unsigned h (hstops rfl)
    rw [sign] at hread
    exact sequenceFrom_cons rfl hread rfl
  | @string raw h =>
    refine sequenceFrom_cons rfl ?_ rfl
    rw [List.append_assoc, List.singleton_append, List.length_append]
    unfold next
    simp only [Char.reduceEq, if_false, if_true, h.quoted]
    rfl
  | _ => rfl

end Token

/-- Texts of tokens, with blanks around each of them. -/
inductive Spaced : List Token → List Char → Prop where
  | nil {gap : List Char} (blank : ∀ c ∈ gap, Token.isSpace c = true) : Spaced [] gap
  | cons {token : Token} {tokens : List Token} {gap chars rest : List Char}
    (blank : ∀ c ∈ gap, Token.isSpace c = true) (spelled : token.Spelled chars)
    (tail : Spaced tokens rest) : Spaced (token :: tokens) (gap ++ (chars ++ rest))

/-- A number is followed by a mark, if by anything. -/
def Separate (tokens : List Token) : Prop :=
  tokens.IsChain fun token next => token.isNumber = true → next.isMark = true

namespace Token

theorem sequenceFrom_blank {gap : List Char} (blank : ∀ c ∈ gap, isSpace c = true)
    (rest : List Char) : sequenceFrom 0 (gap ++ rest) = sequenceFrom 0 rest := by
  induction gap with
  | nil => rfl
  | cons c gap ih =>
    rw [List.cons_append, sequenceFrom, if_pos (blank c List.mem_cons_self)]
    exact ih fun c hc => blank c (List.mem_cons_of_mem _ hc)

/-- A number stops before blanks and before a mark. -/
theorem stops_of_spaced {tokens : List Token} {chars : List Char} (h : Spaced tokens chars)
    (hmark : ∀ token ∈ tokens.head?, token.isMark = true) : Stops chars := by
  have hblank : ∀ c, isSpace c = true → c.isDigit = false ∧ c ≠ '.' ∧ c ≠ 'e' ∧ c ≠ 'E' := by
    intro c hc
    simp only [isSpace, Bool.or_eq_true, beq_iff_eq] at hc
    rcases hc with ((rfl | rfl) | rfl) | rfl <;> decide
  intro c hc
  cases h with
  | nil blank => exact hblank c (blank c (List.mem_of_mem_head? hc))
  | @cons token tokens gap spelling rest blank spelled tail =>
    cases gap with
    | cons d gap =>
      cases hc
      exact hblank _ (blank _ List.mem_cons_self)
    | nil =>
      have htoken := hmark token rfl
      cases spelled with
      | closeObject => cases hc; decide
      | closeArray => cases hc; decide
      | colon => cases hc; decide
      | comma => cases hc; decide
      | _ => cases htoken

/-- The tokens of a text are read. -/
theorem sequenceFrom_spaced {tokens : List Token} {chars : List Char} (h : Spaced tokens chars)
    (hseparate : Separate tokens) : sequenceFrom 0 chars = tokens := by
  induction h with
  | nil blank =>
    have hread := sequenceFrom_blank blank []
    rwa [List.append_nil] at hread
  | cons blank spelled tail ih =>
    obtain ⟨hnext, hrest⟩ := List.isChain_cons.1 hseparate
    rw [sequenceFrom_blank blank, sequenceFrom_spelled spelled, ih hrest]
    exact fun hnumber => stops_of_spaced tail fun next hmem => hnext next hmem hnumber

end Token

/-! ## Values -/

namespace Tree

/-- The token of a key. Nothing but a string is one. -/
def keyToken : Tree → Token
  | string raw => .string raw
  | _ => .broken .nothing .malformed

mutual

/-- The tokens of a value. What is cut off is no value, and has a token without spelling. -/
def tokens : Tree → List Token
  | null => [.null]
  | bool value => [.bool value]
  | number numeral => [.number numeral]
  | string raw => [.string raw]
  | array items none => .openArray :: itemTokens items
  | array _ (some why) => [.broken .nothing why]
  | object members none => .openObject :: memberTokens members
  | object _ (some why) => [.broken .nothing why]
  | broken part why => [.broken part why]

/-- The tokens of the items of an array, up to its end. -/
def itemTokens : List Tree → List Token
  | [] => [.closeArray]
  | [item] => tokens item ++ [.closeArray]
  | item :: next :: rest => tokens item ++ .comma :: itemTokens (next :: rest)

/-- The tokens of the members of an object, up to its end. -/
def memberTokens : List (Tree × Tree) → List Token
  | [] => [.closeObject]
  | [(key, value)] => keyToken key :: .colon :: (tokens value ++ [.closeObject])
  | (key, value) :: next :: rest =>
    keyToken key :: .colon :: (tokens value ++ .comma :: memberTokens (next :: rest))

end

/-- What is read when a value between frames is finished. -/
def resume (frames : List Frame) (value : Tree) (rest : List Token) : Tree × List Token :=
  match settle frames value with
  | .inl whole => (whole, rest)
  | .inr (expected, frames) => build expected frames rest

theorem eq_string_of_isWhole {key : Tree} (h : (keyToken key).isWhole = true) :
    ∃ raw, key = string raw := by
  cases key with
  | string raw => exact ⟨raw, rfl⟩
  | _ => cases h

theorem isNumber_keyToken (key : Tree) : (keyToken key).isNumber = false := by
  cases key <;> rfl

theorem separate_append_mark {tokens rest : List Token} {mark : Token} (hmark : mark.isMark = true)
    (h : Separate tokens) (hrest : Separate rest) : Separate (tokens ++ mark :: rest) := by
  refine List.isChain_append.2 ⟨h, List.isChain_cons.2 ⟨fun next _ hnumber => ?_, hrest⟩, ?_⟩
  · cases mark with
    | number n => cases hmark
    | _ => cases hnumber
  · rintro token - next hnext -
    cases hnext
    exact hmark

theorem separate_cons {token : Token} {rest : List Token} (htoken : token.isNumber = false)
    (hrest : Separate rest) : Separate (token :: rest) :=
  List.isChain_cons.2 ⟨fun _ _ hnumber => absurd hnumber (htoken ▸ Bool.false_ne_true), hrest⟩

mutual

theorem separate_tokens (tree : Tree) : Separate tree.tokens := by
  match tree with
  | null => exact List.isChain_singleton _
  | bool value => exact List.isChain_singleton _
  | number numeral => exact List.isChain_singleton _
  | string raw => exact List.isChain_singleton _
  | array items none => exact separate_cons rfl (separate_itemTokens items)
  | array items (some why) => exact List.isChain_singleton _
  | object members none => exact separate_cons rfl (separate_memberTokens members)
  | object members (some why) => exact List.isChain_singleton _
  | broken part why => exact List.isChain_singleton _

theorem separate_itemTokens (items : List Tree) : Separate (itemTokens items) := by
  match items with
  | [] => exact List.isChain_singleton _
  | [item] => exact separate_append_mark rfl (separate_tokens item) .nil
  | item :: next :: rest =>
    exact separate_append_mark rfl (separate_tokens item) (separate_itemTokens (next :: rest))

theorem separate_memberTokens (members : List (Tree × Tree)) : Separate (memberTokens members) := by
  match members with
  | [] => exact List.isChain_singleton _
  | [(key, value)] =>
    exact separate_cons (isNumber_keyToken key) (separate_cons rfl
      (separate_append_mark rfl (separate_tokens value) .nil))
  | (key, value) :: next :: rest =>
    exact separate_cons (isNumber_keyToken key) (separate_cons rfl
      (separate_append_mark rfl (separate_tokens value) (separate_memberTokens (next :: rest))))

end

/-- Where an array may end, its first item may stand as well. -/
theorem build_itemOrClose (tree : Tree) (frames : List Frame) (rest : List Token) :
    build .itemOrClose frames (tree.tokens ++ rest) =
      build .value (.item [] :: frames) (tree.tokens ++ rest) := by
  match tree with
  | null => rfl
  | bool value => rfl
  | number numeral => rfl
  | string raw => rfl
  | array items none => rfl
  | array items (some why) => rfl
  | object members none => rfl
  | object members (some why) => rfl
  | broken part why => rfl

mutual

/-- A value is built from its tokens, whatever follows them. -/
theorem build_tokens (tree : Tree) (h : ∀ token ∈ tree.tokens, token.isWhole = true)
    (frames : List Frame) (rest : List Token) :
    build .value frames (tree.tokens ++ rest) = resume frames tree rest := by
  match tree with
  | null => rfl
  | bool value => rfl
  | number numeral => rfl
  | string raw => rfl
  | array [] none => rfl
  | array (item :: items) none =>
    have hitems := build_itemTokens (item :: items) (List.cons_ne_nil _ _)
      (fun token hmem => h token (List.mem_cons_of_mem _ hmem)) [] frames rest
    rw [tokens, List.cons_append]
    change build .itemOrClose frames _ = _
    cases items with
    | nil =>
      rw [itemTokens, List.append_assoc] at hitems ⊢
      rw [build_itemOrClose, hitems]
      rfl
    | cons next items =>
      rw [itemTokens, List.append_assoc] at hitems ⊢
      rw [build_itemOrClose, hitems]
      rfl
  | array items (some why) => exact absurd (h _ List.mem_cons_self) Bool.false_ne_true
  | object [] none => rfl
  | object ((key, value) :: members) none =>
    have hwhole : ∀ token ∈ memberTokens ((key, value) :: members), token.isWhole = true :=
      fun token hmem => h token (List.mem_cons_of_mem _ hmem)
    have hmembers := build_memberTokens ((key, value) :: members) (List.cons_ne_nil _ _) hwhole []
      frames rest
    rw [tokens, List.cons_append]
    change build .keyOrClose frames _ = _
    cases members with
    | nil =>
      obtain ⟨raw, rfl⟩ := eq_string_of_isWhole (hwhole _ List.mem_cons_self)
      exact hmembers
    | cons next members =>
      obtain ⟨raw, rfl⟩ := eq_string_of_isWhole (hwhole _ List.mem_cons_self)
      exact hmembers
  | object members (some why) => exact absurd (h _ List.mem_cons_self) Bool.false_ne_true
  | broken part why => exact absurd (h _ List.mem_cons_self) Bool.false_ne_true

/-- The items of an array are read one after another. -/
theorem build_itemTokens (items : List Tree) (hne : items ≠ [])
    (h : ∀ token ∈ itemTokens items, token.isWhole = true) (before : List Tree)
    (frames : List Frame) (rest : List Token) :
    build .value (.item before :: frames) (itemTokens items ++ rest) =
      resume frames (.array (before.reverse ++ items) none) rest := by
  match items with
  | [item] =>
    have hitem := build_tokens item (fun token hmem => h token (List.mem_append_left _ hmem))
      (.item before :: frames) (.closeArray :: rest)
    rw [itemTokens, List.append_assoc]
    refine hitem.trans ?_
    change resume frames (.array (item :: before).reverse none) rest = _
    rw [List.reverse_cons]
  | item :: next :: items =>
    have hitem := build_tokens item (fun token hmem => h token (List.mem_append_left _ hmem))
      (.item before :: frames) (.comma :: (itemTokens (next :: items) ++ rest))
    have hnext := build_itemTokens (next :: items) (List.cons_ne_nil _ _)
      (fun token hmem => h token (List.mem_append_right _ (List.mem_cons_of_mem _ hmem)))
      (item :: before) frames rest
    rw [List.reverse_cons, List.append_assoc] at hnext
    rw [itemTokens, List.append_assoc, List.cons_append]
    exact hitem.trans hnext

/-- The members of an object are read one after another. -/
theorem build_memberTokens (members : List (Tree × Tree)) (hne : members ≠ [])
    (h : ∀ token ∈ memberTokens members, token.isWhole = true) (before : List (Tree × Tree))
    (frames : List Frame) (rest : List Token) :
    build (.key before) frames (memberTokens members ++ rest) =
      resume frames (.object (before.reverse ++ members) none) rest := by
  match members with
  | [(key, value)] =>
    obtain ⟨raw, rfl⟩ := eq_string_of_isWhole (h _ List.mem_cons_self)
    have hvalue := build_tokens value
      (fun token hmem => h token
        (List.mem_cons_of_mem _ (List.mem_cons_of_mem _ (List.mem_append_left _ hmem))))
      (.member before (.string raw) :: frames) (.closeObject :: rest)
    rw [memberTokens, List.cons_append, List.cons_append, List.append_assoc]
    refine hvalue.trans ?_
    change resume frames (.object ((.string raw, value) :: before).reverse none) rest = _
    rw [List.reverse_cons]
  | (key, value) :: next :: members =>
    obtain ⟨raw, rfl⟩ := eq_string_of_isWhole (h _ List.mem_cons_self)
    have hvalue := build_tokens value
      (fun token hmem => h token
        (List.mem_cons_of_mem _ (List.mem_cons_of_mem _ (List.mem_append_left _ hmem))))
      (.member before (.string raw) :: frames)
      (.comma :: (memberTokens (next :: members) ++ rest))
    have hnext := build_memberTokens (next :: members) (List.cons_ne_nil _ _)
      (fun token hmem => h token (List.mem_cons_of_mem _ (List.mem_cons_of_mem _
        (List.mem_append_right _ (List.mem_cons_of_mem _ hmem)))))
      ((.string raw, value) :: before) frames rest
    rw [List.reverse_cons, List.append_assoc] at hnext
    rw [memberTokens, List.cons_append, List.cons_append, List.append_assoc, List.cons_append]
    exact hvalue.trans hnext

end

end Tree

/-- The texts of a value. -/
def Spells (tree : Tree) (text : String) : Prop :=
  Spaced tree.tokens text.toList

theorem Spaced.isWhole {tokens : List Token} {chars : List Char} (h : Spaced tokens chars) :
    ∀ token ∈ tokens, token.isWhole = true := by
  induction h with
  | nil => exact nofun
  | cons blank spelled tail ih =>
    refine List.forall_mem_cons.2 ⟨?_, ih⟩
    cases spelled <;> rfl

/-- What a text of a value is decoded as does not depend on how it was written. -/
theorem decode_spelled {α : Type} {tree : Tree} {text : String} (h : Spells tree text)
    (decoder : Tree → Decoded α) : decode decoder text = decoder tree := by
  have htokens : Token.sequence text = tree.tokens :=
    Token.sequenceFrom_spaced h tree.separate_tokens
  have hbuild := tree.build_tokens h.isWhole [] []
  rw [List.append_nil] at hbuild
  rw [decode, htokens, Tree.ofTokens, hbuild]
  change (decoder tree >>= fun value => .ok value) = _
  cases decoder tree <;> rfl

end FileGateway.Json

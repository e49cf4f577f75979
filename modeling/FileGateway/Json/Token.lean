import FileGateway.Json.Numeral

/-!
# JSON tokens

A text as a sequence of tokens. Text that is no JSON token becomes a `broken` token that says what
was being read and how it stopped; nothing is read after it. Strings keep their escapes, which are
checked here for their form only.
-/

namespace FileGateway.Json

/-- How a text stops being JSON: at a character that cannot stand where it is, or by its end. -/
inductive Break where
  | malformed
  | ended
deriving DecidableEq, Repr

/-- What was being read when a text broke off: nothing yet, one of the words `null`, `true` and
`false`, a number, or a string, of which this much was read. -/
inductive Part where
  | nothing
  | word
  | number
  | string (raw : List Char)
deriving DecidableEq, Repr

/-- A token of a JSON text. A string is kept as it is written between its quotes. -/
inductive Token where
  | openObject
  | closeObject
  | openArray
  | closeArray
  | colon
  | comma
  | null
  | bool (value : Bool)
  | number (numeral : Numeral)
  | string (raw : List Char)
  | broken (part : Part) (why : Break)
deriving DecidableEq, Repr

namespace Token

/-- Whether a character may stand between tokens. -/
def isSpace (c : Char) : Bool :=
  c == ' ' || c == '\n' || c == '\t' || c == '\r'

/-- The value of a hexadecimal digit. -/
def hexValue? (c : Char) : Option Nat :=
  if c.isDigit then some (c.toNat - '0'.toNat)
  else if 'a' ≤ c ∧ c ≤ 'f' then some (c.toNat - 'a'.toNat + 10)
  else if 'A' ≤ c ∧ c ≤ 'F' then some (c.toNat - 'A'.toNat + 10)
  else none

/-- The characters that may follow a backslash, `u` apart. -/
def isSimpleEscape (c : Char) : Bool :=
  c == '"' || c == '\\' || c == '/' || c == 'b' || c == 'f' || c == 'n' || c == 'r' || c == 't'

/-- The bytes that the first four characters take. -/
def bytesOfFour (text : List Char) : Nat :=
  (text.take 4).foldl (fun n c => n + c.utf8Size) 0

/-- What stands between an opening quote and its closing one, or how the string breaks. -/
inductive Quoted where
  | closed (raw : List Char)
  | broken (raw : List Char) (why : Break)
deriving DecidableEq, Repr

/-- Puts characters in front of a string. -/
def Quoted.prepend (front : List Char) : Quoted → Quoted
  | closed raw => closed (front ++ raw)
  | broken raw why => broken (front ++ raw) why

/-- Reads a string after its opening quote. -/
def quoted : List Char → Quoted
  | [] => .broken [] .ended
  | '"' :: _ => .closed []
  | ['\\'] => .broken ['\\'] .ended
  | '\\' :: 'u' :: a :: b :: c :: d :: rest =>
    if [a, b, c, d].all fun h => (hexValue? h).isSome then
      (quoted rest).prepend ['\\', 'u', a, b, c, d]
    else .broken ['\\', 'u'] .malformed
  | '\\' :: 'u' :: rest => .broken ['\\', 'u'] (if bytesOfFour rest < 4 then .ended else .malformed)
  | '\\' :: c :: rest =>
    if isSimpleEscape c then (quoted rest).prepend ['\\', c] else .broken ['\\'] .malformed
  | c :: rest => if c < ' ' then .broken [] .malformed else (quoted rest).prepend [c]

/-- The break where a digit was expected. -/
def noDigit : List Char → Break
  | [] => .ended
  | _ :: _ => .malformed

/-- Reads the digits of a number; there has to be one. -/
def digits (text : List Char) : Except Break (List Char × List Char) :=
  match text.takeWhile Char.isDigit with
  | [] => .error (noDigit text)
  | found => .ok (found, text.dropWhile Char.isDigit)

/-- Reads the digits before the point, which start with a zero only if they are a zero. -/
def wholeDigits (text : List Char) : Except Break (List Char × List Char) := do
  let (found, rest) ← digits text
  match found with
  | '0' :: _ :: _ => .error .malformed
  | _ => .ok (found, rest)

/-- Reads a fraction, if there is one. -/
def fractionDigits : List Char → Except Break (Option (List Char) × List Char)
  | '.' :: rest => do
    let (found, rest) ← digits rest
    return (some found, rest)
  | text => .ok (none, text)

/-- Reads an exponent, if there is one. -/
def exponentDigits : List Char → Except Break (Option (Bool × List Char) × List Char)
  | [] => .ok (none, [])
  | c :: rest =>
    if c == 'e' || c == 'E' then
      match rest with
      | '+' :: rest => do
        let (found, rest) ← digits rest
        return (some (false, found), rest)
      | '-' :: rest => do
        let (found, rest) ← digits rest
        return (some (true, found), rest)
      | rest => do
        let (found, rest) ← digits rest
        return (some (false, found), rest)
    else .ok (none, c :: rest)

/-- Reads a number and what follows it. -/
def numeral (negative : Bool) (text : List Char) : Except Break (Numeral × List Char) := do
  let (whole, rest) ← wholeDigits text
  let (fraction, rest) ← fractionDigits rest
  let (exponent, rest) ← exponentDigits rest
  return (⟨negative, whole, fraction, exponent⟩, rest)

/-- How a text breaks that should go on with the letters of a word, if it does. -/
def wordBreak? : List Char → List Char → Option Break
  | [], _ => none
  | _ :: _, [] => some .ended
  | w :: word, c :: text => if w = c then wordBreak? word text else some .malformed

/-- The token of a word whose first letter has been seen, and how many characters follow that
letter. -/
def ofWord (word : List Char) (token : Token) (rest : List Char) : Token × Nat :=
  match wordBreak? word rest with
  | none => (token, word.length)
  | some why => (broken .word why, 0)

/-- The token of a number that starts at `text`, of which `before` characters come first. -/
def ofNumeral (negative : Bool) (text : List Char) (before : Nat) : Token × Nat :=
  match numeral negative text with
  | .ok (n, rest) => (number n, before + text.length - rest.length)
  | .error why => (broken .number why, 0)

/-- The token that starts with the character `c`, and how many of the characters after it belong to
the token. -/
def next (c : Char) (rest : List Char) : Token × Nat :=
  if c = '\x7b' then (openObject, 0)
  else if c = '\x7d' then (closeObject, 0)
  else if c = '[' then (openArray, 0)
  else if c = ']' then (closeArray, 0)
  else if c = ':' then (colon, 0)
  else if c = ',' then (comma, 0)
  else if c = 'n' then ofWord ['u', 'l', 'l'] null rest
  else if c = 't' then ofWord ['r', 'u', 'e'] (bool true) rest
  else if c = 'f' then ofWord ['a', 'l', 's', 'e'] (bool false) rest
  else if c = '"' then
    match quoted rest with
    | .closed raw => (string raw, raw.length + 1)
    | .broken raw why => (broken (.string raw) why, 0)
  else if c = '-' then ofNumeral true rest 0
  else if c.isDigit then
    let (token, used) := ofNumeral false (c :: rest) 0
    (token, used - 1)
  else (broken .nothing .malformed, 0)

/-- The tokens of a text of which the first `skip` characters belong to a token already read. -/
def sequenceFrom : Nat → List Char → List Token
  | _, [] => []
  | skip + 1, _ :: rest => sequenceFrom skip rest
  | 0, c :: rest =>
    if isSpace c then sequenceFrom 0 rest
    else
      match next c rest with
      | (broken part why, _) => [broken part why]
      | (token, used) => token :: sequenceFrom used rest

/-- The tokens of a text, up to the first break. -/
def sequence (text : String) : List Token :=
  sequenceFrom 0 text.toList

end Token

end FileGateway.Json

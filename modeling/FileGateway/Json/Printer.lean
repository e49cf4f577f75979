/-!
# Writing JSON

JSON values with ordered members, and their compact text: no blanks, and in strings only what has to
be escaped is.
-/

namespace FileGateway.Json

/-- A JSON value to be written. Numbers are natural. -/
inductive Value where
  | null
  | bool (value : Bool)
  | number (value : Nat)
  | string (text : String)
  | array (items : List Value)
  | object (members : List (String × Value))

namespace Value

/-- A hexadecimal digit in lower case. -/
def hexDigit (n : Nat) : Char :=
  if n < 10 then Char.ofNat ('0'.toNat + n) else Char.ofNat ('a'.toNat + (n - 10))

/-- A character as it stands in a JSON string. -/
def escapeChar (c : Char) : List Char :=
  if c = '"' then ['\\', '"']
  else if c = '\\' then ['\\', '\\']
  else if c = '\x08' then ['\\', 'b']
  else if c = '\x0c' then ['\\', 'f']
  else if c = '\n' then ['\\', 'n']
  else if c = '\r' then ['\\', 'r']
  else if c = '\t' then ['\\', 't']
  else if c < ' ' then
    ['\\', 'u', '0', '0', hexDigit (c.toNat / 16), hexDigit (c.toNat % 16)]
  else [c]

/-- A string between its quotes. -/
def writeString (text : String) : List Char :=
  '"' :: (text.toList.flatMap escapeChar ++ ['"'])

/-- Puts commas between texts. -/
def commaSeparated : List (List Char) → List Char
  | [] => []
  | [only] => only
  | first :: rest => first ++ ',' :: commaSeparated rest

mutual

/-- The characters of a JSON text. -/
def writeChars : Value → List Char
  | null => "null".toList
  | bool true => "true".toList
  | bool false => "false".toList
  | number n => Nat.toDigits 10 n
  | string text => writeString text
  | array items => '[' :: (commaSeparated (writeItems items) ++ [']'])
  | object members => '\x7b' :: (commaSeparated (writeMembers members) ++ ['\x7d'])

/-- The texts of the items of an array. -/
def writeItems : List Value → List (List Char)
  | [] => []
  | item :: rest => writeChars item :: writeItems rest

/-- The texts of the members of an object. -/
def writeMembers : List (String × Value) → List (List Char)
  | [] => []
  | (key, value) :: rest => (writeString key ++ ':' :: writeChars value) :: writeMembers rest

end

/-- The compact text of a JSON value. -/
def write (value : Value) : String :=
  String.ofList value.writeChars

/-- A value or `null`. -/
def optional {α : Type} (encode : α → Value) : Option α → Value
  | none => null
  | some a => encode a

end Value

end FileGateway.Json

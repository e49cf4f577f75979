import FileGateway.Decimal.Shortest
import FileGateway.Json.Tree
import FileGateway.Text.Quoted

/-!
# Decoding JSON

Turns the tree of a text into a value of a known form. A tree is walked in the order of its text, so
the first fault in text order is the one reported, whether the text is no JSON or the value has not
the form that is asked for. A record may be written as an object, its fields in any order, or as an
array of its fields in their declared order.
-/

namespace FileGateway.Json

/-- What stands where something else was asked for. -/
inductive Kind where
  | null
  | bool (value : Bool)
  | integer (value : Int)
  | double (value : Float)
  | string (text : String)
  | array
  | object

/-- The kind in words. -/
def Kind.describe : Kind → String
  | null => "null"
  | bool value => s!"boolean `{value}`"
  | integer value => s!"integer `{value}`"
  | double value => "floating point `" ++ Decimal.writeDouble value ++ "`"
  | string text => "string " ++ Text.quote text
  | array => "sequence"
  | object => "map"

/-- How a JSON value differs from the form that is asked for: by its kind, or as a number of the
right kind by its range, in its fields or its variant, or as an array that ends before a field that
has to be given. A text may be refused by the type it stands for. -/
inductive Mismatch where
  | kind (found : Kind) (expected : String)
  | range (found : Kind) (expected : String)
  | unknownField (name : String) (known : List String)
  | duplicateField (name : String)
  | missingField (name : String)
  | unknownVariant (name : String) (known : List String)
  | length (found : Nat) (title : String) (fields : Nat)
  | refused (message : String)

/-- Names between back quotes, as a choice. -/
def oneOf : List String → String
  | [] => "there are none"
  | [a] => s!"expected `{a}`"
  | [a, b] => s!"expected `{a}` or `{b}`"
  | names => "expected one of " ++ ", ".intercalate (names.map fun n => s!"`{n}`")

/-- The difference in words. -/
def Mismatch.message : Mismatch → String
  | kind found expected => "invalid type: " ++ found.describe ++ ", expected " ++ expected
  | range found expected => "invalid value: " ++ found.describe ++ ", expected " ++ expected
  | unknownField name known => s!"unknown field `{name}`, " ++ oneOf known
  | duplicateField name => s!"duplicate field `{name}`"
  | missingField name => s!"missing field `{name}`"
  | unknownVariant name known => s!"unknown variant `{name}`, " ++ oneOf known
  | length found title fields =>
    s!"invalid length {found}, expected struct {title} with {fields} element"
      ++ if fields = 1 then "" else "s"
  | refused message => message

/-- Why a text does not give a value: it is no JSON at this place, it ends too early, or it is JSON
so far but not of the form that is asked for. -/
inductive Fault where
  | malformed
  | ended
  | mismatch (difference : Mismatch)

/-- A text that breaks off is at fault itself. -/
def Break.fault : Break → Fault
  | .malformed => .malformed
  | .ended => .ended

/-- A value decoded from a tree. -/
abbrev Decoded (α : Type) := Except Fault α

/-- What a string stands for when its escapes are resolved. Half of a surrogate pair may stand
alone, or its second half may still follow. -/
inductive Unescaped where
  | text (chars : List Char)
  | loneSurrogate
  | unfinished
deriving DecidableEq

/-- Puts a character in front. -/
def Unescaped.prepend (c : Char) : Unescaped → Unescaped
  | text chars => text (c :: chars)
  | other => other

/-- The character that a backslash and one character stand for. -/
def simpleEscape (c : Char) : Char :=
  if c = 'b' then '\x08'
  else if c = 'f' then '\x0c'
  else if c = 'n' then '\n'
  else if c = 'r' then '\r'
  else if c = 't' then '\t'
  else c

/-- The number of four hexadecimal digits. -/
def hexUnit (digits : List Char) : Nat :=
  digits.foldl (fun n c => n * 16 + (Token.hexValue? c).getD 0) 0

/-- Whether a unit is the first half of a surrogate pair. -/
def isHighSurrogate (unit : Nat) : Bool :=
  0xd800 ≤ unit && unit < 0xdc00

/-- Whether a unit is the second half of a surrogate pair. -/
def isLowSurrogate (unit : Nat) : Bool :=
  0xdc00 ≤ unit && unit < 0xe000

/-- Resolves the escapes of a string as it is written between its quotes. -/
def unescape : List Char → Unescaped
  | [] => .text []
  | '\\' :: 'u' :: a :: b :: c :: d :: rest =>
    let unit := hexUnit [a, b, c, d]
    if isLowSurrogate unit then .loneSurrogate
    else if isHighSurrogate unit then
      match rest with
      | [] => .unfinished
      | ['\\'] => .unfinished
      | '\\' :: 'u' :: a :: b :: c :: d :: rest =>
        let second := hexUnit [a, b, c, d]
        if isLowSurrogate second then
          (unescape rest).prepend
            (Char.ofNat (0x10000 + (unit - 0xd800) * 0x400 + (second - 0xdc00)))
        else .loneSurrogate
      | ['\\', 'u'] => .unfinished
      | _ => .loneSurrogate
    else (unescape rest).prepend (Char.ofNat unit)
  | ['\\'] => .text []
  | ['\\', 'u'] => .text []
  | '\\' :: c :: rest => (unescape rest).prepend (simpleEscape c)
  | c :: rest => (unescape rest).prepend c

/-- The text of a string that has its closing quote. -/
def textOf (raw : List Char) : Decoded String :=
  match unescape raw with
  | .text chars => .ok (String.ofList chars)
  | _ => .error .malformed

/-- The fault of a place where the text broke off. A string is at fault for a lone surrogate before
it is for its end. -/
def breakFault : Part → Break → Fault
  | .string raw, why =>
    match unescape raw with
    | .loneSurrogate => .malformed
    | _ => why.fault
  | _, why => why.fault

/-- The fault of a place where the text broke off and a string had to stand, which is decided by the
first character there. -/
def stringBreakFault : Part → Break → Fault
  | .word, _ => .malformed
  | .number, _ => .malformed
  | part, why => breakFault part why

namespace Tree

/-- The kind of a value that turns out not to be wanted. -/
def kind : Tree → Decoded Kind
  | null => .ok .null
  | bool value => .ok (.bool value)
  | number numeral =>
    match numeral.value with
    | .integer value => .ok (.integer value)
    | .double value => .ok (.double value)
    | .tooLarge => .error .malformed
  | string raw => do
    let text ← textOf raw
    return .string text
  | array _ _ => .ok .array
  | object _ _ => .ok .object
  | broken part why => .error (breakFault part why)

/-- Refuses a value of the wrong kind. -/
def refuse {α : Type} (tree : Tree) (expected : String) : Decoded α := do
  let found ← tree.kind
  .error (.mismatch (.kind found expected))

/-- A value that nobody asked for. Only its form as JSON matters. -/
def skip : Tree → Decoded Unit
  | array _ (some why) => .error why.fault
  | object _ (some why) => .error why.fault
  | broken part why => .error (passed part why).fault
  | _ => .ok ()

/-- A string; `expected` names what it stands for. -/
def text (expected : String) : Tree → Decoded String
  | string raw => textOf raw
  | tree => tree.refuse expected

/-- A key of an object. -/
def keyText : Tree → Decoded String
  | string raw => textOf raw
  | broken part why => .error (breakFault part why)
  | _ => .error .malformed

/-- A natural number below `2 ^ bits`. -/
def natural (bits : Nat) : Tree → Decoded Nat
  | number numeral =>
    match numeral.value with
    | .integer value =>
      if 0 ≤ value ∧ value < Nat.pow 2 bits then .ok value.toNat
      else .error (.mismatch (.range (.integer value) s!"u{bits}"))
    | .double value => .error (.mismatch (.kind (.double value) s!"u{bits}"))
    | .tooLarge => .error .malformed
  | tree => tree.refuse s!"u{bits}"

/-- A value or `null`. -/
def optional {α : Type} (decode : Tree → Decoded α) : Tree → Decoded (Option α)
  | null => .ok none
  | tree => do
    let value ← decode tree
    return some value

/-- Nothing but `null`. -/
def nothing : Tree → Decoded Unit
  | null => .ok ()
  | tree => tree.refuse "unit"

/-- The end of an array or an object. -/
def finish {α : Type} (value : α) : Option Break → Decoded α
  | none => .ok value
  | some why => .error why.fault

/-- An array of values of one form. -/
def list {α : Type} (decode : Tree → Decoded α) : Tree → Decoded (List α)
  | array items cut => do
    let values ← items.mapM decode
    finish values cut
  | tree => tree.refuse "a sequence"

/-- An object whose keys are free and whose values are strings, in the order they are written. -/
def textMembers : Tree → Decoded (List (String × String))
  | object members cut => do
    let entries ← members.mapM fun member => do
      let key ← member.1.keyText
      let value ← member.2.text "a string"
      return (key, value)
    finish entries cut
  | tree => tree.refuse "a map"

/-- One of the named variants, given as its name or as an object with the name as only key and
`null` as its value. -/
def variant {α : Type} (known : List (String × α)) : Tree → Decoded α
  | string raw => do
    let name ← textOf raw
    pick name
  | object [] none => .error .malformed
  | object [] (some why) => .error why.fault
  | object ((key, value) :: others) cut => do
    let name ← key.keyText
    let found ← pick name
    value.nothing
    match others with
    | [] => finish found cut
    | _ :: _ => .error .malformed
  | broken part why => .error (stringBreakFault part why)
  | _ => .error .malformed
where
  pick (name : String) : Decoded α :=
    match known.lookup name with
    | some found => .ok found
    | none => .error (.mismatch (.unknownVariant name (known.map Prod.fst)))

end Tree

/-- The form of a record: its title, its fields in their declared order, those of them that may be
left out, and how a field enters a draft of the record. If the form is `strict`, a field of another
name is a fault; otherwise it is passed over. -/
structure RecordForm (σ : Type) where
  title : String
  fields : List String
  optional : List String
  strict : Bool
  put : σ → String → Tree → Decoded σ

namespace RecordForm

variable {σ : Type}

/-- Takes the members of an object into a draft, given the names of the fields seen so far. -/
def ofMembers (form : RecordForm σ) (draft : σ) (seen : List String) :
    List (Tree × Tree) → Option Break → Decoded σ
  | [], cut => Tree.finish draft cut
  | (key, value) :: rest, cut => do
    let name ← key.keyText
    if form.fields.contains name then
      if seen.contains name then .error (.mismatch (.duplicateField name))
      else do
        let draft ← form.put draft name value
        form.ofMembers draft (name :: seen) rest cut
    else if form.strict then .error (.mismatch (.unknownField name form.fields))
    else do
      value.skip
      form.ofMembers draft seen rest cut

/-- Takes the items of an array into a draft, one for each of the fields left. -/
def ofItems (form : RecordForm σ) (draft : σ) :
    List String → List Tree → Option Break → Decoded σ
  | [], [], cut => Tree.finish draft cut
  | [], _ :: _, _ => .error .malformed
  | name :: names, item :: items, cut => do
    let draft ← form.put draft name item
    form.ofItems draft names items cut
  | _ :: _, [], some why => .error why.fault
  | name :: names, [], none =>
    if form.optional.contains name then form.ofItems draft names [] none
    else
      let found := form.fields.length - (names.length + 1)
      .error (.mismatch (.length found form.title form.fields.length))

/-- Takes a record into a draft. -/
def draft (form : RecordForm σ) (start : σ) : Tree → Decoded σ
  | .object members cut => form.ofMembers start [] members cut
  | .array items cut => form.ofItems start form.fields items cut
  | tree => tree.refuse ("struct " ++ form.title)

end RecordForm

/-- A field that has to be given. -/
def need {α : Type} (name : String) : Option α → Decoded α
  | some value => .ok value
  | none => .error (.mismatch (.missingField name))

/-- Decodes a whole text: one value with nothing after it. -/
def decode {α : Type} (decoder : Tree → Decoded α) (text : String) : Decoded α := do
  let (tree, rest) := Tree.ofTokens (Token.sequence text)
  let value ← decoder tree
  match rest with
  | [] => .ok value
  | _ :: _ => .error .malformed

end FileGateway.Json

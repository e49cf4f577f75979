import FileGateway.Duration.Basic
import FileGateway.Duration.TimeUnit
import FileGateway.Text.Blank
import FileGateway.Word

/-!
# Reading a duration

A written duration is a sequence of spans such as `1h 30min` or `2.5s`, each a number and the name
of a unit; the whole text `0` stands for no time. Blanks may stand before a number, between its
digits and after a unit. The text is scanned once from left to right, and the first character that
cannot stand where it is decides the fault; every number on the way has to stay below `2 ^ 64`.
-/

namespace FileGateway

/-- Why a text is no duration. Offsets count the bytes before the place of the fault.

A text is `empty` if there is nothing but blanks. Where a span starts with something else than a
digit, the offset is that at which the search for it began. An `invalidCharacter` belongs neither
to a number nor to a unit. With `inexact`, a number does not fit, or a fraction has no exact
value. -/
inductive DurationFault where
  | empty
  | numberExpected (offset : Nat)
  | invalidCharacter (offset : Nat)
  | unitNeeded (whole : Nat)
  | unknownUnit (name : String)
  | inexact
deriving DecidableEq, Repr

/-- The fault in words. -/
def DurationFault.message : DurationFault → String
  | empty => "value was empty"
  | numberExpected offset => s!"expected number at {offset}"
  | invalidCharacter offset => s!"invalid character at {offset}"
  | unitNeeded whole => s!"time unit needed, for example {whole}sec or {whole}ms"
  | unknownUnit name =>
      "unknown time unit \"" ++ name ++ "\", supported units: ns, us/µs, ms, sec, min, hours, days, "
        ++ "weeks, months, years (and few variations)"
  | inexact =>
      "number is too large or cannot be represented without a lack of precision "
        ++ "(values below 1ns are not supported)"

namespace Duration

/-- A part of a number after its point: `numerator / denominator`, the latter a power of ten. -/
structure Fraction where
  numerator : Nat
  denominator : Nat
deriving DecidableEq, Repr

/-- What the scan of a text stands in: it looks for the first digit of a span since some byte, or
it is in the digits before the point, or in those after it, which were last seen to go on up to the
byte `reached`, or in the name of a unit, whose letters are kept with the last one first. -/
inductive Scan.Mode where
  | seeking (since : Nat)
  | whole (value : Nat)
  | fraction (value : Nat) (part : Fraction) (reached : Nat)
  | unit (value : Nat) (part : Option Fraction) (letters : List Char)
deriving DecidableEq, Repr

/-- How far the scan of a text has come: the bytes read, and the nanoseconds of the finished spans,
which are `none` before the first of them. -/
structure Scan where
  offset : Nat
  total : Option Nat
  mode : Scan.Mode
deriving DecidableEq, Repr

/-- The letters of which names of units are made. -/
def isUnitLetter (c : Char) : Bool :=
  c.isAlpha || c == 'µ'

/-- The value of a decimal digit. -/
def digitValue (c : Char) : Nat :=
  c.toNat - '0'.toNat

/-- A number below `2 ^ 64`. -/
def word (n : Nat) : Except DurationFault Nat :=
  if n < word64 then .ok n else .error .inexact

/-- Adds an amount of a scale to `total` nanoseconds. -/
def extend (total amount : Nat) (inSeconds : Bool) : Except DurationFault Nat := do
  let amount ← word amount
  let nanos := if inSeconds then amount * nanosPerSecond else amount
  let _ ← word (total % nanosPerSecond + if inSeconds then 0 else amount)
  if total + nanos < durationLimit then .ok (total + nanos) else .error .inexact

/-- Adds a span, a number of the unit with these letters, to `total` nanoseconds. -/
def addSpan (total value : Nat) (part : Option Fraction) (name : String) :
    Except DurationFault Nat :=
  match TimeUnit.ofName? name with
  | none => .error (if name.isEmpty then .unitNeeded value else .unknownUnit name)
  | some unit => do
    let total ← extend total (value * unit.scale.factor) unit.scale.inSeconds
    match part, unit.fractionScale with
    | none, _ => .ok total
    | some _, none => .error .inexact
    | some part, some scale => do
      let scaled ← word (part.numerator * scale.factor)
      if scaled % part.denominator = 0 then
        extend total (scaled / part.denominator) scale.inSeconds
      else .error .inexact

namespace Scan

/-- Where every scan starts. -/
def start : Scan := ⟨0, none, .seeking 0⟩

/-- The span that is being scanned is complete. -/
def closeSpan (s : Scan) (value : Nat) (part : Option Fraction) (letters : List Char) :
    Except DurationFault (Option Nat) := do
  let total ← addSpan (s.total.getD 0) value part (String.ofList letters.reverse)
  return some total

/-- Reads one character. -/
def step (s : Scan) (c : Char) : Except DurationFault Scan :=
  let next := s.offset + c.utf8Size
  match s.mode with
  | .seeking since =>
    if c.isDigit then .ok ⟨next, s.total, .whole (digitValue c)⟩
    else if Text.isBlank c then .ok ⟨next, s.total, .seeking since⟩
    else .error (.numberExpected since)
  | .whole value =>
    if c.isDigit then do
      let value ← word (value * 10 + digitValue c)
      return ⟨next, s.total, .whole value⟩
    else if Text.isBlank c then .ok ⟨next, s.total, .whole value⟩
    else if isUnitLetter c then .ok ⟨next, s.total, .unit value none [c]⟩
    else if c = '.' then .ok ⟨next, s.total, .fraction value ⟨0, 1⟩ s.offset⟩
    else .error (.invalidCharacter s.offset)
  | .fraction value part reached =>
    if c.isDigit then do
      let denominator ← word (part.denominator * 10)
      let numerator := part.numerator * 10 + digitValue c
      return ⟨next, s.total, .fraction value ⟨numerator, denominator⟩ next⟩
    else if Text.isBlank c then .ok ⟨next, s.total, .fraction value part next⟩
    else if isUnitLetter c && part.denominator != 1 then
      .ok ⟨next, s.total, .unit value (some part) [c]⟩
    else .error (.invalidCharacter reached)
  | .unit value part letters =>
    if c.isDigit then do
      let total ← s.closeSpan value part letters
      return ⟨next, total, .whole (digitValue c)⟩
    else if Text.isBlank c then do
      let total ← s.closeSpan value part letters
      return ⟨next, total, .seeking next⟩
    else if isUnitLetter c then .ok ⟨next, s.total, .unit value part (c :: letters)⟩
    else .error (.invalidCharacter s.offset)

/-- The nanoseconds that were written, when the text is at its end. -/
def finish (s : Scan) : Except DurationFault Nat :=
  match s.mode with
  | .seeking _ =>
    match s.total with
    | some total => .ok total
    | none => .error .empty
  | .whole value => addSpan (s.total.getD 0) value none ""
  | .fraction value part reached =>
    if part.denominator = 1 then .error (.invalidCharacter reached)
    else addSpan (s.total.getD 0) value (some part) ""
  | .unit value part letters =>
    addSpan (s.total.getD 0) value part (String.ofList letters.reverse)

end Scan

/-- The nanoseconds that a text stands for. -/
def readNanos (text : List Char) : Except DurationFault Nat :=
  if text = ['0'] then .ok 0
  else do
    let s ← text.foldlM Scan.step Scan.start
    s.finish

/-- Reads a written duration. -/
def read (text : String) : Except DurationFault Duration := do
  let nanos ← readNanos text.toList
  match ofNanos? nanos with
  | some d => .ok d
  | none => .error .inexact

end Duration

end FileGateway

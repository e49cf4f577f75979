import FileGateway.Word

/-!
# JSON numbers

A number as it is written: a sign, digits, and perhaps a fraction and an exponent. What it stands
for is an integer if it has neither of the last two and fits 64 bits, and otherwise a double. The
double is found from at most the first digits that fit 64 bits and one scaling by a power of ten.
-/

namespace FileGateway.Json

/-- A written number. Of its exponent it is told whether it is negative, and its digits. -/
structure Numeral where
  negative : Bool
  whole : List Char
  fraction : Option (List Char)
  exponent : Option (Bool × List Char)
deriving DecidableEq, Repr

/-- What a written number stands for: an integer of 64 bits, with a sign if it is negative, or a
double, unless it is greater than any double. -/
inductive Number where
  | integer (value : Int)
  | double (value : Float)
  | tooLarge

namespace Numeral

/-- The number a list of decimal digits stands for. -/
def digitsValue (digits : List Char) : Nat :=
  digits.foldl (fun n c => n * 10 + (c.toNat - '0'.toNat)) 0

/-- Appends digits to a significand until one of them no longer fits 64 bits. The second part counts
the digits that were taken. -/
def takeSignificant (significand : Nat) : List Char → Nat × Nat
  | [] => (significand, 0)
  | c :: rest =>
    let longer := significand * 10 + (c.toNat - '0'.toNat)
    if longer < word64 then
      let (significand, taken) := takeSignificant longer rest
      (significand, taken + 1)
    else (significand, 0)

/-- The double `significand * 10 ^ exponent`, none if it is too large. -/
def scale? (significand : Nat) (exponent : Int) : Option Float :=
  let f := (UInt64.ofNat significand).toFloat
  let power := fun n : Nat => Float.ofScientific 1 false n
  if 308 < exponent then if significand = 0 then some f else none
  else if 0 ≤ exponent then
    let g := f * power exponent.toNat
    if g.isInf then none else some g
  else if -308 ≤ exponent then some (f / power (-exponent).toNat)
  else if -616 ≤ exponent then some (f / power 308 / power (-exponent - 308).toNat)
  else some (f / power 308 / power 308)

/-- The double nearest in reach of the written number, without its sign. -/
def magnitude? (n : Numeral) : Option Float :=
  let (significand, taken) := takeSignificant 0 n.whole
  let skipped := n.whole.length - taken
  let (significand, places) := takeSignificant significand (n.fraction.getD [])
  let exponent : Int := (skipped : Int) - places
  match n.exponent with
  | none => scale? significand exponent
  | some (negative, digits) =>
    let power := digitsValue digits
    if power < word32 / 2 then
      scale? significand (if negative then exponent - power else exponent + power)
    else if significand = 0 || negative then some 0.0
    else none

/-- What the written number stands for. A zero with a sign is a double. -/
def value (n : Numeral) : Number :=
  let natural := digitsValue n.whole
  match n.fraction, n.exponent, n.negative with
  | none, none, false => if natural < word64 then .integer natural else asDouble
  | none, none, true =>
    if 0 < natural ∧ natural ≤ word64 / 2 then .integer (-natural) else asDouble
  | _, _, _ => asDouble
where
  asDouble : Number :=
    match n.magnitude? with
    | some f => .double (if n.negative then -f else f)
    | none => .tooLarge

end Numeral

end FileGateway.Json

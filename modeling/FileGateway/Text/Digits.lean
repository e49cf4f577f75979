/-!
# Decimal numbers

The natural numbers of plain decimal text, as they appear in markers and on command lines.
-/

namespace FileGateway.Text

/-- The number that decimal digits stand for, with an optional plus sign before them. -/
def readNatural (text : List Char) : Option Nat :=
  let digits := match text with
    | '+' :: rest => rest
    | text => text
  if digits.isEmpty || !digits.all Char.isDigit then none
  else some (digits.foldl (fun n c => n * 10 + (c.toNat - '0'.toNat)) 0)

/-- The number that decimal digits stand for, if it is below a limit. -/
def readBelow (limit : Nat) (text : List Char) : Option Nat :=
  (readNatural text).filter fun n => n < limit

end FileGateway.Text

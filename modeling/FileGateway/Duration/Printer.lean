import FileGateway.Duration.Basic

/-!
# Writing a duration

A duration is written as its non-zero parts from years down to nanoseconds, joined by blanks, as in
`1h 30m` or `2years 3days 250ms`. Years, months and days have a plural; no time is written `0s`.
-/

namespace FileGateway.Duration

/-- How a part of a duration is named: the text after a count of one, and after any other. -/
structure PartName where
  one : String
  many : String

/-- A name without a plural. -/
def PartName.plain (name : String) : PartName := ⟨name, name⟩

/-- A name whose plural ends in `s`. -/
def PartName.counted (name : String) : PartName := ⟨name, name ++ "s"⟩

/-- The parts of a duration, the longest first. -/
def parts (d : Duration) : List (Nat × PartName) :=
  let seconds := d.seconds
  let inYear := seconds % 31557600
  let inMonth := inYear % 2630016
  let inDay := inMonth % 86400
  let nanos := d.subsecondNanos
  [ (seconds / 31557600, .counted "year"),
    (inYear / 2630016, .counted "month"),
    (inMonth / 86400, .counted "day"),
    (inDay / 3600, .plain "h"),
    (inDay % 3600 / 60, .plain "m"),
    (inDay % 60, .plain "s"),
    (nanos / 1000000, .plain "ms"),
    (nanos / 1000 % 1000, .plain "us"),
    (nanos % 1000, .plain "ns") ]

/-- One part, in digits and its name. -/
def writePart (part : Nat × PartName) : String :=
  toString part.1 ++ if part.1 = 1 then part.2.one else part.2.many

/-- A duration in words. -/
def write (d : Duration) : String :=
  match d.parts.filter (·.1 ≠ 0) with
  | [] => "0s"
  | parts => " ".intercalate (parts.map writePart)

end FileGateway.Duration

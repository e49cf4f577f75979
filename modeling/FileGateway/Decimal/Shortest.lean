import FileGateway.Word

/-!
# Shortest decimals

The shortest decimal that reads back as a given double. A double is `mantissa * 2 ^ exponent`, and
the reals that round to it form an interval around it, ends included if the mantissa is even. For
one, two, up to seventeen digits the two neighbours of the double on that decimal grid are tried
against the interval in exact arithmetic; the first grid with a hit has the fewest digits, and of
two hits the nearer one is taken, or the even one if they are equally near.

A double is written in positional notation unless it is very large or very small, and in scientific
notation otherwise.
-/

namespace FileGateway.Decimal

/-- A decimal `digits * 10 ^ exponent`. -/
structure Scientific where
  digits : Nat
  exponent : Int
deriving DecidableEq, Repr

/-- A positive double as a fraction, with the ends of the interval that rounds to it. All four are
numbers of parts, of which `unit` make one. If the interval is `closed`, the ends themselves round
to the double. -/
structure Rounding where
  value : Nat
  low : Nat
  high : Nat
  unit : Nat
  closed : Bool

/-- The number of fractions that the mantissa of a double can have. -/
def fractionSize : Nat := Nat.pow 2 52

/-- The interval of a finite double that is not zero, from its bits without the sign. -/
def Rounding.ofBits (bits : Nat) : Rounding :=
  let field := bits / fractionSize
  let fraction := bits % fractionSize
  let mantissa := if field = 0 then fraction else fraction + fractionSize
  let exponent : Int := (if field = 0 then 1 else field : Nat) - 1077
  let below := if fraction = 0 ∧ 1 < field then 1 else 2
  let up := Nat.pow 2 exponent.toNat
  { value := 4 * mantissa * up
    low := (4 * mantissa - below) * up
    high := (4 * mantissa + 2) * up
    unit := Nat.pow 2 (-exponent).toNat
    closed := mantissa % 2 = 0 }

/-- The exponent `k` with `10 ^ (k - 1) ≤ value < 10 ^ k`, for a value of `value / unit`. -/
def Rounding.magnitude (r : Rounding) : Int :=
  if r.unit ≤ r.value then (Nat.toDigits 10 (r.value / r.unit)).length
  else 1 - ((List.range 400).find? fun j => r.unit ≤ r.value * Nat.pow 10 j).getD 400

/-- The decimal of `count` digits nearest to the double, if it rounds to the double. -/
def Rounding.onGrid? (r : Rounding) (count : Nat) : Option Scientific :=
  let exponent := r.magnitude - count
  let scale := Nat.pow 10 (-exponent).toNat
  let step := Nat.pow 10 exponent.toNat * r.unit
  let value := r.value * scale
  let below := value / step
  let hits := [below, below + 1].filter fun n =>
    let at' := n * step
    if r.closed then r.low * scale ≤ at' && at' ≤ r.high * scale
    else r.low * scale < at' && at' < r.high * scale
  match hits with
  | [] => none
  | [n] => some ⟨n, exponent⟩
  | n :: _ =>
    let twice := 2 * (value - n * step)
    some ⟨if twice < step || twice = step && n % 2 = 0 then n else n + 1, exponent⟩

/-- The shortest decimal that reads back as the finite double of these bits, the sign left out. -/
def shortest (bits : Nat) : Scientific :=
  if bits = 0 then ⟨0, 0⟩
  else
    let r := Rounding.ofBits bits
    ((List.range 17).findSome? fun n => r.onGrid? (n + 1)).getD ⟨0, 0⟩

/-- A decimal in positional notation, with at least one digit before and after the point. -/
def Scientific.positional (s : Scientific) : String :=
  let zeros := fun n => String.ofList (List.replicate n '0')
  if 0 ≤ s.exponent then toString s.digits ++ zeros s.exponent.toNat ++ ".0"
  else
    let places := (-s.exponent).toNat
    let digits := Nat.toDigits 10 s.digits
    let padded := List.replicate (places + 1 - digits.length) '0' ++ digits
    let whole := padded.take (padded.length - places)
    let fraction := padded.drop (padded.length - places)
    let fraction := (fraction.reverse.dropWhile (· == '0')).reverse
    String.ofList whole ++ "." ++
      if fraction.isEmpty then "0" else String.ofList fraction

/-- The power of ten that the first digit of a decimal stands for. -/
def Scientific.order (s : Scientific) : Int :=
  (Nat.toDigits 10 s.digits).length - 1 + s.exponent

/-- A decimal in scientific notation: one digit before the point, and no point if no other digit
follows. The exponent always has a sign. -/
def Scientific.scientific (s : Scientific) : String :=
  let digits := ((Nat.toDigits 10 s.digits).reverse.dropWhile (· == '0')).reverse
  let significand :=
    match digits with
    | first :: second :: rest => first :: '.' :: second :: rest
    | few => few
  String.ofList significand ++ (if s.order < 0 then "e-" else "e+") ++ toString s.order.natAbs

/-- Whether a decimal is written in positional notation: it is zero, or at least `10 ^ -5` and less
than `10 ^ 16`. -/
def Scientific.isPlain (s : Scientific) : Bool :=
  s.digits = 0 || -5 ≤ s.order && s.order < 16

/-- A decimal in the notation that suits its size. -/
def Scientific.text (s : Scientific) : String :=
  if s.isPlain then s.positional else s.scientific

/-- A finite double with the fewest digits that read back. -/
def writeDouble (x : Float) : String :=
  let bits := x.toBits.toNat
  let text := (shortest (bits % (word64 / 2))).text
  if bits < word64 / 2 then text else "-" ++ text

end FileGateway.Decimal

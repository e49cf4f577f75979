import FileGateway.Word

/-!
# Durations

A length of time in whole nanoseconds. A duration has fewer than `2 ^ 64` whole seconds; an
operation that would leave this range gives no result instead of a wrapped one.
-/

namespace FileGateway

/-- Nanoseconds in a second. -/
def nanosPerSecond : Nat := 1000000000

/-- Nanoseconds in a millisecond. -/
def nanosPerMilli : Nat := 1000000

/-- The first number of nanoseconds that is too long for a duration. -/
def durationLimit : Nat := word64 * nanosPerSecond

/-- A length of time in nanoseconds, of fewer than `2 ^ 64` seconds. -/
structure Duration where
  nanos : Nat
  bounded : nanos < durationLimit
deriving DecidableEq

namespace Duration

@[ext] theorem ext {a b : Duration} (h : a.nanos = b.nanos) : a = b := by
  cases a; cases b; cases h; rfl

instance : LE Duration where
  le a b := a.nanos ≤ b.nanos

instance (a b : Duration) : Decidable (a ≤ b) :=
  inferInstanceAs (Decidable (a.nanos ≤ b.nanos))

instance : Min Duration where
  min a b := if a ≤ b then a else b

instance : Max Duration where
  max a b := if a ≤ b then b else a

theorem nanos_min (a b : Duration) : (min a b).nanos = min a.nanos b.nanos := by
  change (if a.nanos ≤ b.nanos then a else b).nanos = _
  split <;> omega

theorem nanos_max (a b : Duration) : (max a b).nanos = max a.nanos b.nanos := by
  change (if a.nanos ≤ b.nanos then b else a).nanos = _
  split <;> omega

/-- The duration of `n` nanoseconds, if it is in range. -/
def ofNanos? (n : Nat) : Option Duration :=
  if h : n < durationLimit then some ⟨n, h⟩ else none

theorem ofNanos?_eq_some_iff {n : Nat} {d : Duration} : ofNanos? n = some d ↔ d.nanos = n := by
  unfold ofNanos?
  split
  · constructor
    · intro h; cases h; rfl
    · intro h; exact congrArg some (Duration.ext h.symm)
  · constructor
    · intro h; cases h
    · intro h; have := d.bounded; omega

theorem ofNanos?_eq_none_iff {n : Nat} : ofNanos? n = none ↔ durationLimit ≤ n := by
  unfold ofNanos?
  split <;> simp <;> omega

/-- The duration of `n` whole seconds. -/
def ofSeconds (n : Nat) (h : n < word64 := by decide) : Duration :=
  ⟨n * nanosPerSecond, by unfold durationLimit nanosPerSecond; omega⟩

/-- The duration of `n` milliseconds, which are fewer than `2 ^ 64`. -/
def ofMillis (n : Nat) (h : n < word64 := by decide) : Duration :=
  ⟨n * nanosPerMilli, by unfold durationLimit nanosPerMilli nanosPerSecond; omega⟩

/-- The duration of `n` nanoseconds, or the longest one if that is too long. -/
def clamp (n : Nat) : Duration :=
  ⟨min n (durationLimit - 1), by unfold durationLimit nanosPerSecond word64; omega⟩

/-- No time at all. -/
def zero : Duration := ofSeconds 0

/-- `k` times the duration, if that is in range. -/
def times? (d : Duration) (k : Nat) : Option Duration :=
  ofNanos? (d.nanos * k)

/-- The whole seconds of a duration. -/
def seconds (d : Duration) : Nat :=
  d.nanos / nanosPerSecond

/-- What a duration has beyond its whole seconds, in nanoseconds. -/
def subsecondNanos (d : Duration) : Nat :=
  d.nanos % nanosPerSecond

/-- The duration cut down to whole milliseconds, of which at most `2 ^ 64 - 1` are kept. -/
def wholeMillis (d : Duration) : Duration :=
  ofMillis (min (d.nanos / nanosPerMilli) (word64 - 1)) (by unfold word64; omega)

end Duration

/-- A moment, as nanoseconds since the clock started. -/
abbrev Instant := Nat

/-- The first moment that the clock cannot tell: `2 ^ 63` seconds after its start. Its seconds are
kept with a sign in 64 bits, and a sum that does not fit aborts the process. -/
def clockEnd : Instant := 9223372036854775808 * nanosPerSecond

end FileGateway

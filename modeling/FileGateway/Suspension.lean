import FileGateway.Connection.Config
import FileGateway.Duration.Basic
import FileGateway.Word

/-!
# Suspension

A connection whose backend keeps failing is suspended for a while, so that the backend is left
alone:

* consecutive failures are counted, and once the count reaches its limit the connection is
  suspended;
* while a suspension lasts no attempt is let through;
* the first attempt after it is a probe: its success makes the connection healthy again, its failure
  suspends it once more, for longer.

The count and the number of suspensions grow until a success resets both.

The end of a suspension is a sum of a moment and a duration, which is not checked. If the clock
cannot tell it, the process that records the failure aborts. The policy that is left then overflows
(`SuspensionPolicy.overflows`).
-/

namespace FileGateway

/-- Adds one to a 32-bit counter that stays at its greatest value. -/
def bump (n : Nat) : Nat :=
  min (n + 1) (word32 - 1)

/-- When and for how long a connection is suspended: after `maxFailures` consecutive failures, or
never if that is 0. The first suspension lasts for the `backoff`, each further one is longer by the
factor `multiplier`, and none is longer than `maxBackoff`. -/
structure SuspensionConfig where
  maxFailures : UInt32
  backoff : Duration
  multiplier : UInt32
  maxBackoff : Option Duration
deriving DecidableEq

namespace SuspensionConfig

/-- Suspensions that all last equally long. -/
def fixed (maxFailures : UInt32) (backoff : Duration) : SuspensionConfig :=
  ⟨maxFailures, backoff, 1, none⟩

/-- No suspensions. -/
def disabled : SuspensionConfig :=
  fixed 0 .zero

/-- The suspensions of a configured connection. -/
def ofConfig (c : ConnectionConfig) : SuspensionConfig :=
  ⟨c.maxFailures, c.suspendDuration, c.backoffMultiplier, c.maxBackoff⟩

/-- How long a suspension lasts at most if no other time is configured: a day. -/
def longest : Duration := .ofSeconds 86400

/-- How long a suspension lasts at least. -/
def shortest : Duration := .ofMillis 1

/-- How long suspensions last at most. -/
def cap (c : SuspensionConfig) : Duration :=
  c.maxBackoff.getD longest

/-- The factor of the `k`-th suspension in a row, if it fits 32 bits: a power of the multiplier,
which from two on has outgrown 32 bits at the exponent 32. -/
def factor? (c : SuspensionConfig) (k : Nat) : Option Nat :=
  if c.multiplier.toNat ≤ 1 then some 1
  else if 32 < k then none
  else
    let factor := Nat.pow c.multiplier.toNat (k - 1)
    if factor < word32 then some factor else none

/-- How long the `k`-th suspension in a row lasts. A time that the factor takes out of range counts
as longer than the cap. -/
def duration (c : SuspensionConfig) (k : Nat) : Duration :=
  let grown := ((c.factor? k).bind c.backoff.times?).getD c.cap
  max (min grown c.cap) shortest

end SuspensionConfig

/-- Whether a connection is suspended. It stays so after the suspension is over, until a success. -/
inductive HealthState where
  | healthy
  | suspended
deriving DecidableEq, Repr

/-- The health of a connection at one moment. The suspensions are those in a row since the last
success, and for the `remaining` nanoseconds no attempt is let through. -/
structure Health where
  state : HealthState
  failures : Nat
  suspensions : Nat
  remaining : Nat
deriving DecidableEq, Repr

/-- What the record of a failure did: it was counted and nothing else, or it suspended the
connection. -/
inductive FailureRecord where
  | counted (failures : Nat)
  | suspended (failures : Nat) (backoff : Duration)
deriving DecidableEq

/-- The suspension policy of one connection: the failures and the suspensions since the last
success, and when the latest of these suspensions ends. -/
structure SuspensionPolicy where
  config : SuspensionConfig
  failures : Nat
  suspensions : Nat
  until? : Option Instant
deriving DecidableEq

namespace SuspensionPolicy

/-- The policy of a connection that was never used. -/
def fresh (config : SuspensionConfig) : SuspensionPolicy :=
  ⟨config, 0, 0, none⟩

/-- How long from `now` on no attempt is let through: nothing if there is no suspension or it is
over. -/
def remaining (p : SuspensionPolicy) (now : Instant) : Nat :=
  match p.until? with
  | some deadline => deadline - now
  | none => 0

/-- Lets an attempt through, or gives the nanoseconds left of the suspension. -/
def attempt (p : SuspensionPolicy) (now : Instant) : Except Nat Unit :=
  if 0 < p.remaining now then .error (p.remaining now) else .ok ()

/-- Records a success, and whether it ended a suspension. -/
def succeed (p : SuspensionPolicy) : Bool × SuspensionPolicy :=
  (p.until?.isSome, fresh p.config)

/-- Whether the clock cannot tell when the latest suspension ends. The process has aborted over the
failure that was to open it. -/
def overflows (p : SuspensionPolicy) : Bool :=
  match p.until? with
  | some deadline => clockEnd ≤ deadline
  | none => false

/-- Records a failure. An attempt that was let through before a suspension and fails during it is
only counted. What suspends the connection for too long for the clock leaves a policy that
overflows. -/
def fail (p : SuspensionPolicy) (now : Instant) : FailureRecord × SuspensionPolicy :=
  let failures := bump p.failures
  let p := { p with failures := failures }
  if p.config.maxFailures = 0 ∨ failures < p.config.maxFailures.toNat ∨ 0 < p.remaining now then
    (.counted failures, p)
  else
    let suspensions := bump p.suspensions
    let backoff := p.config.duration suspensions
    (.suspended failures backoff,
      { p with suspensions := suspensions, until? := some (now + backoff.nanos) })

/-- The health at one moment. -/
def health (p : SuspensionPolicy) (now : Instant) : Health where
  state := if p.until?.isSome then .suspended else .healthy
  failures := p.failures
  suspensions := p.suspensions
  remaining := p.remaining now

end SuspensionPolicy

end FileGateway

import FileGateway.Proofs.Suspension.Growth
import FileGateway.Proofs.Suspension.History

/-!
# Suspensions and the end of the clock

A window ends some time after the failure that has opened it, and a clock can tell only so many
moments: its seconds are kept with a sign in 64 bits. The power and the product that a suspension
grows by are checked, and what does not fit counts as the cap; but the cap itself is any duration
that the configuration names, and nothing checks the sum of the moment and the suspension.

* `forall_duration_le_iff` says how long suspensions get: a configuration that grows at all comes to
  its cap in the end, one that does not stays with its first suspension;
* `withinClock_iff` says for which accepted configurations no window of the first half of the
  clock's time ends after the clock does. It is those that are never suspended, and those whose
  suspensions stay below half of the clock's time;
* `not_withinClock` is about one that is accepted and is not among them.
-/

namespace FileGateway

/-- Half of the clock's time: `2 ^ 62` seconds. -/
def clockHalf : Instant := 4611686018427387904 * nanosPerSecond

namespace SuspensionConfig

variable {c : SuspensionConfig}

/-! ## How long suspensions get -/

/-- A suspension that grows comes to its cap: at the latest when its factor does not fit. -/
theorem nanos_duration_grown (h : 1 < c.multiplier.toNat) :
    (c.duration 33).nanos = max shortest.nanos c.cap.nanos := by
  have hgrown : ¬ c.growth 33 < word32 := Nat.not_lt.2 (word32_le_growth h (by decide))
  rw [nanos_duration, if_neg hgrown]

/-- A suspension that does not grow lasts as long as the first one. -/
theorem nanos_duration_constant (h : c.multiplier.toNat ≤ 1) (k : Nat) :
    (c.duration k).nanos = max shortest.nanos (min c.backoff.nanos c.cap.nanos) := by
  have hone := growth_of_le (k := k) h
  rw [nanos_duration, hone, if_pos (by decide), law, hone, Nat.mul_one]

/-- The suspensions of a configuration keep below a limit if the cap does, or if they do not grow
and the first one does. -/
theorem forall_duration_le_iff {limit : Nat} (hlimit : shortest.nanos ≤ limit) :
    (∀ k, 1 ≤ k → k < word32 → (c.duration k).nanos ≤ limit) ↔
      c.cap.nanos ≤ limit ∨ c.multiplier.toNat ≤ 1 ∧ c.backoff.nanos ≤ limit := by
  constructor
  · intro h
    by_cases hgrows : c.multiplier.toNat ≤ 1
    · have hfirst := h 1 (by decide) (by decide)
      rw [nanos_duration_constant hgrows] at hfirst
      omega
    · have hlate := h 33 (by decide) (by decide)
      rw [nanos_duration_grown (Nat.lt_of_not_le hgrows)] at hlate
      omega
  · rintro (hcap | ⟨hconstant, hbackoff⟩) k - -
    · have hle : (c.duration k).nanos ≤ (max c.cap shortest).nanos := c.duration_le k
      rw [Duration.nanos_max] at hle
      omega
    · rw [nanos_duration_constant hconstant]
      omega

/-! ## Windows -/

/-- Whatever a policy has counted when it records a failure in the first half of the clock's time:
if the failure suspends the connection, the window ends before the clock does. -/
def WithinClock (c : SuspensionConfig) : Prop :=
  ∀ (p : SuspensionPolicy) (now : Instant), p.config = c → now < clockHalf →
    ∀ failures backoff, (p.fail now).1 = .suspended failures backoff →
      (p.fail now).2.until? = some (now + backoff.nanos) ∧ now + backoff.nanos < clockEnd

/-- A failure is only counted, or it opens a window that lasts as long as the next suspension. -/
theorem fail_cases (p : SuspensionPolicy) (now : Instant) :
    p.fail now = (.counted (bump p.failures), { p with failures := bump p.failures }) ∨
      p.config.maxFailures ≠ 0 ∧
        p.fail now = (.suspended (bump p.failures) (p.config.duration (bump p.suspensions)),
          ⟨p.config, bump p.failures, bump p.suspensions,
            some (now + (p.config.duration (bump p.suspensions)).nanos)⟩) := by
  by_cases hcounts : p.config.maxFailures = 0 ∨ bump p.failures < p.config.maxFailures.toNat ∨
      0 < p.remaining now
  · exact .inl (if_pos hcounts)
  · exact .inr ⟨fun hzero => hcounts (.inl hzero), if_neg hcounts⟩

/-- A policy that has counted as far as it can and has no window: its next failure suspends. -/
theorem fail_of_many (hmax : c.maxFailures ≠ 0) (k : Nat) (now : Instant) :
    ((⟨c, word32 - 1, k, none⟩ : SuspensionPolicy).fail now).1 =
      .suspended (word32 - 1) (c.duration (bump k)) := by
  have hlimit : c.maxFailures.toNat ≤ word32 - 1 := Nat.le_sub_one_of_lt c.maxFailures.toNat_lt
  have hsuspends : ¬ (c.maxFailures = 0 ∨ bump (word32 - 1) < c.maxFailures.toNat ∨ 0 < 0) := by
    rintro (hzero | hfew | hwindow)
    · exact hmax hzero
    · exact Nat.not_lt.2 hlimit hfew
    · exact Nat.lt_irrefl 0 hwindow
  exact congrArg Prod.fst (if_neg hsuspends)

theorem bump_mem_range (k : Nat) : 1 ≤ bump k ∧ bump k < word32 := by
  unfold bump word32
  omega

theorem bump_pred {k : Nat} (hk : 1 ≤ k) (hlt : k < word32) : bump (k - 1) = k := by
  unfold word32 at hlt
  unfold bump word32
  omega

theorem clockEnd_eq : clockEnd = clockHalf + clockHalf := by
  decide

theorem withinClock_iff_duration : c.WithinClock ↔
    c.maxFailures = 0 ∨ ∀ k, 1 ≤ k → k < word32 → (c.duration k).nanos ≤ clockHalf := by
  constructor
  · intro h
    by_cases hmax : c.maxFailures = 0
    · exact .inl hmax
    · refine .inr fun k hk hlt => ?_
      -- the last moment of the first half is the worst one
      have hstarts : 0 < clockHalf := by decide
      have hlast : clockHalf - 1 < clockHalf := Nat.sub_one_lt_of_lt hstarts
      have hwindow := (h ⟨c, word32 - 1, k - 1, none⟩ (clockHalf - 1) rfl hlast _ _
        (fail_of_many hmax (k - 1) (clockHalf - 1))).2
      rw [bump_pred hk hlt, clockEnd_eq] at hwindow
      have hlate : ∀ half length : Nat, 0 < half → half - 1 + length < half + half →
          length ≤ half := by omega
      exact hlate _ _ hstarts hwindow
  · intro h p now hconfig hnow failures backoff hfail
    rcases fail_cases p now with hcounted | ⟨hmax, hsuspended⟩
    · rw [hcounted] at hfail
      cases hfail
    · rw [hsuspended] at hfail ⊢
      cases hfail
      rw [hconfig] at hmax ⊢
      have hrange := bump_mem_range p.suspensions
      have hshort := h.resolve_left hmax _ hrange.1 hrange.2
      refine ⟨rfl, ?_⟩
      rw [clockEnd_eq]
      exact Nat.add_lt_add_of_lt_of_le hnow hshort

/-- The first failure of a connection is too much for the clock if it suspends the connection at
once, until a moment that the clock cannot tell. -/
theorem overflows_fail_fresh (c : SuspensionConfig) (now : Instant) :
    ((SuspensionPolicy.fresh c).fail now).2.overflows = true ↔
      c.maxFailures = 1 ∧ clockEnd ≤ now + (c.duration 1).nanos := by
  have hone : c.maxFailures = 1 ↔ c.maxFailures.toNat = 1 := by
    rw [← UInt32.toNat_inj]
    rfl
  have hzero : c.maxFailures = 0 ↔ c.maxFailures.toNat = 0 := by
    rw [← UInt32.toNat_inj]
    rfl
  have hbump : bump 0 = 1 := rfl
  rw [hone]
  by_cases hcounts : c.maxFailures = 0 ∨ 1 < c.maxFailures.toNat ∨ 0 < 0
  · have hcounted : ((SuspensionPolicy.fresh c).fail now).2.overflows = false :=
      congrArg (fun r : FailureRecord × SuspensionPolicy => r.2.overflows) (if_pos hcounts)
    rw [hcounted]
    constructor
    · intro h
      cases h
    · rintro ⟨h, -⟩
      rw [hzero] at hcounts
      omega
  · have hsuspended : ((SuspensionPolicy.fresh c).fail now).2.overflows =
        decide (clockEnd ≤ now + (c.duration (bump 0)).nanos) :=
      congrArg (fun r : FailureRecord × SuspensionPolicy => r.2.overflows) (if_neg hcounts)
    rw [hsuspended, hbump, decide_eq_true_iff]
    rw [hzero] at hcounts
    constructor
    · intro h
      exact ⟨by omega, h⟩
    · intro h
      exact h.2

/-! ## Runs -/

/-- The window of a policy, if it has one, ends before the clock does. -/
def EndsInTime (c : SuspensionConfig) (p : SuspensionPolicy) : Prop :=
  p.config = c ∧ p.overflows = false

theorem EndsInTime.ask {p : SuspensionPolicy} (h : c.EndsInTime p) (hclock : c.WithinClock)
    (query : SuspensionPolicy.Query) {now : Instant} (hnow : now < clockHalf) :
    c.EndsInTime (p.ask query now).2 := by
  cases query with
  | attempt => exact h
  | health => exact h
  | succeed => exact ⟨h.1, rfl⟩
  | fail =>
    change c.EndsInTime (p.fail now).2
    rcases fail_cases p now with hcounted | ⟨-, hsuspended⟩
    · rw [hcounted]
      exact h
    · have hwindow := hclock p now h.1 hnow _ _ (congrArg Prod.fst hsuspended)
      refine ⟨hsuspended ▸ h.1, ?_⟩
      rw [SuspensionPolicy.overflows, hwindow.1]
      exact decide_eq_false (Nat.not_le.2 hwindow.2)

/-- Whatever a policy is asked in the first half of the clock's time, its window ends before the
clock does, and no process aborts over it. -/
theorem WithinClock.endsInTime (h : c.WithinClock)
    (calls : List (SuspensionPolicy.Query × Instant)) (hcalls : ∀ call ∈ calls, call.2 < clockHalf) :
    c.EndsInTime (SuspensionPolicy.history c calls).1 := by
  have hrun : ∀ (calls : List (SuspensionPolicy.Query × Instant))
      (state : SuspensionPolicy × List SuspensionPolicy.Record), c.EndsInTime state.1 →
        (∀ call ∈ calls, call.2 < clockHalf) →
          c.EndsInTime (calls.foldl SuspensionPolicy.proceed state).1 := by
    intro calls
    induction calls with
    | nil => exact fun state hstate _ => hstate
    | cons call calls ih =>
      intro state hstate hcalls
      exact ih _ (hstate.ask h call.1 (hcalls call List.mem_cons_self))
        fun later hlater => hcalls later (List.mem_cons_of_mem call hlater)
  exact hrun calls _ ⟨rfl, rfl⟩ hcalls

/-! ## Accepted configurations -/

/-- The factor of an accepted configuration is at least one. -/
theorem multiplier_ne_zero {c : ConnectionConfig} (h : c.fault? = none) :
    c.backoffMultiplier ≠ 0 := by
  intro hzero
  unfold ConnectionConfig.fault? at h
  repeat' split at h
  all_goals cases h

theorem multiplier_le_one_iff {c : ConnectionConfig} (h : c.fault? = none) :
    (ofConfig c).multiplier.toNat ≤ 1 ↔ c.backoffMultiplier = 1 := by
  have hzero : c.backoffMultiplier = 0 ↔ c.backoffMultiplier.toNat = 0 := by
    rw [← UInt32.toNat_inj]
    rfl
  have hone : c.backoffMultiplier = 1 ↔ c.backoffMultiplier.toNat = 1 := by
    rw [← UInt32.toNat_inj]
    rfl
  have hpositive : c.backoffMultiplier.toNat ≠ 0 := fun heq => multiplier_ne_zero h (hzero.2 heq)
  rw [hone]
  change c.backoffMultiplier.toNat ≤ 1 ↔ _
  omega

/-- Of an accepted configuration every window keeps within the clock's time if and only if the
connection is never suspended, or its suspensions cannot get longer than half of that time: because
of the cap, or because they do not grow. -/
theorem withinClock_iff (c : ConnectionConfig) (h : c.fault? = none) :
    (ofConfig c).WithinClock ↔
      c.maxFailures = 0 ∨ (ofConfig c).cap.nanos ≤ clockHalf ∨
        c.backoffMultiplier = 1 ∧ c.suspendDuration.nanos ≤ clockHalf := by
  have hlimit : shortest.nanos ≤ clockHalf := by decide
  have hone : (ofConfig c).multiplier.toNat ≤ 1 ↔ c.backoffMultiplier = 1 :=
    multiplier_le_one_iff h
  rw [withinClock_iff_duration, forall_duration_le_iff hlimit, hone]
  rfl

/-- A suspension of at most five minutes that doubles from five seconds on. -/
theorem withinClock_doubled : (⟨3, .ofSeconds 5, 2, some (.ofSeconds 300)⟩ :
    SuspensionConfig).WithinClock := by
  let c : ConnectionConfig := { ConnectionConfig.onDisk "default" "out" ⟨"/"⟩ with
    suspendDuration := .ofSeconds 5
    backoffMultiplier := 2
    maxBackoff := some (.ofSeconds 300) }
  exact (withinClock_iff c (by decide +kernel)).2 (.inr (.inl (by decide)))

/-- A connection that is suspended for `2 ^ 63` seconds at once, and may be. Its configuration is
accepted, and the first failure opens a window that the clock cannot tell the end of. -/
theorem not_withinClock :
    ¬ ∀ c : ConnectionConfig, c.fault? = none → (ofConfig c).WithinClock := by
  intro h
  let long : Duration := .ofSeconds 9223372036854775808
  let c : ConnectionConfig := { ConnectionConfig.onDisk "default" "out" ⟨"/"⟩ with
    maxFailures := 1
    suspendDuration := long
    maxBackoff := some long }
  have hwindow := h c (by decide +kernel) (.fresh (ofConfig c)) 0 rfl (by decide) 1 long (by decide)
  have hlate : clockEnd ≤ 0 + long.nanos := by decide
  exact Nat.not_lt.2 hlate hwindow.2

end SuspensionConfig

end FileGateway

import FileGateway.Suspension

/-!
# How suspensions grow

By the law of growth the `k`-th suspension in a row lasts `backoff * multiplier ^ (k - 1)`, but no
longer than the cap and no shorter than a millisecond. The factor is kept in 32 bits, and a factor
that does not fit counts as a time beyond the cap.

* `duration_growth` says what this makes of the law: it holds as long as the factor fits. Beyond,
  every suspension lasts as long as the cap, so the law holds only if the product has reached the
  cap by then, or if the cap is so short that it does not matter;
* `shortest_le_duration`, `duration_le` and `duration_mono` hold of every configuration: suspensions
  keep between a millisecond and the cap, and do not get shorter;
* `nanos_duration_of_le` is about configurations with a backoff that is long enough for the cap.
  They keep the law for ever, as all do that have no cap of their own and a backoff of 21
  microseconds or more;
* `not_duration_law` is about one that does not.
-/

namespace FileGateway.SuspensionConfig

/-- How much longer the `k`-th suspension in a row is than the first one. -/
def growth (c : SuspensionConfig) (k : Nat) : Nat :=
  Nat.pow (max c.multiplier.toNat 1) (k - 1)

/-- How long the `k`-th suspension in a row lasts by the law of growth, in nanoseconds. -/
def law (c : SuspensionConfig) (k : Nat) : Nat :=
  max shortest.nanos (min (c.backoff.nanos * c.growth k) c.cap.nanos)

variable {c : SuspensionConfig} {k : Nat}

/-! ## The factor -/

theorem growth_of_le (h : c.multiplier.toNat ≤ 1) : c.growth k = 1 := by
  have hone : max c.multiplier.toNat 1 = 1 := by omega
  rw [growth, hone]
  exact Nat.one_pow (k - 1)

/-- From the 33rd suspension on a factor that grows at all is too great for 32 bits. -/
theorem word32_le_growth (h : 1 < c.multiplier.toNat) (hk : 32 < k) : word32 ≤ c.growth k := by
  have hbase : 2 ≤ max c.multiplier.toNat 1 := by omega
  have hexponent : 32 ≤ k - 1 := by omega
  calc word32 = Nat.pow 2 32 := rfl
    _ ≤ Nat.pow 2 (k - 1) := Nat.pow_le_pow_right (by decide) hexponent
    _ ≤ c.growth k := Nat.pow_le_pow_left hbase (k - 1)

theorem factor?_eq (c : SuspensionConfig) (k : Nat) :
    c.factor? k = if c.growth k < word32 then some (c.growth k) else none := by
  unfold factor?
  split
  · next h =>
    rw [growth_of_le h]
    rfl
  · next h =>
    have hgrows : 1 < c.multiplier.toNat := Nat.lt_of_not_le h
    split
    · next hk =>
      have hgreat := word32_le_growth hgrows hk
      rw [if_neg (Nat.not_lt.2 hgreat)]
    · have hbase : max c.multiplier.toNat 1 = c.multiplier.toNat := by omega
      rw [growth, hbase]

/-! ## The duration -/

/-- A product that is too long for a duration is longer than every cap, so it counts as the cap. -/
theorem nanos_min_times? (d cap : Duration) (n : Nat) :
    (min ((d.times? n).getD cap) cap).nanos = min (d.nanos * n) cap.nanos := by
  rw [Duration.nanos_min]
  cases h : d.times? n with
  | some grown =>
    have hgrown : grown.nanos = d.nanos * n := Duration.ofNanos?_eq_some_iff.1 h
    rw [Option.getD_some, hgrown]
  | none =>
    have hlong : durationLimit ≤ d.nanos * n := Duration.ofNanos?_eq_none_iff.1 h
    have hcap := cap.bounded
    rw [Option.getD_none]
    omega

theorem nanos_duration (c : SuspensionConfig) (k : Nat) :
    (c.duration k).nanos =
      if c.growth k < word32 then c.law k else max shortest.nanos c.cap.nanos := by
  have hmax := Nat.max_comm shortest.nanos
  rw [duration, Duration.nanos_max, factor?_eq]
  split
  · rw [Option.bind_some, nanos_min_times?, law, hmax]
  · rw [Option.bind_none, Option.getD_none, Duration.nanos_min, Nat.min_self, hmax]

/-- When a suspension lasts as long as the law says. -/
theorem nanos_duration_eq_law_iff :
    (c.duration k).nanos = c.law k ↔
      c.growth k < word32 ∨ c.cap.nanos ≤ c.backoff.nanos * c.growth k ∨
        c.cap.nanos ≤ shortest.nanos := by
  rw [nanos_duration]
  split
  · next h => exact iff_of_true rfl (Or.inl h)
  · next h =>
    -- the cap stands where the law has the product, which makes no difference in two cases
    rw [law]
    omega

/-- A backoff of which `2 ^ 32` times the length reach the cap keeps the law for ever. -/
theorem nanos_duration_of_le (h : c.cap.nanos ≤ c.backoff.nanos * word32) (k : Nat) :
    (c.duration k).nanos = c.law k := by
  refine nanos_duration_eq_law_iff.2 ?_
  by_cases hfits : c.growth k < word32
  · exact Or.inl hfits
  · have hgreat : word32 ≤ c.growth k := Nat.le_of_not_lt hfits
    exact Or.inr (Or.inl (Nat.le_trans h (Nat.mul_le_mul_left _ hgreat)))

/-- Twenty-one microseconds are enough for a day. -/
example : (fixed 3 ⟨21000, by decide⟩).cap.nanos ≤ 21000 * word32 := by decide

/-! ## Bounds -/

theorem growth_mono (c : SuspensionConfig) {j : Nat} (h : k ≤ j) : c.growth k ≤ c.growth j := by
  have hbase : 0 < max c.multiplier.toNat 1 := by omega
  exact Nat.pow_le_pow_right hbase (Nat.sub_le_sub_right h 1)

/-- No suspension is longer than the cap, unless the cap is too short. -/
theorem law_le (c : SuspensionConfig) (k : Nat) : c.law k ≤ max shortest.nanos c.cap.nanos := by
  unfold law
  omega

theorem shortest_le_duration (c : SuspensionConfig) (k : Nat) : shortest ≤ c.duration k := by
  change shortest.nanos ≤ (c.duration k).nanos
  rw [duration, Duration.nanos_max]
  exact Nat.le_max_right _ _

theorem duration_le (c : SuspensionConfig) (k : Nat) : c.duration k ≤ max c.cap shortest := by
  change (c.duration k).nanos ≤ (max c.cap shortest).nanos
  rw [Duration.nanos_max, Nat.max_comm, nanos_duration]
  split
  · exact c.law_le k
  · exact Nat.le_refl _

/-- A later suspension is not shorter, also where the law does not hold. -/
theorem duration_mono (c : SuspensionConfig) {j : Nat} (h : k ≤ j) :
    c.duration k ≤ c.duration j := by
  change (c.duration k).nanos ≤ (c.duration j).nanos
  have hgrowth := c.growth_mono h
  rw [nanos_duration, nanos_duration]
  by_cases hj : c.growth j < word32
  · rw [if_pos hj, if_pos (Nat.lt_of_le_of_lt hgrowth hj)]
    have hproduct := Nat.mul_le_mul_left c.backoff.nanos hgrowth
    unfold law
    omega
  · -- the later one lasts as long as the cap, and no suspension lasts longer
    rw [if_neg hj]
    split
    · exact c.law_le k
    · exact Nat.le_refl _

/-- How long the `k`-th suspension in a row lasts, and when this is what the law says. -/
theorem duration_growth (c : SuspensionConfig) (k : Nat) :
    ((c.duration k).nanos =
      if c.growth k < word32 then c.law k else max shortest.nanos c.cap.nanos) ∧
    ((c.duration k).nanos = c.law k ↔
      c.growth k < word32 ∨ c.cap.nanos ≤ c.backoff.nanos * c.growth k ∨
        c.cap.nanos ≤ shortest.nanos) :=
  ⟨nanos_duration c k, nanos_duration_eq_law_iff⟩

/-- Ten microseconds are doubled up to a day. The 33rd suspension should last 42949.67296 seconds,
less than half a day, but the factor of `2 ^ 32` does not fit, and so it lasts the day. -/
theorem not_duration_law :
    ¬ ∀ (c : SuspensionConfig) (k : Nat), 1 ≤ k → k < word32 → (c.duration k).nanos = c.law k := by
  intro h
  have hday := h ⟨1, ⟨10000, by decide⟩, 2, none⟩ 33 (by decide) (by decide)
  revert hday
  decide

end FileGateway.SuspensionConfig

import Mathlib.Data.List.Chain
import FileGateway.Proofs.Suspension.Growth
import FileGateway.Proofs.Suspension.Traffic

/-!
# Suspensions throttle

A backend that fails all the time is asked less and less often.

* `Spaced` is about a policy that records failures and no success: each suspension begins when the
  one before is over or later, and is not shorter. `spaced_history` is about all its histories, in
  which the clock need not even advance;
* `Apart` is about a caller that resolves one path after the other, and whose store fails every
  time: how far apart two attempts are that come to the store. `apart_takeTurns` is about all its
  traffic;
* `throttled` puts the two together.
-/

namespace FileGateway

open SuspensionPolicy (Query Record history counterMax)

/-! ## Windows -/

namespace SuspensionPolicy

/-- The suspension that a call has begun, if it has: when it began and how long it lasts. -/
def Record.window? (r : Record) : Option (Instant × Duration) :=
  match r.answer with
  | .failed (.suspended _ backoff) => some (r.time, backoff)
  | _ => none

/-- The suspensions of a history, the earliest first. -/
def windows (past : List Record) : List (Instant × Duration) :=
  (past.filterMap Record.window?).reverse

/-- Suspensions within their bounds, of which none overlaps the next one or is longer. -/
structure Spaced (config : SuspensionConfig) (windows : List (Instant × Duration)) : Prop where
  bounded : ∀ w ∈ windows, SuspensionConfig.shortest ≤ w.2 ∧
    w.2 ≤ max config.cap SuspensionConfig.shortest
  chained : windows.IsChain fun w next => w.2 ≤ next.2 ∧ w.1 + w.2.nanos ≤ next.1

/-- A policy has recorded failures with these suspensions, and no success. The latest suspension is
the one that the policy goes by. -/
structure Opened (c : SuspensionConfig) (windows : List (Instant × Duration))
    (p : SuspensionPolicy) : Prop where
  config : p.config = c
  suspensions : p.suspensions = min windows.length counterMax
  deadline : p.until? = windows.getLast?.map fun w => w.1 + w.2.nanos
  latest : ∀ w ∈ windows.getLast?, w.2 = c.duration (min windows.length counterMax)
  spaced : Spaced c windows

variable {config : SuspensionConfig} {p : SuspensionPolicy} {now : Instant}

theorem windows_cons (r : Record) (past : List Record) :
    windows (r :: past) = windows past ++ r.window?.toList := by
  rw [windows, windows, List.filterMap_cons]
  cases r.window? with
  | none => simp
  | some w => simp

theorem opened_fresh (config : SuspensionConfig) : Opened config [] (.fresh config) := by
  constructor
  · rfl
  · rfl
  · rfl
  · intro w hw
    cases hw
  · constructor
    · intro w hw
      cases hw
    · exact .nil

/-- One more suspension, which lasts as long as it is its turn. -/
theorem Spaced.concat {windows : List (Instant × Duration)} (h : Spaced config windows)
    (hlatest : ∀ w ∈ windows.getLast?, w.2 = config.duration (min windows.length counterMax))
    (hover : ∀ w ∈ windows.getLast?, w.1 + w.2.nanos ≤ now) :
    Spaced config
      (windows ++ [(now, config.duration (min (windows.length + 1) counterMax))]) := by
  constructor
  · intro w hw
    rcases List.mem_append.1 hw with hw | hw
    · exact h.bounded w hw
    · cases List.mem_singleton.1 hw
      exact ⟨config.shortest_le_duration _, config.duration_le _⟩
  · refine List.isChain_append.2 ⟨h.chained, .singleton _, fun w hw next hnext => ?_⟩
    cases hnext
    refine ⟨?_, hover w hw⟩
    rw [hlatest w hw]
    exact config.duration_mono (by omega)

/-- A failure opens a window only if the one before is over. -/
theorem Opened.fail {windows : List (Instant × Duration)} (h : Opened config windows p)
    (now : Instant) :
    Opened config
      (windows ++ (Record.window? ⟨.fail, now, .failed (p.fail now).1⟩).toList) (p.fail now).2 := by
  simp only [SuspensionPolicy.fail]
  split
  · -- it only counts
    simp only [Record.window?, Option.toList_none, List.append_nil]
    exact ⟨h.config, h.suspensions, h.deadline, h.latest, h.spaced⟩
  · next hopens =>
    have hsuspensions : bump p.suspensions = min (windows.length + 1) counterMax := by
      rw [h.suspensions, bump_min]
    have hover : ∀ w ∈ windows.getLast?, w.1 + w.2.nanos ≤ now := by
      intro w hw
      have hdeadline : p.until? = some (w.1 + w.2.nanos) := by
        rw [h.deadline, Option.mem_def.1 hw]
        rfl
      simp only [not_or, SuspensionPolicy.remaining, hdeadline] at hopens
      exact Nat.sub_eq_zero_iff_le.1 (Nat.eq_zero_of_not_pos hopens.2.2)
    simp only [Record.window?, Option.toList_some, hsuspensions, h.config]
    constructor
    · rfl
    · rw [List.length_append, List.length_singleton]
    · rw [List.getLast?_concat]
      rfl
    · intro w hw
      rw [List.getLast?_concat] at hw
      cases hw
      rw [List.length_append, List.length_singleton]
    · exact h.spaced.concat h.latest hover

theorem Opened.ask {windows : List (Instant × Duration)} (h : Opened config windows p)
    {query : Query} (hquery : query ≠ .succeed) (now : Instant) :
    Opened config (windows ++ (Record.window? ⟨query, now, (p.ask query now).1⟩).toList)
      (p.ask query now).2 := by
  cases query with
  | succeed => exact absurd rfl hquery
  | fail => exact h.fail now
  | attempt =>
    rw [show (Record.window? ⟨.attempt, now, (p.ask .attempt now).1⟩).toList = [] from rfl,
      List.append_nil]
    exact h
  | health =>
    rw [show (Record.window? ⟨.health, now, (p.ask .health now).1⟩).toList = [] from rfl,
      List.append_nil]
    exact h

/-- Whatever a policy is asked and whenever, as long as it records no success: its suspensions do
not overlap, and they do not get shorter. -/
theorem spaced_history (config : SuspensionConfig) (calls : List (Query × Instant))
    (hcalls : ∀ call ∈ calls, call.1 ≠ .succeed) :
    Spaced config (windows (history config calls).2) := by
  suffices hrun : ∀ (p : SuspensionPolicy) (past : List Record), Opened config (windows past) p →
      Spaced config (windows (calls.foldl proceed (p, past)).2) from
    hrun _ [] (opened_fresh config)
  -- over the calls to come, for every policy that has opened the windows of its past
  induction calls with
  | nil => exact fun p past h => h.spaced
  | cons call rest ih =>
    intro p past h
    refine ih (fun c hc => hcalls c (List.mem_cons_of_mem _ hc)) _ _ ?_
    rw [windows_cons]
    exact h.ask (hcalls call List.mem_cons_self) call.2

/-! ## Failures that were let through -/

/-- The policy after so many failures in a row, each of which was let through, the last one at a
time. -/
def failing (config : SuspensionConfig) (n : Nat) (last : Instant) : SuspensionPolicy where
  config := config
  failures := min n counterMax
  suspensions := min (n + 1 - config.maxFailures.toNat) counterMax
  until? :=
    if config.maxFailures.toNat ≤ n then
      some (last +
        (config.duration (min (n + 1 - config.maxFailures.toNat) counterMax)).nanos)
    else none

theorem failing_zero (h : 0 < config.maxFailures.toNat) (last : Instant) :
    failing config 0 last = .fresh config := by
  have hnone : 0 + 1 - config.maxFailures.toNat = 0 := by omega
  rw [failing, if_neg (Nat.not_le.2 h), hnone]
  rfl

/-- From the limit on, every failure that was let through suspends. -/
theorem fail_failing (h : 0 < config.maxFailures.toNat) {n : Nat} {last : Instant}
    (hopen : (failing config n last).remaining now = 0) :
    ((failing config n last).fail now).2 = failing config (n + 1) now := by
  have hlimit : config.maxFailures.toNat ≤ counterMax :=
    Nat.le_sub_one_of_lt config.maxFailures.toNat_lt
  have hzero : config.maxFailures ≠ 0 := by
    intro heq
    rw [heq] at h
    exact Nat.lt_irrefl 0 h
  have hremaining : ∀ count, SuspensionPolicy.remaining
      { failing config n last with failures := count } now = 0 := fun _ => hopen
  by_cases hfew : n + 1 < config.maxFailures.toNat
  · have hcounts : min (n + 1) counterMax < config.maxFailures.toNat := by omega
    have hnone : n + 1 - config.maxFailures.toNat = 0 := by omega
    have hnone' : n + 1 + 1 - config.maxFailures.toNat = 0 := by omega
    simp only [SuspensionPolicy.fail, hremaining]
    simp only [failing, bump_min, hcounts, true_or, or_true, if_true, hnone, hnone']
    rw [if_neg (by omega), if_neg (by omega)]
  · have hmany : ¬ min (n + 1) counterMax < config.maxFailures.toNat := by omega
    have hnext : n + 1 - config.maxFailures.toNat + 1 = n + 1 + 1 - config.maxFailures.toNat := by
      omega
    simp only [SuspensionPolicy.fail, hremaining]
    simp only [failing, bump_min, hzero, hmany, Nat.lt_irrefl, or_self, if_false, hnext]
    rw [if_pos (by omega)]

end SuspensionPolicy

/-! ## One call after the other -/

namespace Traffic

/-- When the store was asked, if the message tells so. -/
def Message.start? : Message → Option Instant
  | asked _ time _ => some time
  | answered _ _ _ => none

/-- When the store was asked, the earliest first. -/
def starts (log : List Message) : List Instant :=
  (log.filterMap Message.start?).reverse

/-- Whether a call waits. -/
def isBusy (c : Traffic) : Bool :=
  c.gateway.tasks.any isWaiting

/-- Whether the event is a call that comes. -/
def Event.isCall : Event → Bool
  | resolve _ => true
  | _ => false

/-- An event of a caller that makes one call at a time: while one waits, no other comes. -/
def takeTurn (c : Traffic) (e : Event) : Traffic :=
  if e.isCall ∧ c.isBusy then c else c.step e

/-- What a sequence of events makes of the traffic of such a caller. -/
def takeTurns (c : Traffic) (events : List Event) : Traffic :=
  events.foldl takeTurn c

/-- If the event is an answer, then no path is resolved by it. -/
def Event.Fails : Event → Prop
  | answer _ answers => ∀ backend path options,
    ∃ failure, answers (.store backend (.resolve path options)) = .error failure
  | _ => True

/-- How far apart the store is asked: as soon as there were as many failures as suspend the
connection, the next attempt comes when the next suspension is over, or later. -/
def Apart (config : SuspensionConfig) (times : List Instant) : Prop :=
  ∀ j earlier later, times[config.maxFailures.toNat - 1 + j]? = some earlier →
    times[config.maxFailures.toNat + j]? = some later →
      earlier + (config.duration (min (j + 1) counterMax)).nanos ≤ later

/-- A caller that makes one call at a time, and whose calls have failed: the handle has recorded
`n` failures, the last one at the time `last`.

If a call waits, the store was asked once more than it has failed, and no suspension lasts, as the
call was let through. If none waits, the last call has failed, which was recorded when it did. -/
structure Throttled (config : SuspensionConfig) (c : Traffic) (n : Nat) (last : Instant) :
    Prop where
  handle : ∃ h, c.gateway.shared.handle? c.handle = some h ∧ h.policy = .failing config n last
  count : (starts c.log).length = n + c.gateway.tasks.countP isWaiting
  alone : c.gateway.tasks.countP isWaiting ≤ 1
  past : ∀ t ∈ starts c.log, t ≤ c.gateway.shared.now
  ended : c.isBusy = false → ∀ t ∈ (starts c.log).getLast?, t ≤ last
  waits : c.isBusy = true →
    (SuspensionPolicy.failing config n last).remaining c.gateway.shared.now = 0
  apart : Apart config (starts c.log)

variable {config : SuspensionConfig} {c : Traffic} {h₀ : Handle} {n : Nat} {last : Instant}

theorem starts_cons (m : Message) (log : List Message) :
    starts (m :: log) = starts log ++ m.start?.toList := by
  rw [starts, starts, List.filterMap_cons]
  cases m.start? with
  | none => simp
  | some time => simp

theorem isBusy_iff : c.isBusy = true ↔ 0 < c.gateway.tasks.countP isWaiting := by
  rw [isBusy, List.any_eq_true, List.countP_pos_iff]

theorem isBusy_eq_false : c.isBusy = false ↔ c.gateway.tasks.countP isWaiting = 0 := by
  rw [← Bool.not_eq_true, isBusy_iff]
  omega

/-- A suspension that is over stays over. -/
theorem remaining_mono {p : SuspensionPolicy} {now later : Instant} (h : p.remaining now = 0)
    (hle : now ≤ later) : p.remaining later = 0 := by
  unfold SuspensionPolicy.remaining at h ⊢
  cases huntil : p.until? with
  | none => rfl
  | some deadline =>
    rw [huntil] at h
    exact Nat.sub_eq_zero_of_le (Nat.le_trans (Nat.sub_eq_zero_iff_le.1 h) hle)

theorem Apart.concat {times : List Instant} (h : Apart config times) {now : Instant}
    (hlimit : 0 < config.maxFailures.toNat)
    (hnow : config.maxFailures.toNat ≤ times.length → ∀ t ∈ times.getLast?,
      t + (config.duration (min (times.length + 1 - config.maxFailures.toNat)
        counterMax)).nanos ≤ now) :
    Apart config (times ++ [now]) := by
  intro j earlier later hearlier hlater
  rcases Nat.lt_trichotomy (config.maxFailures.toNat + j) times.length with hj | hj | hj
  · -- both are old
    rw [List.getElem?_append_left (by omega)] at hearlier hlater
    exact h j earlier later hearlier hlater
  · -- the later one is new, and the earlier one was the last one so far
    rw [List.getElem?_append_left (by omega)] at hearlier
    rw [hj, List.getElem?_concat_length] at hlater
    cases hlater
    have hlast : times.getLast? = some earlier := by
      rw [List.getLast?_eq_getElem?, ← hearlier]
      congr 1
      omega
    have hwindow := hnow (by omega) earlier hlast
    have hturn : times.length + 1 - config.maxFailures.toNat = j + 1 := by omega
    rwa [hturn] at hwindow
  · rw [List.getElem?_eq_none (by simp; omega)] at hlater
    cases hlater

theorem throttled_start (s : Shared) (h : Handle) (hlimit : 0 < h.policy.config.maxFailures.toNat)
    (last : Instant) : Throttled h.policy.config (start s h) 0 last := by
  have hhandle : (start s h).gateway.shared.handle? (start s h).handle =
      some { h with policy := .fresh h.policy.config } := by
    simp [start, Registry.build, Shared.handle?, Registry.handle?]
  constructor
  · exact ⟨_, hhandle, (SuspensionPolicy.failing_zero hlimit last).symm⟩
  · rfl
  · exact Nat.zero_le 1
  · intro t ht
    cases ht
  · intro _ t ht
    cases ht
  · intro hbusy
    cases hbusy
  · intro j earlier later hearlier
    cases hearlier

/-- A call comes while no other waits. -/
theorem Throttled.resolve (h : Throttled config c n last) (hlimit : 0 < config.maxFailures.toNat)
    (hidle : c.isBusy = false) (path : Path) :
    Throttled config (c.step (.resolve path)) n last := by
  obtain ⟨h₁, hh₁, hpolicy⟩ := h.handle
  have hnone := isBusy_eq_false.1 hidle
  by_cases hs : ∃ deadline, Suspended h₁ c.gateway.shared.now deadline
  · -- it is rejected, and nothing changes
    obtain ⟨deadline, hs⟩ := hs
    rw [call_suspended hh₁ hs]
    have hcount : ∀ t, isWaiting t = false →
        (c.gateway.tasks ++ [t]).countP isWaiting = c.gateway.tasks.countP isWaiting := by
      intro t ht
      simp [ht]
    constructor
    · exact h.handle
    · rw [hcount _ rfl]
      exact h.count
    · rw [hcount _ rfl]
      exact h.alone
    · exact h.past
    · exact fun _ => h.ended hidle
    · intro hbusy
      rw [isBusy_iff, hcount _ rfl, hnone] at hbusy
      exact absurd hbusy (Nat.lt_irrefl 0)
    · exact h.apart
  · -- it is let through, so the last suspension is over
    have hadmitted : ∀ deadline, ¬ Suspended h₁ c.gateway.shared.now deadline :=
      fun deadline hd => hs ⟨deadline, hd⟩
    rw [call_admitted hh₁ hadmitted]
    have hover : ∀ deadline, h₁.policy.until? = some deadline →
        deadline ≤ c.gateway.shared.now :=
      fun deadline huntil => Nat.le_of_not_lt fun hlt => hadmitted deadline ⟨huntil, hlt⟩
    have hstarts : ∀ request, starts (.asked c.gateway.tasks.length c.gateway.shared.now request ::
        c.log) = starts c.log ++ [c.gateway.shared.now] := fun request => starts_cons _ _
    have hwaiting : (c.gateway.tasks ++ [Task.resolving ⟨c.handle, h₁.key.name, h₁.backend,
        h₁.baseDir.join path, h₁.options⟩]).countP isWaiting = 1 := by
      simp [List.countP_append, hnone, isWaiting]
    have hlength : (starts c.log).length = n := by
      rw [h.count, hnone]
      rfl
    constructor
    · exact h.handle
    · rw [hstarts, hwaiting, List.length_append, hlength]
      rfl
    · rw [hwaiting]
    · intro t ht
      rw [hstarts] at ht
      rcases List.mem_append.1 ht with ht | ht
      · exact h.past t ht
      · exact Nat.le_of_eq (List.mem_singleton.1 ht)
    · intro hidle'
      rw [isBusy_eq_false, hwaiting] at hidle'
      cases hidle'
    · intro _
      unfold SuspensionPolicy.remaining
      cases huntil : (SuspensionPolicy.failing config n last).until? with
      | none => rfl
      | some deadline => exact Nat.sub_eq_zero_of_le (hover deadline (hpolicy ▸ huntil))
    · rw [hstarts]
      refine h.apart.concat hlimit fun hmany t ht => ?_
      rw [hlength] at hmany ⊢
      have hdeadline : h₁.policy.until? = some (last +
          (config.duration (min (n + 1 - config.maxFailures.toNat) counterMax)).nanos) := by
        rw [hpolicy]
        exact if_pos hmany
      exact Nat.le_trans (Nat.add_le_add_right (h.ended hidle t ht) _) (hover _ hdeadline)

/-- Only a call that waits can be answered. -/
theorem Accounted.waiting (h : Accounted h₀ c) {i : TaskId} {p : Pending Gateway}
    (hp : c.gateway.pending? i = some p) :
    ∃ (path : Path) (found : Handle), c.gateway.task? i = some (.resolving
      ⟨c.handle, found.key.name, found.backend, found.baseDir.join path, found.options⟩) := by
  obtain ⟨t, q, ht, hq, -, -⟩ := Gateway.pending?_eq hp
  have hi : i < c.callers.length := by
    rw [h.length]
    exact (List.getElem?_eq_some_iff.1 ht).1
  have hfate := h.fates i _ t (List.getElem?_eq_getElem hi) ht
  generalize c.callers[i] = caller at hfate
  generalize questions i c.log = asked at hfate
  generalize replies i c.log = heard at hfate
  cases hfate with
  | rejected => cases hq
  | ended => cases hq
  | waits path time found admitted => exact ⟨path, found, ht⟩

/-- The store fails the call that waits. -/
theorem Throttled.fails (h : Throttled config c n last) (hlimit : 0 < config.maxFailures.toNat)
    {i : TaskId} {h₁ : Handle} {path : Path}
    (ht : c.gateway.task? i = some
      (.resolving ⟨c.handle, h₁.key.name, h₁.backend, h₁.baseDir.join path, h₁.options⟩))
    {answers : (request : Request) → request.Answer} {failure : Failure}
    (hfails : answers (question h₁ path) = .error failure) :
    Throttled config (c.step (.answer i answers)) (n + 1) c.gateway.shared.now := by
  obtain ⟨h₂, hh₂, hpolicy⟩ := h.handle
  have hset : (c.gateway.tasks.set i _).countP isWaiting + 1 =
      c.gateway.tasks.countP isWaiting + 0 :=
    countP_set isWaiting ht (.finished (.resolved (ending h₁ path (answers (question h₁ path)))))
  have hone := h.alone
  have hwas : c.gateway.tasks.countP isWaiting = 1 := by omega
  have hnone : (c.gateway.tasks.set i (.finished (.resolved
      (ending h₁ path (answers (question h₁ path)))))).countP isWaiting = 0 := by omega
  have hopen := h.waits (isBusy_iff.2 (by omega))
  rw [step_answer ht]
  have hstarts : ∀ reply, starts (.answered i c.gateway.shared.now reply :: c.log) =
      starts c.log := by
    intro reply
    rw [starts_cons]
    exact List.append_nil _
  constructor
  · refine ⟨_, (handle?_modifyHandle _ _ _).trans (congrArg _ hh₂), ?_⟩
    simp only [hfails, verdict, SuspensionPolicy.ask, hpolicy]
    exact SuspensionPolicy.fail_failing hlimit hopen
  · rw [hstarts, hnone, h.count, hwas]
  · rw [hnone]
    exact Nat.zero_le 1
  · rw [hstarts]
    exact h.past
  · intro _ t ht'
    rw [hstarts] at ht'
    exact h.past t (List.mem_of_getLast? ht')
  · intro hbusy
    rw [isBusy_iff, hnone] at hbusy
    exact absurd hbusy (Nat.lt_irrefl 0)
  · rw [hstarts]
    exact h.apart

/-- The options of the handle are changed, or the clock advances. -/
theorem Throttled.passes (h : Throttled config c n last) {s : Shared} {change : Handle → Handle}
    (hhandle : s.handle? c.handle = (c.gateway.shared.handle? c.handle).map change)
    (hnow : c.gateway.shared.now ≤ s.now) (hchange : ∀ h, (change h).policy = h.policy) :
    Throttled config { c with gateway := { c.gateway with shared := s } } n last := by
  obtain ⟨h₁, hh₁, hpolicy⟩ := h.handle
  constructor
  · exact ⟨change h₁, by rw [hhandle, hh₁, Option.map_some], (hchange h₁).trans hpolicy⟩
  · exact h.count
  · exact h.alone
  · exact fun t ht => Nat.le_trans (h.past t ht) hnow
  · exact h.ended
  · exact fun hbusy => remaining_mono (h.waits hbusy) hnow
  · exact h.apart

/-- Whatever happens, the attempts stay apart. -/
theorem Throttled.takeTurn (h : Throttled config c n last) (ha : Accounted h₀ c)
    (hlimit : 0 < config.maxFailures.toNat) {e : Event} (he : e.Fails) :
    ∃ n last, Throttled config (c.takeTurn e) n last := by
  unfold Traffic.takeTurn
  split
  · exact ⟨n, last, h⟩
  · next hturn =>
    cases e with
    | resolve path =>
      have hidle : c.isBusy = false := Bool.eq_false_iff.2 fun hbusy => hturn ⟨rfl, hbusy⟩
      exact ⟨n, last, h.resolve hlimit hidle path⟩
    | answer i answers =>
      cases hp : c.gateway.pending? i with
      | none =>
        refine ⟨n, last, ?_⟩
        simp only [step, hp]
        exact h
      | some p =>
        obtain ⟨path, found, ht⟩ := ha.waiting hp
        obtain ⟨failure, hfails⟩ := he found.backend (found.baseDir.join path) found.options
        exact ⟨n + 1, _, h.fails hlimit ht hfails⟩
    | advance now =>
      have hhandle : ({ c.gateway.shared with now := max c.gateway.shared.now now } : Shared).handle?
          c.handle = (c.gateway.shared.handle? c.handle).map id := by
        rw [Option.map_id, id]
        rfl
      exact ⟨n, last, h.passes hhandle (Nat.le_max_left _ _) fun _ => rfl⟩
    | adjust update =>
      exact ⟨n, last, h.passes (handle?_modifyHandle _ _ _) (Nat.le_refl _) fun _ => rfl⟩
    | reset =>
      refine ⟨n, last, h.passes (handle?_modifyHandle _ _ _) (Nat.le_refl _) fun h₁ => ?_⟩
      simp only [Handle.reset]
      split <;> rfl

theorem Accounted.takeTurn (h : Accounted h₀ c) (e : Event) : Accounted h₀ (c.takeTurn e) := by
  unfold Traffic.takeTurn
  split
  · exact h
  · exact h.step e

/-- However often and whenever a caller tries, one call after the other: if the store fails every
time, then the attempts that come to it are as far apart as the suspensions are long. -/
theorem apart_takeTurns (s : Shared) (h : Handle) (events : List Event)
    (hlimit : 0 < h.policy.config.maxFailures.toNat) (hfails : ∀ e ∈ events, e.Fails) :
    Apart h.policy.config (starts ((start s h).takeTurns events).log) := by
  suffices hrun : ∀ c n last, Accounted h c → Throttled h.policy.config c n last →
      Apart h.policy.config (starts (c.takeTurns events).log) from
    hrun _ 0 0 (accounted_start s h) (throttled_start s h hlimit 0)
  induction events with
  | nil => exact fun c n last ha ht => ht.apart
  | cons e rest ih =>
    intro c n last ha ht
    obtain ⟨n', last', ht'⟩ := ht.takeTurn ha hlimit (hfails e List.mem_cons_self)
    exact ih (fun e' he' => hfails e' (List.mem_cons_of_mem e he')) _ n' last' (ha.takeTurn e) ht'

/-- With a limit of failures, suspensions neither overlap nor get shorter until there is a success.
So if a store fails every time it is asked, one call after the other, then from the limit on the
attempts that come to it are as far apart as the suspensions are long. -/
theorem throttled (config : SuspensionConfig) (hlimit : 0 < config.maxFailures.toNat) :
    (∀ calls : List (Query × Instant), (∀ call ∈ calls, call.1 ≠ .succeed) →
      SuspensionPolicy.Spaced config (SuspensionPolicy.windows (history config calls).2)) ∧
    ∀ (s : Shared) (h : Handle) (events : List Event), h.policy.config = config →
      (∀ e ∈ events, e.Fails) → Apart config (starts ((start s h).takeTurns events).log) := by
  refine ⟨fun calls => SuspensionPolicy.spaced_history config calls, ?_⟩
  rintro s h events rfl hfails
  exact apart_takeTurns s h events hlimit hfails

/-- A store that fails whatever it is asked. -/
def refuse : (request : Request) → request.Answer
  | .store _ _ => .error default
  | .guard _ => ()
  | .slot => ()
  | .pull => .error default
  | .push _ => .error default
  | .flush => .error default

/-- A suspension after each failure, for a second and then for twice as long each time. -/
def doubling : SuspensionConfig :=
  ⟨1, .clamp 1000000000, 2, none⟩

/-- Three calls, of which the second comes too early. -/
def probes : List Event :=
  [.resolve default, .answer 0 refuse, .resolve default, .advance 1000000000, .resolve default]

/-- The first failure suspends the connection for a second. So the second of three calls does not
come to the store, and a failure after a second suspends the connection for two. -/
theorem throttled_probes :
    0 < doubling.maxFailures.toNat ∧
    (let windows := SuspensionPolicy.windows
       (history doubling [(.fail, 0), (.fail, 500000000), (.fail, 1000000000)]).2
     windows = [(0, .ofSeconds 1), (1000000000, .ofSeconds 2)] ∧
      SuspensionPolicy.Spaced doubling windows) ∧
    (let h := Handle.fresh default default default default doubling .default
     let times := starts ((start (.start ⟨"host", "address", 1⟩) h).takeTurns probes).log
     times = [0, 1000000000] ∧ Apart doubling times) := by
  obtain ⟨hspaced, hapart⟩ := throttled doubling (by decide)
  have hfails : ∀ e ∈ probes, e.Fails := by
    simp [probes, Event.Fails, refuse]
  exact ⟨by decide, ⟨by decide, hspaced _ (by decide)⟩, ⟨by decide, hapart _ _ _ rfl hfails⟩⟩

end Traffic

end FileGateway

import Mathlib.Data.List.Basic
import FileGateway.Suspension

/-!
# Suspension as a function of history

A policy keeps two counters and a deadline. Nothing of this is needed to know how it answers: it is
enough to know what it was asked, when, and what it has answered so far. A `Record` is one such
call, and a history is a list of records, the latest first.

* `expected` is the answer that follows from a history: it speaks of the failures and suspensions
  since the last success, and of the window that the latest of these suspensions has opened;
* `Explained` says that every answer of a history is the expected one, and `Reflects` that a policy
  has kept what follows from its history;
* `explained_history` is about every configuration and every sequence of calls.

The clock need not advance between two calls.
-/

namespace FileGateway.SuspensionPolicy

/-- A call of a policy: whether an attempt is let through, that one has succeeded or failed, or for
the health of the connection. -/
inductive Query where
  | attempt
  | succeed
  | fail
  | health
deriving DecidableEq

/-- The answer to a call. A success tells whether it has ended a suspension. -/
inductive Answer where
  | attempted (result : Except Nat Unit)
  | succeeded (recovered : Bool)
  | failed (record : FailureRecord)
  | health (health : Health)

/-- A call, when it was made, and its answer. -/
structure Record where
  query : Query
  time : Instant
  answer : Answer

/-- Answers a call. -/
def ask (p : SuspensionPolicy) (query : Query) (now : Instant) : Answer × SuspensionPolicy :=
  match query with
  | .attempt => (.attempted (p.attempt now), p)
  | .succeed => (.succeeded p.succeed.1, p.succeed.2)
  | .fail => (.failed (p.fail now).1, (p.fail now).2)
  | .health => (.health (p.health now), p)

/-- Answers one more call, and puts it on record. -/
def proceed (state : SuspensionPolicy × List Record) (call : Query × Instant) :
    SuspensionPolicy × List Record :=
  let (answer, p) := state.1.ask call.1 call.2
  (p, ⟨call.1, call.2, answer⟩ :: state.2)

/-- A policy that has answered a sequence of calls, and its history. -/
def history (config : SuspensionConfig) (calls : List (Query × Instant)) :
    SuspensionPolicy × List Record :=
  calls.foldl proceed (.fresh config, [])

/-! ## What follows from a history -/

/-- Whether a failure has suspended the connection. -/
def Record.suspends (r : Record) : Bool :=
  match r.answer with
  | .failed (.suspended _ _) => true
  | _ => false

/-- The records since the last success. -/
def sinceSuccess (past : List Record) : List Record :=
  past.takeWhile fun r => r.query ≠ .succeed

/-- The failures since the last success. -/
def failuresIn (past : List Record) : Nat :=
  (sinceSuccess past).countP fun r => r.query = .fail

/-- The suspensions since the last success. -/
def suspensionsIn (past : List Record) : List Record :=
  (sinceSuccess past).filter Record.suspends

/-- The greatest value of a counter. -/
def counterMax : Nat := word32 - 1

/-- When the window of the latest suspension since the last success ends. -/
def windowEnd? (config : SuspensionConfig) (past : List Record) : Option Instant :=
  (suspensionsIn past).head?.map fun r =>
    r.time + (config.duration (min (suspensionsIn past).length counterMax)).nanos

/-- How much of the window is left. -/
def left (config : SuspensionConfig) (past : List Record) (now : Instant) : Nat :=
  ((windowEnd? config past).map fun deadline => deadline - now).getD 0

/-- Whether so many failures since the last success suspend a connection. -/
def Exceeds (config : SuspensionConfig) (failures : Nat) : Prop :=
  0 < config.maxFailures.toNat ∧ config.maxFailures.toNat ≤ failures

instance (config : SuspensionConfig) (failures : Nat) : Decidable (Exceeds config failures) :=
  inferInstanceAs (Decidable (_ ∧ _))

/-- The answer to a call that follows from the calls before. -/
def expected (config : SuspensionConfig) (past : List Record) (query : Query) (now : Instant) :
    Answer :=
  match query with
  | .attempt =>
    .attempted (if 0 < left config past now then .error (left config past now) else .ok ())
  | .succeed => .succeeded (decide (Exceeds config (failuresIn past)))
  | .fail =>
    let failures := failuresIn past + 1
    if Exceeds config failures ∧ left config past now = 0 then
      .failed (.suspended (min failures counterMax)
        (config.duration (min ((suspensionsIn past).length + 1) counterMax)))
    else .failed (.counted (min failures counterMax))
  | .health =>
    .health
      { state := if Exceeds config (failuresIn past) then .suspended else .healthy
        failures := min (failuresIn past) counterMax
        suspensions := min (suspensionsIn past).length counterMax
        remaining := left config past now }

/-- Every answer follows from the calls before. -/
def Explained (config : SuspensionConfig) : List Record → Prop
  | [] => True
  | r :: past => r.answer = expected config past r.query r.time ∧ Explained config past

/-- A policy has kept of its history what is needed. The connection counts as suspended once there
were too many failures. -/
structure Reflects (c : SuspensionConfig) (past : List Record) (p : SuspensionPolicy) : Prop where
  config : p.config = c
  failures : p.failures = min (failuresIn past) counterMax
  suspensions : p.suspensions = min (suspensionsIn past).length counterMax
  deadline : p.until? = windowEnd? c past
  suspended : p.until?.isSome = true ↔ Exceeds c (failuresIn past)

/-! ## Calls one by one -/

section

variable {c : SuspensionConfig} {past : List Record} {p : SuspensionPolicy} {now : Instant}

theorem sinceSuccess_succeed (answer : Answer) :
    sinceSuccess (⟨.succeed, now, answer⟩ :: past) = [] := by
  simp [sinceSuccess]

theorem sinceSuccess_cons {query : Query} (h : query ≠ .succeed) (answer : Answer) :
    sinceSuccess (⟨query, now, answer⟩ :: past) = ⟨query, now, answer⟩ :: sinceSuccess past := by
  simp [sinceSuccess, h]

theorem failuresIn_fail (answer : Answer) :
    failuresIn (⟨.fail, now, answer⟩ :: past) = failuresIn past + 1 := by
  rw [failuresIn, sinceSuccess_cons (by decide)]
  exact List.countP_cons_of_pos (by simp)

theorem suspensionsIn_cons {query : Query} (h : query ≠ .succeed) (answer : Answer) :
    suspensionsIn (⟨query, now, answer⟩ :: past) =
      if Record.suspends ⟨query, now, answer⟩ then ⟨query, now, answer⟩ :: suspensionsIn past
      else suspensionsIn past := by
  rw [suspensionsIn, sinceSuccess_cons h, List.filter_cons]
  rfl

theorem bump_min (n : Nat) : bump (min n counterMax) = min (n + 1) counterMax := by
  simp only [bump, counterMax]
  omega

theorem reflects_fresh (c : SuspensionConfig) : Reflects c [] (.fresh c) := by
  have hnone : ¬ Exceeds c (failuresIn []) := by
    intro h
    exact Nat.not_lt.2 h.2 h.1
  constructor
  · rfl
  · rfl
  · rfl
  · rfl
  · constructor
    · intro h
      cases h
    · intro h
      exact absurd h hnone

theorem Reflects.remaining (h : Reflects c past p) (now : Instant) :
    p.remaining now = left c past now := by
  rw [left, ← h.deadline, SuspensionPolicy.remaining]
  cases p.until? <;> rfl

/-- A record of a call that asks for nothing to be counted changes nothing. -/
theorem Reflects.idle (h : Reflects c past p) {query : Query} {answer : Answer}
    (hsucceed : query ≠ .succeed) (hfail : query ≠ .fail)
    (hanswer : Record.suspends ⟨query, now, answer⟩ = false) :
    Reflects c (⟨query, now, answer⟩ :: past) p := by
  have hfailures : failuresIn (⟨query, now, answer⟩ :: past) = failuresIn past := by
    rw [failuresIn, sinceSuccess_cons hsucceed]
    exact List.countP_cons_of_neg (by simpa using hfail)
  have hsuspensions : suspensionsIn (⟨query, now, answer⟩ :: past) = suspensionsIn past := by
    rw [suspensionsIn_cons hsucceed, hanswer]
    rfl
  constructor
  · exact h.config
  · rw [hfailures]
    exact h.failures
  · rw [hsuspensions]
    exact h.suspensions
  · rw [windowEnd?, hsuspensions]
    exact h.deadline
  · rw [hfailures]
    exact h.suspended

theorem Reflects.succeed (h : Reflects c past p) (answer : Answer) :
    Reflects c (⟨.succeed, now, answer⟩ :: past) p.succeed.2 := by
  have hfresh := reflects_fresh c
  have hnone : sinceSuccess (⟨.succeed, now, answer⟩ :: past) = sinceSuccess [] :=
    sinceSuccess_succeed answer
  have hp : p.succeed.2 = .fresh c := by rw [SuspensionPolicy.succeed, h.config]
  rw [hp]
  constructor
  · rfl
  · rw [failuresIn, hnone]
    exact hfresh.failures
  · rw [suspensionsIn, hnone]
    exact hfresh.suspensions
  · rw [windowEnd?, suspensionsIn, hnone]
    exact hfresh.deadline
  · rw [failuresIn, hnone]
    exact hfresh.suspended

/-- A failure only counts if there are not too many of them yet, or if there is a window. -/
theorem Reflects.only_counts (h : Reflects c past p) (now : Instant) :
    (p.config.maxFailures = 0 ∨
      min (failuresIn past + 1) counterMax < p.config.maxFailures.toNat ∨ 0 < p.remaining now) ↔
      ¬ (Exceeds c (failuresIn past + 1) ∧ left c past now = 0) := by
  obtain rfl := h.config
  rw [h.remaining]
  -- the limit is a counter itself, so a count that has reached the greatest value is not below it
  have hlimit : p.config.maxFailures.toNat ≤ counterMax :=
    Nat.le_sub_one_of_lt p.config.maxFailures.toNat_lt
  have hzero : p.config.maxFailures = 0 ↔ p.config.maxFailures.toNat = 0 := by
    rw [← UInt32.toNat_inj]
    rfl
  rw [hzero, Exceeds]
  omega

/-- What a failure makes of a policy, in terms of its history. -/
theorem Reflects.fail_eq (h : Reflects c past p) (now : Instant) :
    p.fail now =
      if Exceeds c (failuresIn past + 1) ∧ left c past now = 0 then
        (.suspended (min (failuresIn past + 1) counterMax)
            (c.duration (min ((suspensionsIn past).length + 1) counterMax)),
          ⟨c, min (failuresIn past + 1) counterMax,
            min ((suspensionsIn past).length + 1) counterMax,
            some (now + (c.duration (min ((suspensionsIn past).length + 1) counterMax)).nanos)⟩)
      else
        (.counted (min (failuresIn past + 1) counterMax),
          { p with failures := min (failuresIn past + 1) counterMax }) := by
  have honly := h.only_counts now
  obtain rfl := h.config
  have hcount : bump p.failures = min (failuresIn past + 1) counterMax := by
    rw [h.failures, bump_min]
  have hsuspend : bump p.suspensions = min ((suspensionsIn past).length + 1) counterMax := by
    rw [h.suspensions, bump_min]
  have hremaining : ∀ n, SuspensionPolicy.remaining { p with failures := n } now =
      p.remaining now := fun n => rfl
  simp only [SuspensionPolicy.fail, hcount, hsuspend, hremaining, honly, ite_not]

theorem windowEnd?_suspended {failures : Nat} {backoff : Duration} :
    windowEnd? c (⟨.fail, now, .failed (.suspended failures backoff)⟩ :: past) =
      some (now + (c.duration (min ((suspensionsIn past).length + 1) counterMax)).nanos) := by
  rw [windowEnd?, suspensionsIn_cons (by decide)]
  rfl

/-- A failure is answered as expected, and reflected in the policy. -/
theorem Reflects.fail (h : Reflects c past p) (now : Instant) :
    Answer.failed (p.fail now).1 = expected c past .fail now ∧
      Reflects c (⟨.fail, now, .failed (p.fail now).1⟩ :: past) (p.fail now).2 := by
  rw [h.fail_eq now]
  simp only [expected]
  by_cases hs : Exceeds c (failuresIn past + 1) ∧ left c past now = 0
  · -- the failure suspends: a window opens, and it is the latest one
    rw [if_pos hs, if_pos hs]
    refine ⟨rfl, ?_⟩
    constructor
    · rfl
    · rw [failuresIn_fail]
    · rw [suspensionsIn_cons (by decide)]
      rfl
    · exact windowEnd?_suspended.symm
    · rw [failuresIn_fail]
      exact iff_of_true rfl hs.1
  · -- the failure only counts: the window stays as it is
    rw [if_neg hs, if_neg hs]
    have hsame : suspensionsIn (⟨.fail, now, .failed (.counted (min (failuresIn past + 1)
        counterMax))⟩ :: past) = suspensionsIn past := by
      rw [suspensionsIn_cons (by decide)]
      rfl
    refine ⟨rfl, ?_⟩
    constructor
    · exact h.config
    · rw [failuresIn_fail]
    · rw [hsame]
      exact h.suspensions
    · rw [windowEnd?, hsame]
      exact h.deadline
    · rw [failuresIn_fail]
      refine h.suspended.trans ⟨fun hn => ⟨hn.1, Nat.le_succ_of_le hn.2⟩, fun hn => ?_⟩
      -- there are too many failures, so it is a window that has kept this one from suspending
      have hleft : left c past now ≠ 0 := fun hleft => hs ⟨hn, hleft⟩
      refine h.suspended.1 ?_
      rw [h.deadline]
      cases hwindow : windowEnd? c past with
      | some deadline => rfl
      | none =>
        rw [left, hwindow] at hleft
        exact absurd rfl hleft

/-! ## Runs -/

theorem Reflects.ask (h : Reflects c past p) (query : Query) (now : Instant) :
    (p.ask query now).1 = expected c past query now ∧
      Reflects c (⟨query, now, (p.ask query now).1⟩ :: past) (p.ask query now).2 := by
  cases query with
  | attempt =>
    refine ⟨?_, h.idle (by decide) (by decide) rfl⟩
    simp only [SuspensionPolicy.ask, expected, SuspensionPolicy.attempt, h.remaining]
  | succeed =>
    refine ⟨?_, h.succeed _⟩
    simp only [SuspensionPolicy.ask, expected, SuspensionPolicy.succeed]
    exact congrArg Answer.succeeded (Bool.eq_iff_iff.2 (by simpa using h.suspended))
  | fail => exact h.fail now
  | health =>
    refine ⟨?_, h.idle (by decide) (by decide) rfl⟩
    simp only [SuspensionPolicy.ask, expected, SuspensionPolicy.health, h.remaining, h.failures,
      h.suspensions, h.suspended]

end

/-- Whatever a policy is asked, and whenever: every answer follows from the calls before it, and the
policy has kept of them what is needed. -/
theorem explained_history (config : SuspensionConfig) (calls : List (Query × Instant)) :
    Explained config (history config calls).2 ∧
      Reflects config (history config calls).2 (history config calls).1 := by
  have hrun : ∀ (calls : List (Query × Instant)) (p : SuspensionPolicy) (past : List Record),
      Explained config past → Reflects config past p →
        Explained config (calls.foldl proceed (p, past)).2 ∧
          Reflects config (calls.foldl proceed (p, past)).2 (calls.foldl proceed (p, past)).1 := by
    -- over the calls to come, for every policy that reflects an explained past
    intro calls
    induction calls with
    | nil => exact fun p past he hr => ⟨he, hr⟩
    | cons call calls ih =>
      intro p past he hr
      obtain ⟨hanswer, hreflects⟩ := hr.ask call.1 call.2
      exact ih _ _ ⟨hanswer, he⟩ hreflects
  exact hrun calls _ [] trivial (reflects_fresh config)

end FileGateway.SuspensionPolicy

import FileGateway.Proofs.Gateway.Calls
import FileGateway.Proofs.Suspension.History

/-!
# The traffic of a handle

Any number of calls resolve paths on one handle. A call comes and is rejected at once, or its store
is asked at once and answers whenever it likes; then the call records what it was answered. Between
these steps other calls come and are answered, the clock advances, and the options of the handle are
changed and put back.

A `Traffic` is a gateway with such calls, what each of them has found when it came, and a log of
what the store was asked and what it has answered. `Traffic.Accounted` says how the three go
together:

* every call has one of three fates. It came while a suspension lasted, was told how long it still
  lasts and has asked the store for nothing; or it came at another time, has asked the store once
  and waits; or it was answered, once, and has ended as the answer says;
* the policy of the handle is what the answers of the log have made of it, and nothing else;
* the counts are balanced: the store was asked once for each call that was not rejected, and a
  success or a failure was recorded for each of them that has ended.

Every event preserves this (`Traffic.Accounted.step`), and so it holds of all traffic
(`Traffic.accounted_run`). Once a failure was recorded for which the process aborts
(`SuspensionPolicy.overflows`), there are no events to come.
-/

namespace FileGateway

open SuspensionPolicy (Query history)

/-- A call that resolves a path: when it came, and the handle as it has found it. -/
structure Caller where
  path : Path
  time : Instant
  found : Option Handle

/-- What passes between a gateway and a store: the store is asked on behalf of a task, or it has
answered and the task goes on. -/
inductive Traffic.Message where
  | asked (id : TaskId) (time : Instant) (request : Request)
  | answered (id : TaskId) (time : Instant) (reply : Reply)

/-- A gateway whose tasks resolve paths on one handle. Each call has the number of its task, and
the log is what has passed so far, the latest first. -/
structure Traffic where
  gateway : Gateway
  handle : HandleId
  callers : List Caller
  log : List Traffic.Message

namespace Traffic

/-- A new handle, whose policy has recorded nothing yet, in a gateway that may have others. -/
def start (s : Shared) (h : Handle) : Traffic :=
  let (id, registry) := s.registry.build { h with policy := .fresh h.policy.config }
  ⟨⟨{ s with registry := registry }, []⟩, id, [], []⟩

/-- What can happen in traffic. The store answers what a task has asked for, whatever the answer
is, and the options of the handle are changed or put back. -/
inductive Event where
  | resolve (path : Path)
  | answer (id : TaskId) (answers : (request : Request) → request.Answer)
  | advance (now : Instant)
  | adjust (update : Options → Options)
  | reset

/-- What a task asks for now, if it does. -/
def asks (g : Gateway) (id : TaskId) : List Message :=
  match g.pending? id with
  | some p => [.asked id g.shared.now p.request]
  | none => []

/-- Changes the handle. -/
def modify (c : Traffic) (change : Handle → Handle) : Traffic :=
  { c with gateway := { c.gateway with shared := c.gateway.shared.modifyHandle c.handle change } }

/-- What an event makes of the traffic. An event that cannot happen changes nothing. -/
def step (c : Traffic) : Event → Traffic
  | .resolve path =>
    let g := c.gateway.call (.resolve c.handle path)
    { c with
      gateway := g
      callers := c.callers ++
        [⟨path, c.gateway.shared.now, c.gateway.shared.handle? c.handle⟩]
      log := asks g c.gateway.tasks.length ++ c.log }
  | .answer id answers =>
    match c.gateway.pending? id with
    | none => c
    | some p =>
      let g := p.resume (answers p.request)
      { c with
        gateway := g
        log := asks g id ++
          .answered id c.gateway.shared.now ⟨p.request, answers p.request⟩ :: c.log }
  | .advance now => { c with gateway := c.gateway.advanceTo now }
  | .adjust update => c.modify fun h => h.adjust update
  | .reset => c.modify fun h => h.reset.2

/-- What a sequence of events makes of the traffic. -/
def run (c : Traffic) (events : List Event) : Traffic :=
  events.foldl step c

/-! ## What the log tells -/

/-- When a task has asked the store, and what for, if the message tells so. -/
def Message.question? (id : TaskId) : Message → Option (Instant × Request)
  | asked i time request => if i = id then some (time, request) else none
  | answered _ _ _ => none

/-- When a task was answered by the store, and what, if the message tells so. -/
def Message.reply? (id : TaskId) : Message → Option (Instant × Reply)
  | asked _ _ _ => none
  | answered i time reply => if i = id then some (time, reply) else none

/-- What is recorded of the answer to a resolve. -/
def verdict : Result FileRef → Query
  | .ok _ => .succeed
  | .error _ => .fail

/-- What is recorded of a message: the success or the failure of a resolve. -/
def Message.record? : Message → Option (Query × Instant)
  | answered _ time ⟨.store _ (.resolve _ _), answer⟩ => some (verdict answer, time)
  | _ => none

/-- Whether a message asks the store. -/
def Message.isQuestion : Message → Bool
  | asked _ _ _ => true
  | answered _ _ _ => false

/-- What a task has asked the store. -/
def questions (id : TaskId) (log : List Message) : List (Instant × Request) :=
  log.filterMap (Message.question? id)

/-- What a task was answered. -/
def replies (id : TaskId) (log : List Message) : List (Instant × Reply) :=
  log.filterMap (Message.reply? id)

/-- The successes and failures, in the order in which they were recorded. -/
def records (log : List Message) : List (Query × Instant) :=
  (log.filterMap Message.record?).reverse

/-- How often the store was asked. -/
def started (log : List Message) : Nat :=
  log.countP Message.isQuestion

/-- The successes that were recorded. -/
def successes (log : List Message) : Nat :=
  (records log).countP fun r => r.1 = .succeed

/-- The failures that were recorded. -/
def failures (log : List Message) : Nat :=
  (records log).countP fun r => r.1 = .fail

/-! ## The fates of calls -/

/-- What the store of a handle is asked to resolve a path. -/
def question (h : Handle) (path : Path) : Request :=
  .store h.backend (.resolve (h.baseDir.join path) h.options)

/-- What a call ends with when it is answered. -/
def ending (h : Handle) (path : Path) : Result FileRef → Except Error FileRef
  | .ok file => .ok file
  | .error f => .error (.connectionFailed h.key.name (f.within
      ("failed resolving " ++ Text.quote (h.baseDir.join path).text ++ " on " ++
        h.backend.identity)))

/-- A suspension of the handle lasts until a later moment. -/
def Suspended (h : Handle) (now deadline : Instant) : Prop :=
  h.policy.until? = some deadline ∧ now < deadline

/-- What can have become of a call: its task, what it has asked the store, and what it was
answered. It came during a suspension and was told the time that was left, or it came at another
time, and the store has answered or not. -/
inductive Fate (id : HandleId) :
    Caller → Task → List (Instant × Request) → List (Instant × Reply) → Prop where
  | rejected (path : Path) (time deadline : Instant) (h : Handle) (left : Duration)
      (suspended : Suspended h time deadline) (exact : left.nanos = deadline - time) :
    Fate id ⟨path, time, some h⟩
      (.finished (.resolved (.error (.connectionSuspended h.key.name left)))) [] []
  | waits (path : Path) (time : Instant) (h : Handle)
      (admitted : ∀ deadline, ¬ Suspended h time deadline) :
    Fate id ⟨path, time, some h⟩
      (.resolving ⟨id, h.key.name, h.backend, h.baseDir.join path, h.options⟩)
      [(time, question h path)] []
  | ended (path : Path) (time : Instant) (h : Handle)
      (admitted : ∀ deadline, ¬ Suspended h time deadline) (later : Instant)
      (answer : Result FileRef) :
    Fate id ⟨path, time, some h⟩ (.finished (.resolved (ending h path answer)))
      [(time, question h path)] [(later, ⟨question h path, answer⟩)]

/-- Whether a task was rejected by a suspension. -/
def isRejected : Task → Bool
  | .finished (.resolved (.error (.connectionSuspended _ _))) => true
  | _ => false

/-- Whether a task waits for the store. -/
def isWaiting : Task → Bool
  | .resolving _ => true
  | _ => false

/-- How the gateway, its calls and the log go together, if the traffic has started with `h₀`.

* `handle`: the policy of the handle is made by the records of the log; the rest of it is as it
  was, apart from the options;
* `bounded`: every suspension is short enough to tell what is left of it;
* `fates`, `nobody`: every call has one of the three fates, and nobody but the calls has asked the
  store;
* `once`, `balance`: the store was asked once for each call that was not rejected, and a success or
  a failure was recorded for each of them that does not wait any more;
* `spared`: a call that comes during a suspension leaves everything as it is. -/
structure Accounted (h₀ : Handle) (c : Traffic) : Prop where
  handle : ∃ h, c.gateway.shared.handle? c.handle = some h ∧
    h.policy = (history h₀.policy.config (records c.log)).1 ∧
    h.key = h₀.key ∧ h.backend = h₀.backend ∧ h.baseDir = h₀.baseDir ∧ h.defaults = h₀.defaults
  bounded : ∀ h deadline, c.gateway.shared.handle? c.handle = some h →
    h.policy.until? = some deadline → deadline < c.gateway.shared.now + durationLimit
  length : c.callers.length = c.gateway.tasks.length
  fates : ∀ (i : TaskId) caller t, c.callers[i]? = some caller → c.gateway.task? i = some t →
    Fate c.handle caller t (questions i c.log) (replies i c.log)
  nobody : ∀ i, c.gateway.tasks.length ≤ i → questions i c.log = [] ∧ replies i c.log = []
  once : started c.log = c.gateway.tasks.countP fun t => !isRejected t
  balance : successes c.log + failures c.log + c.gateway.tasks.countP isWaiting = started c.log
  spared : ∀ path h deadline, c.gateway.shared.handle? c.handle = some h →
    Suspended h c.gateway.shared.now deadline →
      (c.step (.resolve path)).gateway.shared = c.gateway.shared ∧
      (c.step (.resolve path)).log = c.log

/-! ## Calls that come -/

section

variable {s : Shared} {id : HandleId} {h : Handle} {path : Path} {deadline : Instant}

theorem start_suspended (hh : s.handle? id = some h) (hs : Suspended h s.now deadline) :
    Resolve.start id path s =
      (.done (.error (.connectionSuspended h.key.name (.clamp (deadline - s.now)))), s) := by
  obtain ⟨huntil, hlate⟩ := hs
  have hremaining : h.policy.remaining s.now = deadline - s.now := by
    rw [SuspensionPolicy.remaining, huntil]
  have hattempt : h.policy.attempt s.now = .error (deadline - s.now) := by
    rw [SuspensionPolicy.attempt, hremaining]
    exact if_pos (Nat.sub_pos_of_lt hlate)
  simp only [Resolve.start, hh, hattempt]

theorem start_admitted (hh : s.handle? id = some h)
    (hs : ∀ deadline, ¬ Suspended h s.now deadline) :
    Resolve.start id path s =
      (.paused ⟨id, h.key.name, h.backend, h.baseDir.join path, h.options⟩, s) := by
  have hremaining : h.policy.remaining s.now = 0 := by
    rw [SuspensionPolicy.remaining]
    cases huntil : h.policy.until? with
    | none => rfl
    | some deadline =>
      have hover := hs deadline
      simp only [Suspended, huntil, true_and] at hover
      exact Nat.sub_eq_zero_of_le (Nat.le_of_not_lt hover)
  have hattempt : h.policy.attempt s.now = .ok () := by
    rw [SuspensionPolicy.attempt, hremaining]
    rfl
  simp only [Resolve.start, hh, hattempt, Handle.place]

end

/-- How a call goes on when it is answered. -/
theorem next_resume (id : HandleId) (h : Handle) (path : Path) (answer : Result FileRef)
    (s : Shared) :
    (Resolve.next ⟨id, h.key.name, h.backend, h.baseDir.join path, h.options⟩).resume answer s =
      (.done (ending h path answer), s.modifyHandle id fun h =>
        { h with policy := (h.policy.ask (verdict answer) s.now).2 }) := by
  cases answer <;> rfl

theorem asks_finished {g : Gateway} {id : TaskId} {result : TaskResult}
    (h : g.task? id = some (.finished result)) : asks g id = [] := by
  simp [asks, Gateway.pending?, h, Task.next?]

theorem asks_resolving {g : Gateway} {id : TaskId} {r : Resolve}
    (h : g.task? id = some (.resolving r)) :
    asks g id = [.asked id g.shared.now (.store r.backend (.resolve r.path r.options))] := by
  rw [asks, Gateway.pending?_of_next h rfl rfl]
  rfl

theorem task?_last (s : Shared) (tasks : List Task) (t : Task) :
    Gateway.task? ⟨s, tasks ++ [t]⟩ tasks.length = some t := by
  simp [Gateway.task?]

/-- A call comes during a suspension. -/
theorem call_suspended {c : Traffic} {path : Path} {h : Handle} {deadline : Instant}
    (hh : c.gateway.shared.handle? c.handle = some h)
    (hs : Suspended h c.gateway.shared.now deadline) :
    c.step (.resolve path) =
      { c with
        gateway := ⟨c.gateway.shared, c.gateway.tasks ++ [.finished (.resolved (.error
          (.connectionSuspended h.key.name (.clamp (deadline - c.gateway.shared.now)))))]⟩
        callers := c.callers ++ [⟨path, c.gateway.shared.now, some h⟩] } := by
  have hcall : c.gateway.call (.resolve c.handle path) =
      ⟨c.gateway.shared, c.gateway.tasks ++ [.finished (.resolved (.error
        (.connectionSuspended h.key.name (.clamp (deadline - c.gateway.shared.now)))))]⟩ := by
    simp only [Gateway.call, Gateway.resolve, start_suspended hh hs]
    rfl
  simp only [step, hcall, hh]
  rw [asks_finished (task?_last _ _ _)]
  rfl

/-- A call comes at another time. -/
theorem call_admitted {c : Traffic} {path : Path} {h : Handle}
    (hh : c.gateway.shared.handle? c.handle = some h)
    (hs : ∀ deadline, ¬ Suspended h c.gateway.shared.now deadline) :
    c.step (.resolve path) =
      { c with
        gateway := ⟨c.gateway.shared, c.gateway.tasks ++
          [.resolving ⟨c.handle, h.key.name, h.backend, h.baseDir.join path, h.options⟩]⟩
        callers := c.callers ++ [⟨path, c.gateway.shared.now, some h⟩]
        log := .asked c.gateway.tasks.length c.gateway.shared.now (question h path) :: c.log } := by
  have hcall : c.gateway.call (.resolve c.handle path) =
      ⟨c.gateway.shared, c.gateway.tasks ++
        [.resolving ⟨c.handle, h.key.name, h.backend, h.baseDir.join path, h.options⟩]⟩ := by
    simp only [Gateway.call, Gateway.resolve, start_admitted hh hs]
    rfl
  simp only [step, hcall, hh]
  rw [asks_resolving (task?_last _ _ _)]
  rfl

/-- A call that waits is answered. -/
theorem step_answer {c : Traffic} {i : TaskId} {h : Handle} {path : Path}
    (ht : c.gateway.task? i = some
      (.resolving ⟨c.handle, h.key.name, h.backend, h.baseDir.join path, h.options⟩))
    (answers : (request : Request) → request.Answer) :
    c.step (.answer i answers) =
      { c with
        gateway := ⟨c.gateway.shared.modifyHandle c.handle fun h' =>
            { h' with policy :=
              (h'.policy.ask (verdict (answers (question h path))) c.gateway.shared.now).2 },
          c.gateway.tasks.set i
            (.finished (.resolved (ending h path (answers (question h path)))))⟩
        log := .answered i c.gateway.shared.now ⟨question h path, answers (question h path)⟩ ::
          c.log } := by
  have hstep : ∀ gone, (Resolve.next
      ⟨c.handle, h.key.name, h.backend, h.baseDir.join path, h.options⟩).resume
        (answers (question h path)) c.gateway.shared = gone →
      c.step (.answer i answers) =
        { c with
          gateway := ⟨gone.2, c.gateway.tasks.set i (Task.ofStep .resolving .resolved gone.1)⟩
          log := asks ⟨gone.2, c.gateway.tasks.set i
              (Task.ofStep .resolving .resolved gone.1)⟩ i ++
            .answered i c.gateway.shared.now ⟨question h path, answers (question h path)⟩ ::
              c.log } := by
    rintro gone rfl
    simp only [step, Gateway.pending?_of_next ht rfl rfl]
    rfl
  have htask : ∀ (s : Shared) (result : TaskResult),
      Gateway.task? ⟨s, c.gateway.tasks.set i (.finished result)⟩ i = some (.finished result) := by
    intro s result
    rw [Gateway.task?_set ht, Function.update_self]
  rw [hstep _ (next_resume _ _ _ _ _)]
  simp only [Task.ofStep, asks_finished (htask _ _)]
  rfl

/-- A call that comes during a suspension leaves everything as it is. -/
theorem step_suspended {c : Traffic} (path : Path) (h : Handle) (deadline : Instant)
    (hh : c.gateway.shared.handle? c.handle = some h)
    (hs : Suspended h c.gateway.shared.now deadline) :
    (c.step (.resolve path)).gateway.shared = c.gateway.shared ∧
      (c.step (.resolve path)).log = c.log := by
  rw [call_suspended hh hs]
  exact ⟨rfl, rfl⟩

/-! ## Records -/

theorem history_concat (config : SuspensionConfig) (calls : List (Query × Instant)) (query : Query)
    (now : Instant) :
    (history config (calls ++ [(query, now)])).1 = ((history config calls).1.ask query now).2 := by
  rw [history, List.foldl_append]
  rfl

/-- Whatever a policy is asked, its suspension ends at a time that can be told. -/
theorem bounded_ask {p : SuspensionPolicy} {now : Instant}
    (hp : ∀ deadline, p.until? = some deadline → deadline < now + durationLimit) (query : Query)
    {deadline : Instant} (h : (p.ask query now).2.until? = some deadline) :
    deadline < now + durationLimit := by
  cases query with
  | attempt => exact hp deadline h
  | health => exact hp deadline h
  | succeed => cases h
  | fail =>
    simp only [SuspensionPolicy.ask, SuspensionPolicy.fail] at h
    split at h
    · exact hp deadline h
    · cases h
      exact Nat.add_lt_add_left (Duration.bounded _) now

theorem nanos_clamp {n : Nat} (h : n < durationLimit) : (Duration.clamp n).nanos = n :=
  Nat.min_eq_left (by omega)

theorem handle?_modifyHandle (s : Shared) (id : HandleId) (change : Handle → Handle) :
    (s.modifyHandle id change).handle? id = (s.handle? id).map change := by
  simp [Shared.handle?, Shared.modifyHandle, Registry.handle?, Registry.modify]

theorem records_cons (m : Message) (log : List Message) :
    records (m :: log) = records log ++ m.record?.toList := by
  rw [records, records, List.filterMap_cons]
  cases m.record? with
  | none => simp
  | some record => simp

/-! ## New messages -/

section New

variable {n : TaskId} {new : List Message}

/-- What one task asks does not show where it is not told. -/
theorem filterMap_append_of_asked {α : Type} {f : Message → Option α}
    (hnew : ∀ m ∈ new, ∃ time request, m = .asked n time request)
    (hf : ∀ time request, f (.asked n time request) = none) (log : List Message) :
    (new ++ log).filterMap f = log.filterMap f := by
  have hnone : new.filterMap f = [] := by
    refine List.filterMap_eq_nil_iff.2 fun m hm => ?_
    obtain ⟨time, request, rfl⟩ := hnew m hm
    exact hf time request
  rw [List.filterMap_append, hnone, List.nil_append]

/-- So it is nothing that another task has asked, -/
theorem questions_append_of_ne (hnew : ∀ m ∈ new, ∃ time request, m = .asked n time request)
    {i : TaskId} (hi : i ≠ n) (log : List Message) :
    questions i (new ++ log) = questions i log :=
  filterMap_append_of_asked hnew (fun _ _ => if_neg fun heq => hi heq.symm) log

/-- and no reply -/
theorem replies_append (hnew : ∀ m ∈ new, ∃ time request, m = .asked n time request) (i : TaskId)
    (log : List Message) : replies i (new ++ log) = replies i log :=
  filterMap_append_of_asked hnew (fun _ _ => rfl) log

/-- and no record. -/
theorem records_append (hnew : ∀ m ∈ new, ∃ time request, m = .asked n time request)
    (log : List Message) : records (new ++ log) = records log :=
  congrArg List.reverse (filterMap_append_of_asked hnew (fun _ _ => rfl) log)

/-- A reply is to one task only. -/
theorem replies_cons_of_ne {i j : TaskId} (h : i ≠ j) (time : Instant) (reply : Reply)
    (log : List Message) : replies j (.answered i time reply :: log) = replies j log :=
  List.filterMap_cons_none (if_neg h)

end New

/-! ## The invariant -/

variable {h₀ : Handle} {c : Traffic}

theorem accounted_start (s : Shared) (h : Handle) : Accounted h (start s h) := by
  have hhandle : (start s h).gateway.shared.handle? (start s h).handle =
      some { h with policy := .fresh h.policy.config } := by
    simp [start, Registry.build, Shared.handle?, Registry.handle?]
  constructor
  · exact ⟨_, hhandle, rfl, rfl, rfl, rfl, rfl⟩
  · intro h' deadline hh' huntil
    rw [hhandle] at hh'
    cases hh'
    cases huntil
  · rfl
  · intro i caller t hcaller
    simp [start] at hcaller
  · intro i _
    exact ⟨rfl, rfl⟩
  · rfl
  · rfl
  · exact step_suspended

/-- A call comes: its task and what it asks for are new, and the rest is as it was. -/
theorem Accounted.comes (h : Accounted h₀ c) {caller : Caller} {t : Task} {new : List Message}
    (hnew : ∀ m ∈ new, ∃ time request, m = .asked c.gateway.tasks.length time request)
    (hfate : Fate c.handle caller t (questions c.gateway.tasks.length new) [])
    (honce : started new = [t].countP fun t => !isRejected t)
    (hwaiting : started new = [t].countP isWaiting) :
    Accounted h₀
      { c with
        gateway := ⟨c.gateway.shared, c.gateway.tasks ++ [t]⟩
        callers := c.callers ++ [caller]
        log := new ++ c.log } := by
  have hrecords : records (new ++ c.log) = records c.log := records_append hnew _
  have hreplies : ∀ i, replies i (new ++ c.log) = replies i c.log :=
    fun i => replies_append hnew i _
  constructor
  · rw [hrecords]
    exact h.handle
  · exact h.bounded
  · simp [h.length]
  · intro i caller' t' hcaller ht
    by_cases hi : i = c.gateway.tasks.length
    · -- the one that comes has not asked for anything before
      obtain ⟨hq, hr⟩ := h.nobody c.gateway.tasks.length (Nat.le_refl _)
      subst hi
      have hcaller' : caller = caller' := by simpa [← h.length] using hcaller
      have ht' : t = t' := by simpa [Gateway.task?] using ht
      subst hcaller' ht'
      have hquestions : questions c.gateway.tasks.length (new ++ c.log) =
          questions c.gateway.tasks.length new := by
        rw [questions, List.filterMap_append, ← questions, ← questions, hq, List.append_nil]
      rw [hquestions, hreplies, hr]
      exact hfate
    · rw [questions_append_of_ne hnew hi, hreplies]
      refine h.fates i caller' t' ?_ ?_
      · have hlt : i < c.callers.length := by
          have hlt := (List.getElem?_eq_some_iff.1 hcaller).1
          rw [List.length_append, h.length] at hlt
          rw [h.length]
          exact Nat.lt_of_le_of_ne (Nat.le_of_lt_succ hlt) hi
        exact (List.getElem?_append_left hlt).symm.trans hcaller
      · have htasks : (⟨c.gateway.shared, c.gateway.tasks ++ [t]⟩ : Gateway).tasks =
            c.gateway.tasks ++ [t] := rfl
        rw [Gateway.task?_concat htasks, Function.update_of_ne hi] at ht
        exact ht
  · intro i hi
    simp only [List.length_append, List.length_singleton] at hi
    have hne : i ≠ c.gateway.tasks.length := by omega
    rw [questions_append_of_ne hnew hne, hreplies]
    exact h.nobody i (by omega)
  · have honce' := h.once
    simp only [started, List.countP_append] at honce honce' ⊢
    omega
  · have hbalance := h.balance
    simp only [successes, failures, started, hrecords, List.countP_append] at hwaiting hbalance ⊢
    omega
  · exact step_suspended

/-- One task in place of another. -/
theorem countP_set (p : Task → Bool) {tasks : List Task} {i : TaskId} {t : Task}
    (h : tasks[i]? = some t) (t' : Task) :
    (tasks.set i t').countP p + [t].countP p = tasks.countP p + [t'].countP p := by
  obtain ⟨hlt, rfl⟩ := List.getElem?_eq_some_iff.1 h
  have hle := List.boole_getElem_le_countP (p := p) hlt
  rw [List.countP_set hlt]
  simp only [List.countP_singleton]
  omega

theorem isRejected_resolving (r : Resolve) : isRejected (.resolving r) = false := rfl

theorem isRejected_ending (h : Handle) (path : Path) (answer : Result FileRef) :
    isRejected (.finished (.resolved (ending h path answer))) = false := by
  cases answer <;> rfl

/-- A call that waits is answered: one record is made of the answer. -/
theorem Accounted.hears (h : Accounted h₀ c) {i : TaskId} {path : Path} {time : Instant}
    {found : Handle} (hcaller : c.callers[i]? = some ⟨path, time, some found⟩)
    (ht : c.gateway.task? i = some (.resolving
      ⟨c.handle, found.key.name, found.backend, found.baseDir.join path, found.options⟩))
    (answer : Result FileRef) :
    Accounted h₀
      { c with
        gateway := ⟨c.gateway.shared.modifyHandle c.handle fun h =>
            { h with policy := (h.policy.ask (verdict answer) c.gateway.shared.now).2 },
          c.gateway.tasks.set i (.finished (.resolved (ending found path answer)))⟩
        log := .answered i c.gateway.shared.now ⟨question found path, answer⟩ :: c.log } := by
  obtain ⟨h₁, hh₁, hpolicy, hrest⟩ := h.handle
  have hafter : (c.gateway.shared.modifyHandle c.handle fun h =>
      { h with policy := (h.policy.ask (verdict answer) c.gateway.shared.now).2 }).handle? c.handle =
        some { h₁ with policy := (h₁.policy.ask (verdict answer) c.gateway.shared.now).2 } := by
    rw [handle?_modifyHandle, hh₁, Option.map_some]
  have hrecords :
      records (.answered i c.gateway.shared.now ⟨question found path, answer⟩ :: c.log) =
        records c.log ++ [(verdict answer, c.gateway.shared.now)] := records_cons _ _
  have hi : i < c.gateway.tasks.length := (List.getElem?_eq_some_iff.1 ht).1
  constructor
  · refine ⟨_, hafter, ?_, hrest⟩
    rw [hrecords, hpolicy]
    exact (history_concat _ _ _ _).symm
  · intro h₂ deadline hh₂ huntil
    rw [hafter] at hh₂
    cases hh₂
    exact bounded_ask (h.bounded h₁ · hh₁) (verdict answer) huntil
  · simp [h.length]
  · intro j caller t hcaller' ht'
    rw [Gateway.task?_set ht] at ht'
    by_cases hj : j = i
    · subst hj
      rw [Function.update_self] at ht'
      cases ht'
      rw [hcaller] at hcaller'
      cases hcaller'
      -- it has asked once, and hears for the first time
      have hfate := h.fates j _ _ hcaller ht
      generalize hq : questions j c.log = asked at hfate
      generalize hr : replies j c.log = heard at hfate
      cases hfate with
      | waits _ _ _ admitted =>
        have hquestions : questions j (.answered j c.gateway.shared.now
            ⟨question found path, answer⟩ :: c.log) = questions j c.log := rfl
        have hreplies : replies j (.answered j c.gateway.shared.now
            ⟨question found path, answer⟩ :: c.log) =
              (c.gateway.shared.now, ⟨question found path, answer⟩) :: replies j c.log := by
          simp [replies, Message.reply?]
        rw [hquestions, hreplies, hq, hr]
        exact .ended path time found admitted _ answer
    · rw [Function.update_of_ne hj] at ht'
      rw [replies_cons_of_ne fun heq => hj heq.symm]
      exact h.fates j caller t hcaller' ht'
  · intro j hj
    rw [List.length_set] at hj
    have hne : i ≠ j := Nat.ne_of_lt (Nat.lt_of_lt_of_le hi hj)
    rw [replies_cons_of_ne hne]
    exact h.nobody j hj
  · -- neither the call that waits nor the one that has ended was rejected
    have hset := countP_set (fun t => !isRejected t) ht
      (.finished (.resolved (ending found path answer)))
    simp only [List.countP_cons, isRejected_ending, isRejected_resolving] at hset
    exact h.once.trans (Nat.add_right_cancel hset).symm
  · -- one call less waits, and one record more is made
    have hset := countP_set isWaiting ht (.finished (.resolved (ending found path answer)))
    have hbalance := h.balance
    simp only [successes, failures, hrecords, List.countP_append, started, List.countP_cons]
      at hset hbalance ⊢
    cases answer <;> simp [isWaiting, verdict, Message.isQuestion] at hset ⊢ <;> omega
  · exact step_suspended

/-- The handle is changed in what is no matter of suspensions, or the clock advances. -/
theorem Accounted.passes (h : Accounted h₀ c) {s : Shared} {change : Handle → Handle}
    (hhandle : s.handle? c.handle = (c.gateway.shared.handle? c.handle).map change)
    (hnow : c.gateway.shared.now ≤ s.now)
    (hchange : ∀ h, (change h).policy = h.policy ∧ (change h).key = h.key ∧
      (change h).backend = h.backend ∧ (change h).baseDir = h.baseDir ∧
      (change h).defaults = h.defaults) :
    Accounted h₀ { c with gateway := { c.gateway with shared := s } } := by
  obtain ⟨h₁, hh₁, hpolicy, hkey, hbackend, hbase, hdefaults⟩ := h.handle
  obtain ⟨hpolicy', hkey', hbackend', hbase', hdefaults'⟩ := hchange h₁
  have hafter : s.handle? c.handle = some (change h₁) := by
    rw [hhandle, hh₁, Option.map_some]
  constructor
  · exact ⟨_, hafter, hpolicy'.trans hpolicy, hkey'.trans hkey, hbackend'.trans hbackend,
      hbase'.trans hbase, hdefaults'.trans hdefaults⟩
  · intro h₂ deadline hh₂ huntil
    rw [hafter] at hh₂
    cases hh₂
    rw [hpolicy'] at huntil
    have hbefore := h.bounded h₁ deadline hh₁ huntil
    exact Nat.lt_of_lt_of_le hbefore (Nat.add_le_add_right hnow _)
  · exact h.length
  · exact h.fates
  · exact h.nobody
  · exact h.once
  · exact h.balance
  · exact step_suspended

theorem Accounted.resolve (h : Accounted h₀ c) (path : Path) :
    Accounted h₀ (c.step (.resolve path)) := by
  obtain ⟨h₁, hh₁, -⟩ := h.handle
  by_cases hs : ∃ deadline, Suspended h₁ c.gateway.shared.now deadline
  · obtain ⟨deadline, hs⟩ := hs
    rw [call_suspended hh₁ hs]
    -- the suspension is short enough for the time that is told to be exact
    have hexact : (Duration.clamp (deadline - c.gateway.shared.now)).nanos =
        deadline - c.gateway.shared.now :=
      nanos_clamp (Nat.sub_lt_left_of_lt_add (Nat.le_of_lt hs.2)
        (h.bounded h₁ deadline hh₁ hs.1))
    have hnew : ∀ m ∈ ([] : List Message), ∃ time request,
        m = .asked c.gateway.tasks.length time request := by
      intro m hm
      cases hm
    exact h.comes hnew (.rejected path _ deadline h₁ _ hs hexact) rfl rfl
  · have hs' : ∀ deadline, ¬ Suspended h₁ c.gateway.shared.now deadline := fun deadline hd =>
      hs ⟨deadline, hd⟩
    rw [call_admitted hh₁ hs']
    have hnew : ∀ m ∈ [Message.asked c.gateway.tasks.length c.gateway.shared.now
        (question h₁ path)], ∃ time request, m = .asked c.gateway.tasks.length time request :=
      fun m hm => ⟨_, _, List.mem_singleton.1 hm⟩
    have hasked : questions c.gateway.tasks.length [.asked c.gateway.tasks.length
        c.gateway.shared.now (question h₁ path)] =
          [(c.gateway.shared.now, question h₁ path)] := by
      simp [questions, Message.question?]
    refine h.comes hnew ?_ rfl rfl
    rw [hasked]
    exact .waits path _ h₁ hs'

theorem Accounted.answer (h : Accounted h₀ c) (i : TaskId)
    (answers : (request : Request) → request.Answer) :
    Accounted h₀ (c.step (.answer i answers)) := by
  cases hp : c.gateway.pending? i with
  | none =>
    simp only [step, hp]
    exact h
  | some p =>
    obtain ⟨t, q, ht, hq, -, -⟩ := Gateway.pending?_eq hp
    have hi : i < c.callers.length := by
      rw [h.length]
      exact (List.getElem?_eq_some_iff.1 ht).1
    have hcaller : c.callers[i]? = some c.callers[i] := List.getElem?_eq_getElem hi
    have hfate := h.fates i _ t hcaller ht
    generalize c.callers[i] = caller at hcaller hfate
    generalize questions i c.log = asked at hfate
    generalize replies i c.log = heard at hfate
    -- only a call that waits can be answered
    cases hfate with
    | rejected => cases hq
    | ended => cases hq
    | waits path time found admitted =>
      rw [step_answer ht]
      exact h.hears hcaller ht _

/-- Whatever happens, the account stays right. -/
theorem Accounted.step (h : Accounted h₀ c) (e : Event) : Accounted h₀ (c.step e) := by
  cases e with
  | resolve path => exact h.resolve path
  | answer i answers => exact h.answer i answers
  | advance now =>
    have hhandle : ({ c.gateway.shared with now := max c.gateway.shared.now now } : Shared).handle?
        c.handle = (c.gateway.shared.handle? c.handle).map id := by
      rw [Option.map_id, id]
      rfl
    exact h.passes hhandle (Nat.le_max_left _ _) fun _ => ⟨rfl, rfl, rfl, rfl, rfl⟩
  | adjust update =>
    exact h.passes (handle?_modifyHandle _ _ _) (Nat.le_refl _) fun _ => ⟨rfl, rfl, rfl, rfl, rfl⟩
  | reset =>
    refine h.passes (handle?_modifyHandle _ _ _) (Nat.le_refl _) fun h₁ => ?_
    simp only [Handle.reset]
    split <;> exact ⟨rfl, rfl, rfl, rfl, rfl⟩

/-- In all traffic on a handle, whatever the store answers and however the calls overlap: no call
asks the store during a suspension, every other call asks it once, and exactly one success or
failure is recorded for each of them that has ended. -/
theorem accounted_run (s : Shared) (h : Handle) (events : List Event) :
    Accounted h ((start s h).run events) := by
  suffices hrun : ∀ c, Accounted h c → Accounted h (c.run events) from hrun _ (accounted_start s h)
  induction events with
  | nil => exact fun c hc => hc
  | cons e rest ih => exact fun c hc => ih (c.step e) (hc.step e)

end Traffic

end FileGateway

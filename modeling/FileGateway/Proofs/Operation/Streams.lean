import FileGateway.Proofs.Operation.Transfer

/-!
# The streams of tasks

Every stream that a task writes to was opened by the task itself, for the acquisition of a lease or
for a copy, and leads to the file that it was opened for. So of a file that nothing but leases has
touched it can be told whose request may touch it next: that of a lease operation which owns the
file or has its turn there.

* `Task.stream_next` and `Task.stream_acts` are the step lemmas, one for a task that goes on and one
  for a request that is acted on;
* `Scene.Led` is the invariant, and `Scene.Led.touched` what it is for.
-/

namespace FileGateway

variable {ε : Type}

/-! ## Streams -/

/-- The stream that a lease operation has opened, and the site of its marker. The answer in the
inbox is what has come of the last request. -/
def LeaseOp.stream? : LeaseOp → Option Reply → Option (StreamId × Site)
  | acquire a (.opening bid), some ⟨.store _ (.openWrite _ _), .ok s⟩ => some (s, a.site bid)
  | acquire a (.writing bid s), _ => some (s, a.site bid)
  | acquire a (.finishing bid s), _ => some (s, a.site bid)
  | _, _ => none

/-- The stream that a task has opened, and the site of its file. -/
def Task.stream? : Task → Option Reply → Option (StreamId × Site)
  | acquiring a place, inbox => (LeaseOp.acquire a place).stream? inbox
  | operating _ (.writing target place), inbox => place.stream? target inbox
  | _, _ => none

/-- A write that takes its lease has the stream of its lease operation. -/
theorem Write.stream?_locking (t : Target) (a : Acquire) (place : Acquire.Place)
    (inbox : Option Reply) :
    (Place.locking a place).stream? t inbox = (LeaseOp.acquire a place).stream? inbox := by
  cases place with
  | opening bid =>
    rcases inbox with _ | ⟨request, answer⟩
    · rfl
    · rcases request with ⟨b, call⟩ | _ | _ | _ | _ | _
      · cases call with
        | openWrite file append => rcases answer with f | s <;> rfl
        | _ => rfl
      all_goals rfl
  | _ => rfl

theorem Task.stream?_of_leaseOp {t : Task} {d : LeaseOp} (h : t.leaseOp? = some d)
    (inbox : Option Reply) :
    t.stream? inbox = d.stream? inbox := by
  cases t with
  | acquiring a place =>
    cases h
    rfl
  | releasing lease marker strict place =>
    cases h
    rfl
  | expiring lease place =>
    cases h
    rfl
  | operating id place =>
    cases place with
    | writing target place =>
      cases place with
      | locking a place =>
        cases h
        exact Write.stream?_locking target a place inbox
      | unlocking lease marker place copied =>
        cases h
        rfl
      | copying lease place => cases h
    | _ => cases h
  | _ => cases h

/-- Whoever has a stream without a lease operation copies into its file. -/
theorem Task.copying_of_stream {t : Task} (h : t.leaseOp? = none) {inbox : Option Reply}
    {stream : StreamId × Site} (hs : t.stream? inbox = some stream) :
    ∃ id target lease place, t = .operating id (.writing target (.copying lease place)) ∧
      stream.2 = target.site := by
  cases t with
  | acquiring a place => cases h
  | operating id place =>
    cases place with
    | writing target place =>
      cases place with
      | copying lease place =>
        refine ⟨id, target, lease, place, rfl, ?_⟩
        cases place with
        | opening =>
          -- the stream is the one that has just been opened
          simp only [stream?, Write.Place.stream?] at hs
          split at hs
          all_goals first | contradiction | cases hs; rfl
        | _ =>
          cases hs
          rfl
      | _ => cases h
    | _ => cases hs
  | _ => cases hs
/-! ## The streams of a task that goes on -/

theorem Begins.streamless {s s' : Shared} {d : LeaseOp} (h : Begins s (some d) s')
    (inbox : Option Reply) : d.stream? inbox = none := by
  cases h <;> rfl

/-- The target of an acquisition, as if its marker were written to by a copy. -/
def Acquire.target (a : Acquire) : Write.Target :=
  ⟨a.backend, ⟨a.marker⟩, false⟩

/-- The stream that a lease operation has after a move was opened before. -/
theorem LeaseOp.Moves.stream {writer : Diagnostics} {s s' : Shared} {a : Acquire}
    {place place' : Acquire.Place} {reply : Reply}
    (h : (LeaseOp.acquire a place).Moves writer s reply (.paused (.acquire a place')) s')
    {stream : StreamId × Site} (hs : (LeaseOp.acquire a place').stream? none = some stream) :
    (LeaseOp.acquire a place).stream? (some reply) = some stream := by
  rw [← Write.stream?_locking a.target] at hs ⊢
  exact (Write.Goes.locks a place place' reply s' h).stream hs

/-- A write that copies into a stream after a move has copied before. -/
theorem Write.Goes.copying_of_stream {writer : Diagnostics} {t : Target} {s s' : Shared}
    {place place' : Place} {reply : Reply} (h : Goes writer t s place reply (.paused place') s')
    {stream : StreamId × Site} (hs : place'.stream? t none = some stream)
    (hd : place'.leaseOp? = none) : place.leaseOp? = none := by
  cases h with
  | copies lease p p' reply move => rfl
  | locked a s' move => cases hs
  | _ => cases hd

/-- A task that is about no lease and writes no file has no lease operation. -/
theorem Task.leaseOp?_of_not_lone {t : Task} (hl : t.lone? = none) (hw : t.write? = none) :
    t.leaseOp? = none := by
  cases t with
  | operating id place =>
    cases place with
    | writing target place => cases hw
    | _ => rfl
  | acquiring => cases hl
  | releasing => cases hl
  | expiring => cases hl
  | _ => rfl

/-- The stream that a task has after an answer was opened before, for the same purpose. -/
theorem Task.stream_next {t : Task} {s : Shared} {p : Pending (Shared → Task × Shared)}
    (hp : t.next? s = some p) (answer : p.request.Answer) {stream : StreamId × Site}
    (hs : (p.resume answer s).1.stream? none = some stream) :
    t.stream? (some ⟨p.request, answer⟩) = some stream ∧
      ((p.resume answer s).1.leaseOp? = none → t.leaseOp? = none) := by
  cases hw : t.write? with
  | some write =>
    obtain ⟨target, place⟩ := write
    obtain ⟨id, rfl⟩ := Task.eq_of_write? hw
    obtain ⟨step, s', move, hresume⟩ := Task.goes_of_write hp answer
    rw [hresume] at hs ⊢
    cases step with
    | done result => cases hs
    | paused place' => exact ⟨move.stream hs, move.copying_of_stream hs⟩
  | none =>
    cases hl : t.lone? with
    | some d =>
      obtain ⟨step, move, hfollows⟩ := Task.follows_next? hl hp answer
      generalize (p.resume answer s).1 = t' at hs hfollows ⊢
      cases hfollows with
      | acquiring a place place' =>
        cases hl
        exact ⟨move.stream hs, fun hnone => by cases hnone⟩
      | _ => cases hs
    | none =>
      have hd := Task.leaseOp?_of_not_lone hl hw
      -- whatever begins has no stream yet
      exfalso
      cases hd' : (p.resume answer s).1.leaseOp? with
      | some d =>
        have hbegins := Task.begins_of_no_leaseOp hd hp answer
        rw [hd'] at hbegins
        rw [Task.stream?_of_leaseOp hd', hbegins.streamless] at hs
        cases hs
      | none =>
        obtain ⟨id, target, lease, place, ht', -⟩ := Task.copying_of_stream hd' hs
        rcases Task.begins_of_no_write hw hp answer with hnone | ⟨id', target', place', ht'', hb⟩
        · rw [ht'] at hnone
          cases hnone
        · rw [ht''] at hs
          have hstream : place'.stream? target' none = some stream := hs
          rw [hb.stream] at hstream
          cases hstream

/-- The archive acts on the request of a task: its stream leads to its file. -/
theorem Task.stream_acts (w : Archive ε) (i : TaskId) (e : ε) {t : Task} {s : Shared}
    {p : Pending (Shared → Task × Shared)} (hp : t.next? s = some p) {stream : StreamId}
    {σ : Site} (h : t.stream? (some ⟨p.request, (w.answer i p.request e).1⟩) = some (stream, σ))
    (hs : t.stream? none = some (stream, σ) → w.site? e stream = some σ) :
    w.site? (w.answer i p.request e).2 stream = some σ := by
  cases t with
  | acquiring a place =>
    cases hp
    have hlocking := Write.stream?_locking a.target a place
    refine Write.stream_acts w i e rfl ((hlocking _).trans h) fun hnone => hs ?_
    exact (hlocking none).symm.trans hnone
  | operating id place =>
    cases hp
    cases place with
    | writing target place => exact Write.stream_acts w i e rfl h hs
    | _ => cases h
  | _ => cases h

/-! ## Scenes -/

namespace Scene

variable {w : Archive ε} {c c' : Scene ε} {σ : Site}

/-- The streams of all tasks lead to their files, and only those of lease operations lead to a site
that is left alone. -/
structure Led (w : Archive ε) (σ : Site) (c : Scene ε) : Prop where
  leads : ∀ i t s τ, c.gateway.task? i = some t → t.stream? (c.inbox i) = some (s, τ) →
    w.site? c.world s = some τ
  apart : ∀ i t s τ, c.gateway.task? i = some t → t.leaseOp? = none →
    t.stream? (c.inbox i) = some (s, τ) → τ ≠ σ

theorem led_start (writer : Diagnostics) (world : ε) : Led w σ (start writer world) where
  leads := fun i t s τ h => by cases h
  apart := fun i t s τ h => by cases h

/-- A task that starts has no stream yet. -/
theorem streamless_of_grows {g g' : Gateway} {d : Option LeaseOp}
    (hs : g.Starts g.tasks.length d g') {t : Task} (htasks : g'.tasks = g.tasks ++ [t])
    (hw : t.write? = none) (inbox : Option Reply) : t.stream? inbox = none := by
  have htask : g'.task? g.tasks.length = some t := by
    rw [Gateway.task?_concat htasks, Function.update_self]
  have hleaseOp : t.leaseOp? = d := by
    rw [← Gateway.leaseOps_eq htask, hs.leaseOps, Function.update_self]
  cases d with
  | some d =>
    rw [Task.stream?_of_leaseOp hleaseOp]
    exact hs.begins.streamless inbox
  | none =>
    by_contra hstream
    obtain ⟨stream, hsome⟩ := Option.ne_none_iff_exists'.1 hstream
    obtain ⟨id, target, lease, place, rfl, -⟩ := Task.copying_of_stream hleaseOp hsome
    cases hw

theorem Led.starts (h : Led w σ c) {d : Option LeaseOp} {g : Gateway}
    (hs : c.gateway.Starts c.gateway.tasks.length d g) (hg : c.gateway.Grows g) :
    Led w σ { c with gateway := g } := by
  -- whatever has a stream was there before
  have hold : ∀ i t stream, g.task? i = some t → t.stream? (c.inbox i) = some stream →
      c.gateway.task? i = some t := by
    intro i t stream ht hstream
    rcases hg with htasks | ⟨t', htasks, hw⟩
    · rw [Gateway.task?, ← htasks]
      exact ht
    · rw [Gateway.task?_concat htasks] at ht
      by_cases hi : i = c.gateway.tasks.length
      · subst hi
        rw [Function.update_self] at ht
        cases ht
        rw [streamless_of_grows hs htasks hw] at hstream
        cases hstream
      · rw [Function.update_of_ne hi] at ht
        exact ht
  constructor
  · intro i t s τ ht hstream
    exact h.leads i t s τ (hold i t _ ht hstream) hstream
  · intro i t s τ ht hd hstream
    exact h.apart i t s τ (hold i t _ ht hstream) hd hstream

theorem Led.resumes (h : Led w σ c) {id : TaskId} {t : Task} {p : Pending Gateway}
    {answer : p.request.Answer} (task : c.gateway.task? id = some t)
    (pending : c.gateway.pending? id = some p) (inbox : c.inbox id = some ⟨p.request, answer⟩)
    (hgateway : c'.gateway = p.resume answer) (hworld : c'.world = c.world)
    (hinbox : c'.inbox = Function.update c.inbox id none) : Led w σ c' := by
  obtain ⟨t₀, q, ht₀, hq, -, rfl⟩ := Gateway.pending?_eq pending
  rw [task] at ht₀
  cases ht₀
  have htasks : c'.gateway.task? =
      Function.update c.gateway.task? id (some (q.resume answer c.gateway.shared).1) := by
    rw [hgateway]
    exact Gateway.task?_set task _ _
  constructor
  · intro i t' s τ ht' hstream
    rw [hworld]
    rw [htasks] at ht'
    rw [hinbox] at hstream
    by_cases hi : i = id
    · subst hi
      rw [Function.update_self] at ht' hstream
      cases ht'
      refine h.leads i t s τ task ?_
      rw [inbox]
      exact (Task.stream_next hq answer hstream).1
    · rw [Function.update_of_ne hi] at ht' hstream
      exact h.leads i t' s τ ht' hstream
  · intro i t' s τ ht' hd hstream
    rw [htasks] at ht'
    rw [hinbox] at hstream
    by_cases hi : i = id
    · subst hi
      rw [Function.update_self] at ht' hstream
      cases ht'
      obtain ⟨hbefore, hleaseOp⟩ := Task.stream_next hq answer hstream
      refine h.apart i t s τ task (hleaseOp hd) ?_
      rw [inbox]
      exact hbefore
    · rw [Function.update_of_ne hi] at ht' hstream
      exact h.apart i t' s τ ht' hd hstream

/-- A copy that opens its file alters it. -/
theorem altered_of_stream {t : Task} {s : Shared} {p : Pending (Shared → Task × Shared)}
    (hp : t.next? s = some p) (hd : t.leaseOp? = none) {answer : p.request.Answer}
    {stream : StreamId × Site} (h : t.stream? (some ⟨p.request, answer⟩) = some stream) :
    t.stream? none = some stream ∨ p.request.altered? = some stream.2 := by
  obtain ⟨id, target, lease, place, rfl, hsite⟩ := Task.copying_of_stream hd h
  rw [hsite]
  cases hp
  cases place with
  | opening => exact Or.inr rfl
  | _ => exact Or.inl h

theorem Led.serves (h : Led w σ c) {id : TaskId} {t : Task} {p : Pending Gateway}
    (task : c.gateway.task? id = some t) (pending : c.gateway.pending? id = some p)
    (inbox : c.inbox id = none) (hgateway : c'.gateway = c.gateway)
    (hworld : c'.world = (w.answer id p.request c.world).2)
    (hinbox : c'.inbox =
      Function.update c.inbox id (some ⟨p.request, (w.answer id p.request c.world).1⟩))
    (halone : t.leaseOp? = none → p.request.altered? ≠ some σ) : Led w σ c' := by
  obtain ⟨t₀, q, ht₀, hq, -, rfl⟩ := Gateway.pending?_eq pending
  rw [task] at ht₀
  cases ht₀
  constructor
  · intro i t' s τ ht' hstream
    rw [hgateway] at ht'
    rw [hinbox] at hstream
    rw [hworld]
    by_cases hi : i = id
    · subst hi
      rw [Function.update_self] at hstream
      rw [task] at ht'
      cases ht'
      refine Task.stream_acts w i c.world hq hstream fun hnone => h.leads i t s τ task ?_
      rw [inbox]
      exact hnone
    · rw [Function.update_of_ne hi] at hstream
      exact w.steady id _ c.world s τ (h.leads i t' s τ ht' hstream)
  · intro i t' s τ ht' hd hstream
    rw [hgateway] at ht'
    rw [hinbox] at hstream
    by_cases hi : i = id
    · subst hi
      rw [Function.update_self] at hstream
      rw [task] at ht'
      cases ht'
      rcases altered_of_stream hq hd hstream with hbefore | haltered
      · refine h.apart i t s τ task hd ?_
        rw [inbox]
        exact hbefore
      · rintro rfl
        exact halone hd haltered
    · rw [Function.update_of_ne hi] at hstream
      exact h.apart i t' s τ ht' hd hstream

/-- Every change of a scene leaves the streams where they lead. -/
theorem Led.changes (h : Led w σ c) (hc : Changes w.toWorld c c')
    (halone : LeftAlone σ c'.history) : Led w σ c' := by
  cases hc with
  | nothing => exact h
  | starts d g starts grows => exact h.starts starts grows
  | resumes id t p answer task pending inbox => exact h.resumes task pending inbox rfl rfl rfl
  | serves id t p task pending inbox =>
    exact h.serves task pending inbox rfl rfl rfl fun hd => halone.unaltered hd

/-! ## Whoever touches a file -/

/-- A request that writes to no stream touches what it alters. -/
theorem altered_of_touched {r : Request} (h : r.touched? (fun _ => none) = some σ) :
    r.altered? = some σ := by
  cases r with
  | store b call =>
    cases call with
    | write s piece => cases h
    | finish s => cases h
    | _ => exact h
  | _ => cases h

/-- A task without a lease operation that waits for something is an operation. -/
theorem isOperation_of_next {t : Task} (hd : t.leaseOp? = none) {s : Shared}
    {p : Pending (Shared → Task × Shared)} (hp : t.next? s = some p) : t.isOperation = true := by
  cases t with
  | finished result => cases hp
  | acquiring => cases hd
  | releasing => cases hd
  | expiring => cases hd
  | _ => rfl

/-- A task without a lease operation does not touch a site that it leaves alone. -/
theorem Led.untouched (h : Led w σ c) {id : TaskId} {t : Task} {p : Pending Gateway}
    (task : c.gateway.task? id = some t) (pending : c.gateway.pending? id = some p)
    (inbox : c.inbox id = none) (hd : t.leaseOp? = none) (haltered : p.request.altered? ≠ some σ) :
    p.request.touched? (w.site? c.world) ≠ some σ := by
  intro htouched
  cases hw : t.write? with
  | none =>
    obtain ⟨t₀, q, ht₀, hq, -, rfl⟩ := Gateway.pending?_eq pending
    rw [task] at ht₀
    cases ht₀
    have hsame : q.request.touched? (w.site? c.world) = q.request.touched? fun _ => none :=
      Task.touched_of_operation (isOperation_of_next hd hq) hw hq _ _
    exact haltered (altered_of_touched (hsame.symm.trans htouched))
  | some write =>
    obtain ⟨target, place⟩ := write
    obtain ⟨handle, rfl⟩ := Task.eq_of_write? hw
    -- its stream leads to its own file, which is another one
    have hstream : ∀ s τ, place.stream? target none = some (s, τ) →
        w.site? c.world s = some τ ∧ τ ≠ σ := by
      intro s τ hs
      have hsome : (Task.operating handle (.writing target place)).stream? (c.inbox id) =
          some (s, τ) := by
        rw [inbox]
        exact hs
      exact ⟨h.leads id _ s τ task hsome, h.apart id _ s τ task hd hsome⟩
    rw [pending_write (Gateway.write?_eq task) pending] at htouched haltered
    cases place with
    | copying lease place =>
      cases place with
      | opening => exact haltered htouched
      | pulling s n => cases htouched
      | writing s n piece =>
        obtain ⟨hsite, hne⟩ := hstream s target.site rfl
        exact hne (Option.some.inj (hsite.symm.trans htouched))
      | finishing s n =>
        obtain ⟨hsite, hne⟩ := hstream s target.site rfl
        exact hne (Option.some.inj (hsite.symm.trans htouched))
    | _ => cases hd

end Scene

/-- What a lease operation that touches a site has to do with it: it owns the file there, it awaits
the site, or it tries to create the file exclusively. -/
inductive LeaseOp.Touches (σ : Site) (d : LeaseOp) : Prop where
  | owner (owned : d.owned? none = some σ)
  | waiter (awaited : d.awaited? none = some σ)
  | rival (a : Acquire) (bid : Acquire.Bid) (leaseOp : d = .acquire a (.creating bid))
      (site : a.site bid = σ)

/-- The request of a lease operation touches the site of its marker. -/
theorem LeaseOp.touches {writer : Diagnostics} {d : LeaseOp} {site? : StreamId → Option Site}
    {σ : Site}
    (hs : ∀ s τ, d.stream? none = some (s, τ) → site? s = some τ)
    (h : (d.next writer).request.touched? site? = some σ) : d.Touches σ := by
  cases d with
  | acquire a place =>
    cases place with
    | creating bid => exact .rival a bid rfl (Option.some.inj h)
    | filling bid => exact .waiter h
    | opening bid => exact .owner h
    | writing bid stream => exact .owner ((hs stream _ rfl).symm.trans h)
    | finishing bid stream => exact .owner ((hs stream _ rfl).symm.trans h)
    | cleaning bid failure => exact .owner h
    | _ => cases h
  | surrender r place =>
    cases place with
    | removing removal => exact .owner h
    | _ => cases h

namespace Scene

variable {w : Archive ε} {c : Scene ε} {σ : Site}

/-- Whoever touches a site that is left alone has a lease operation that has to do with it. -/
theorem Led.touched (h : Led w σ c) {id : TaskId} {t : Task} {p : Pending Gateway}
    (task : c.gateway.task? id = some t) (pending : c.gateway.pending? id = some p)
    (inbox : c.inbox id = none) (halone : t.leaseOp? = none → p.request.altered? ≠ some σ)
    (htouched : p.request.touched? (w.site? c.world) = some σ) :
    ∃ d, c.gateway.leaseOps id = some d ∧ d.Touches σ := by
  have htask := Gateway.leaseOps_eq task
  cases hd : t.leaseOp? with
  | none => exact absurd htouched (h.untouched task pending inbox hd (halone hd))
  | some d =>
    rw [hd] at htask
    rw [Gateway.request_of_leaseOp htask pending] at htouched
    refine ⟨d, htask, LeaseOp.touches (fun s τ hs => h.leads id t s τ task ?_) htouched⟩
    rw [inbox, Task.stream?_of_leaseOp hd]
    exact hs

end Scene

end FileGateway

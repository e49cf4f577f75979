import FileGateway.Proofs.Operation.Holding

/-!
# What a copy brings to its file

* `Copy.Reaches` says how the file, the draft of the stream and the source of a copy stand to each
  other at each place of the copy: what has been written to the stream is a part of the source, and
  the rest of the source is still to come. `Copy.Reaches.acts` is the step of the copy itself,
  `Copy.Reaches.apart` a step of anybody else.
* `Scene.Streamed` says that the streams of the writes lead to their files, so that it can be told
  from a task which file its requests touch.
-/

namespace FileGateway

variable {ε : Type}

/-! ## Copies -/

/-- A stream leads to a site, and this is what the file there will hold once it is completed. -/
def Archive.Drafts (w : Archive ε) (e : ε) (σ : Site) (s : StreamId) (draft : Bytes) : Prop :=
  w.site? e s = some σ ∧ w.draft? e s = some draft

namespace Copy

/-- How things stand when a copy has come to a place, or to its end. `base` is what the stream
starts with and `source` the whole source; `before` is what the file holds before it is opened. -/
def Reaches (w : Archive ε) (i : TaskId) (σ : Site) (before base source : Bytes) (e : ε) :
    Step Place (Result Nat) → Prop
  | .paused .opening => w.content e σ = before ∧ source = w.source e i
  | .paused (.pulling s _) =>
    ∃ taken, w.Drafts e σ s (base ++ taken) ∧ source = taken ++ w.source e i
  | .paused (.writing s _ piece) =>
    ∃ taken, w.Drafts e σ s (base ++ taken) ∧ source = taken ++ piece ++ w.source e i
  | .paused (.finishing s _) => w.Drafts e σ s (base ++ source)
  | .done (.ok _) => w.content e σ = base ++ source
  | .done (.error _) => True

variable {w : Archive ε} {i : TaskId} {σ : Site} {before base source : Bytes} {e : ε}

/-- A step of the world that has nothing to do with the file and the source of a copy. -/
theorem Reaches.apart {step : Step Place (Result Nat)} (h : Reaches w i σ before base source e step)
    (j : TaskId) (r : Request) (hr : r.touched? (w.site? e) ≠ some σ) (hj : r ≠ .pull ∨ i ≠ j) :
    Reaches w i σ before base source (w.answer j r e).2 step := by
  obtain ⟨hcontent, hdraft⟩ := w.apart j r e σ hr
  have hsource := w.unpulled j i r e hj
  have hdrafts : ∀ {s draft}, w.Drafts e σ s draft → w.Drafts (w.answer j r e).2 σ s draft := by
    intro s draft hs
    exact ⟨w.steady j r e _ σ hs.1, (hdraft _ hs.1).trans hs.2⟩
  rcases step with (_ | ⟨s, n⟩ | ⟨s, n, piece⟩ | ⟨s, n⟩) | (f | n)
  · exact ⟨hcontent.trans h.1, hsource ▸ h.2⟩
  · obtain ⟨taken, hs, hsplit⟩ := h
    exact ⟨taken, hdrafts hs, hsource ▸ hsplit⟩
  · obtain ⟨taken, hs, hsplit⟩ := h
    exact ⟨taken, hdrafts hs, hsource ▸ hsplit⟩
  · exact hdrafts h
  · trivial
  · exact hcontent.trans h

/-- A step of the copy itself: the world acts on its request, and it goes on by the answer. -/
theorem Reaches.acts {b : Backend} {file : FileRef} {append : Bool} {p : Place} {reply : Reply}
    {step : Step Place (Result Nat)}
    (h : Reaches w i (b.site file) before (if append then before else []) source e (.paused p))
    (hg : Goes b file append p reply step) (hreply : (w.answer i reply.1 e).1 = reply.2) :
    Reaches w i (b.site file) before (if append then before else []) source
      (w.answer i reply.1 e).2 step := by
  -- whoever writes does not pull, and whoever pulls does not write
  have hsource : ∀ {r}, r ≠ .pull → w.source (w.answer i r e).2 i = w.source e i :=
    fun hr => w.unpulled i i _ e (Or.inl hr)
  have hpull : ∀ {s draft}, w.Drafts e (b.site file) s draft →
      w.Drafts (w.answer i .pull e).2 (b.site file) s draft := by
    intro s draft hs
    obtain ⟨-, hdraft⟩ := w.apart i .pull e (b.site file) fun hr => by cases hr
    exact ⟨w.steady i .pull e _ _ hs.1, (hdraft _ hs.1).trans hs.2⟩
  cases hg with
  | opened s =>
    -- nothing is taken yet, and the draft is what the file held, or nothing
    obtain ⟨-, hsite, hdraft⟩ := w.opened i b file append e s hreply
    refine ⟨[], ⟨hsite, ?_⟩, ?_⟩
    · rw [hdraft, h.1, List.append_nil]
    · rw [hsource (by simp)]
      exact h.2
  | pulled s n byte rest =>
    obtain ⟨taken, hs, hsplit⟩ := h
    refine ⟨taken, hpull hs, ?_⟩
    rw [hsplit, (w.pulled i e _ hreply).1, List.append_assoc]
  | ended s n =>
    -- the source has come to its end, so all of it was taken
    obtain ⟨taken, hs, hsplit⟩ := h
    obtain ⟨hpiece, hend⟩ := w.pulled i e [] hreply
    have hwhole : source = taken := by
      rw [hsplit, hpiece, hend rfl]
      simp
    rw [hwhole]
    exact hpull hs
  | written s n piece =>
    obtain ⟨taken, hs, hsplit⟩ := h
    refine ⟨taken ++ piece, ⟨w.steady i _ e s _ hs.1, ?_⟩, ?_⟩
    · rw [w.written i b s piece e _ hreply hs.2, List.append_assoc]
    · rw [hsource (by simp)]
      exact hsplit
  | finished s n => exact w.finished i b s e _ _ hreply h.1 h.2
  | unopened | unpulled | unwritten | unfinished => trivial

end Copy

/-! ## Streams -/

namespace Write

/-- The stream that a write has opened, and the site of its file. The answer in the inbox is what
has come of the last request. -/
def Place.stream? (t : Target) : Place → Option Reply → Option (StreamId × Site)
  | locking a (.opening bid), some ⟨.store _ (.openWrite _ _), .ok s⟩ => some (s, a.site bid)
  | locking a (.writing bid s), _ => some (s, a.site bid)
  | locking a (.finishing bid s), _ => some (s, a.site bid)
  | copying _ .opening, some ⟨.store _ (.openWrite _ _), .ok s⟩ => some (s, t.site)
  | copying _ (.pulling s _), _ => some (s, t.site)
  | copying _ (.writing s _ _), _ => some (s, t.site)
  | copying _ (.finishing s _), _ => some (s, t.site)
  | _, _ => none

/-- The stream that a write has after a move was opened before. -/
theorem Goes.stream {writer : Diagnostics} {t : Target} {s s' : Shared} {place place' : Place}
    {reply : Reply} (h : Goes writer t s place reply (.paused place') s') {stream : StreamId × Site}
    (hs : place'.stream? t none = some stream) : place.stream? t (some reply) = some stream := by
  cases h with
  | locks a p p' reply s' move =>
    generalize hstep :
      (Step.paused (LeaseOp.acquire a p') : Step LeaseOp LeaseOp.Ending) = step at move
    cases move with
    | opened _ bid stream' =>
      cases hstep
      exact hs
    | written _ bid stream' =>
      cases hstep
      exact hs
    | granted _ bid =>
      cases hstep
      split at hs <;> cases hs
    | _ =>
      cases hstep
      try cases hs
  | copies lease p p' reply move =>
    generalize hstep : (Step.paused p' : Step Copy.Place (Result Nat)) = step at move
    cases move with
    | opened | ended | pulled | written =>
      cases hstep
      exact hs
    | _ => cases hstep
  | _ => cases hs

theorem Begins.stream {leases leases' : List Lease} {t : Target} {place : Place}
    (h : Begins leases t place leases') : place.stream? t none = none := by
  cases h <;> rfl

variable (w : Archive ε) (i : TaskId) (e : ε)

/-- The archive acts on the request of a write: its stream leads to its file. -/
theorem stream_acts {t : Target} {writer : Diagnostics} {place : Place} {request : Request}
    (hr : request = (next t writer place).request) {s : StreamId} {σ : Site}
    (h : place.stream? t (some ⟨request, (w.answer i request e).1⟩) = some (s, σ))
    (hs : place.stream? t none = some (s, σ) → w.site? e s = some σ) :
    w.site? (w.answer i request e).2 s = some σ := by
  cases place with
  | locking a p =>
    cases p with
    | opening bid =>
      have hopen : request = .store a.backend (.openWrite bid.marker false) := hr
      subst hopen
      have hopened := w.opened i a.backend bid.marker false e
      generalize w.answer i (.store a.backend (.openWrite bid.marker false)) e = result at *
      obtain ⟨f | s', e'⟩ := result
      · cases h
      · cases h
        exact (hopened s rfl).2.1
    | writing bid stream => exact w.steady i request e s σ (hs h)
    | finishing bid stream => exact w.steady i request e s σ (hs h)
    | _ => cases h
  | copying lease p =>
    cases p with
    | opening =>
      have hopen : request = .store t.backend (.openWrite t.file t.append) := hr
      subst hopen
      have hopened := w.opened i t.backend t.file t.append e
      -- the stream is the one that the archive has just opened
      generalize w.answer i (.store t.backend (.openWrite t.file t.append)) e = result at *
      obtain ⟨f | s', e'⟩ := result
      · cases h
      · cases h
        exact (hopened s rfl).2.1
    | pulling | writing | finishing => exact w.steady i request e s σ (hs h)
  | unlocking lease marker p copied => cases h

end Write

/-! ## What a task touches -/

/-- The site of the file that a task writes to by a stream. -/
def Task.file? (t : Task) : Option Site :=
  match t.leaseOp?, t.write? with
  | some (.acquire a (.writing bid _)), _ => some (a.site bid)
  | some (.acquire a (.finishing bid _)), _ => some (a.site bid)
  | _, some (target, .copying _ _) => some target.site
  | _, _ => none

/-- Whether a task copies into a file on which it holds a lease. -/
def Task.isLockedCopy (t : Task) : Bool :=
  match t.write? with
  | some (_, .copying (some _) _) => true
  | _ => false

/-- Whether something other than the copy of a locked write has touched the file at a site. -/
def Entry.intrudes (σ : Site) : Entry → Bool
  | served _ t reply => reply.1.touched? (fun _ => t.file?) == some σ && !t.isLockedCopy
  | resumed _ _ _ => false

/-- Nothing but the copies of locked writes has touched the file at a site. -/
def Reserved (σ : Site) (history : List Entry) : Prop :=
  ∀ e ∈ history, e.intrudes σ = false

instance (σ : Site) (history : List Entry) : Decidable (Reserved σ history) :=
  inferInstanceAs (Decidable (∀ e ∈ history, e.intrudes σ = false))

theorem Reserved.of_cons {σ : Site} {e : Entry} {history : List Entry}
    (h : Reserved σ (e :: history)) : Reserved σ history :=
  fun e' hmem => h e' (List.mem_cons_of_mem e hmem)

/-- A task that writes no file writes to no stream. -/
theorem Task.touched_of_operation {t : Task} (h : t.isOperation = true) (hw : t.write? = none)
    {s : Shared} {p : Pending (Shared → Task × Shared)} (hp : t.next? s = some p)
    (site? site?' : StreamId → Option Site) :
    p.request.touched? site? = p.request.touched? site?' := by
  cases t with
  | operating id place =>
    cases hp
    cases place with
    | writing target place => cases hw
    | reading backend file place => cases place <;> rfl
    | _ => rfl
  | acquiring a place => cases h
  | releasing lease marker strict place => cases h
  | expiring lease place => cases h
  | finished result => cases hp
  | _ =>
    cases hp
    rfl

/-- The stream to which a write writes is the one that it has opened, to the file of its task. -/
theorem Write.touched {id : HandleId} {t : Target} {writer : Diagnostics} {place : Place}
    {site? : StreamId → Option Site}
    (h : ∀ s σ, place.stream? t none = some (s, σ) → site? s = some σ) :
    (next t writer place).request.touched? site? =
      (next t writer place).request.touched?
        fun _ => Task.file? (.operating id (.writing t place)) := by
  cases place with
  | locking a p =>
    cases p with
    | writing bid stream => exact h stream (a.site bid) rfl
    | finishing bid stream => exact h stream (a.site bid) rfl
    | _ => rfl
  | copying lease p =>
    cases p with
    | writing stream n piece => exact h stream t.site rfl
    | finishing stream n => exact h stream t.site rfl
    | _ => rfl
  | unlocking lease marker p copied => cases p <;> rfl

/-- A copy touches no other file than its own. -/
theorem Write.touched_copying {id : HandleId} {t : Target} {writer : Diagnostics}
    {lease : Option LeaseId} {place : Copy.Place} {σ : Site}
    (h : (next t writer (.copying lease place)).request.touched?
      (fun _ => Task.file? (.operating id (.writing t (.copying lease place)))) = some σ) :
    t.site = σ := by
  cases place with
  | pulling s n => cases h
  | _ => exact Option.some.inj h

namespace Scene

variable {w : Archive ε} {c c' : Scene ε} {σ : Site}

/-- The streams of the writes lead to their files. -/
def Streamed (w : Archive ε) (c : Scene ε) : Prop :=
  ∀ i t place s τ, c.gateway.write? i = some (t, place) →
    place.stream? t (c.inbox i) = some (s, τ) → w.site? c.world s = some τ

theorem pending_write {id : TaskId} {t : Write.Target} {place : Write.Place} {p : Pending Gateway}
    (hw : c.gateway.write? id = some (t, place)) (hp : c.gateway.pending? id = some p) :
    p.request = (Write.next t c.gateway.shared.writer place).request := by
  obtain ⟨handle, ht⟩ := Gateway.write?_task hw
  obtain ⟨t₀, q, ht₀, hq, -, rfl⟩ := Gateway.pending?_eq hp
  rw [ht] at ht₀
  cases ht₀
  cases hq
  rfl

theorem Streamed.unfolds (h : Streamed w c) (hu : Unfolds w.toWorld c c') : Streamed w c' := by
  intro i t place s τ hw hs
  cases hu with
  | rests _ rests =>
    rw [rests.write?] at hw
    rcases rests.inbox i with hsame | ⟨hnone, -⟩
    · rw [hsame] at hs
      rw [rests.world]
      exact h i t place s τ hw hs
    · rw [hnone] at hw
      cases hw
  | serves id t' p task pending inbox =>
    by_cases hid : i = id
    · -- the stream was opened before, or is opened by this request
      subst hid
      simp only [Function.update_self] at hs
      refine Write.stream_acts w i c.world (pending_write hw pending) hs fun hnone => ?_
      rw [← inbox] at hnone
      exact h i t place s τ hw hnone
    · simp only [Function.update_of_ne hid] at hs
      exact w.steady id p.request c.world s τ (h i t place s τ hw hs)
  | goes id handle target place' reply step s₁ s₂ t' task inbox move next agrees =>
    have hwrite : c.gateway.write? id = some (target, place') :=
      Gateway.write?_eq task
    simp only [Gateway.write?_set task, next, Task.write?_ofOperation] at hw
    by_cases hid : i = id
    · subst hid
      simp only [Function.update_self] at hw hs
      cases step with
      | done result => cases hw
      | paused place'' =>
        cases hw
        refine h i t place' s τ hwrite ?_
        rw [inbox]
        exact move.stream hs
    · simp only [Function.update_of_ne hid] at hw hs
      exact h i t place s τ hw hs
  | begins id t' reply handle target place' s₁ task unwritten unfinished begins =>
    simp only [Gateway.write?_set task] at hw
    by_cases hid : i = id
    · subst hid
      simp only [Function.update_self] at hw hs
      cases hw
      rw [begins.stream] at hs
      cases hs
    · simp only [Function.update_of_ne hid] at hw hs
      exact h i t place s τ hw hs

/-- A request that is not made by the copy of a locked write leaves a reserved file alone. -/
theorem Streamed.untouched (h : Streamed w c) (ho : c.gateway.OnlyOperations) {id : TaskId}
    {t : Task} {p : Pending Gateway} (task : c.gateway.task? id = some t)
    (pending : c.gateway.pending? id = some p) (inbox : c.inbox id = none)
    {answer : p.request.Answer}
    (hintrudes : (Entry.served id t ⟨p.request, answer⟩).intrudes σ = false)
    (hcopy : ∀ target lease place, t.write? = some (target, .copying (some lease) place) →
      target.site ≠ σ) : p.request.touched? (w.site? c.world) ≠ some σ := by
  -- the request touches what the task says it touches
  have htask : p.request.touched? (w.site? c.world) = p.request.touched? fun _ => t.file? := by
    cases hw : t.write? with
    | some write =>
      obtain ⟨target, place⟩ := write
      obtain ⟨handle, rfl⟩ := Task.eq_of_write? hw
      have hwrite : c.gateway.write? id = some (target, place) :=
        Gateway.write?_eq task
      rw [pending_write hwrite pending]
      refine Write.touched fun s τ hs => h id target place s τ hwrite ?_
      rw [inbox]
      exact hs
    | none =>
      obtain ⟨t₀, q, ht₀, hq, -, rfl⟩ := Gateway.pending?_eq pending
      rw [task] at ht₀
      cases ht₀
      exact Task.touched_of_operation (ho.task task) hw hq _ _
  intro htouched
  rw [htask] at htouched
  -- nothing intrudes, so the request would be that of a locked copy of another file
  have hlocked : t.isLockedCopy = true := by
    simpa [Entry.intrudes, htouched] using hintrudes
  unfold Task.isLockedCopy at hlocked
  split at hlocked
  · next target lease place hw =>
    obtain ⟨handle, rfl⟩ := Task.eq_of_write? hw
    have hwrite : c.gateway.write? id = some (target, .copying (some lease) place) :=
      Gateway.write?_eq task
    rw [pending_write hwrite pending] at htouched
    exact hcopy target lease place hw (Write.touched_copying htouched)
  · cases hlocked

end Scene

end FileGateway

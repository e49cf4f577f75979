import FileGateway.Proofs.Disk.Twins
import FileGateway.Proofs.Gateway.Abiding
import FileGateway.Proofs.Operation.Streams

/-!
# Gateways that see nothing hidden

A task uses no streams but those that it was given by the disk (`Task.Sees.next?`), so it cannot use
any that were opened before it began. Of what is under a veil, a gateway that is driven on the disk
is told nothing then, and neither does anything that it does tell of it (`Gateway.blind_drive`).
-/

namespace FileGateway

open CommandLine (Transfer Supply Target)
open Volume (Blind)

variable {z : Veil}

/-! ## Requests -/

/-- A request uses no stream but such as can be seen. -/
def Request.Sees (z : Veil) : Request → Prop
  | store _ call => call.Sees z
  | _ => True

/-- The stream that a request is answered with. -/
def Request.opened? : (request : Request) → request.Answer → Option StreamId
  | store _ call, answer => call.opened? answer
  | _, _ => none

/-! ## Tasks -/

/-- The stream that a task reads. -/
def Task.reads? : Task → Option StreamId
  | operating _ (.reading _ _ (.reading stream _)) => some stream
  | operating _ (.reading _ _ (.pushing stream _ _)) => some stream
  | _ => none

/-- A write that has been answered has the stream that it had, or the one of the answer. -/
theorem Write.stream?_answered {t : Target} {place : Place} {request : Request}
    {answer : request.Answer} {id : StreamId} {σ : Site}
    (h : place.stream? t (some ⟨request, answer⟩) = some (id, σ)) :
    place.stream? t none = some (id, σ) ∨ request.opened? answer = some id := by
  cases place with
  | locking a p =>
    cases p with
    | opening bid =>
      rcases request with ⟨b, call⟩ | _ | _ | _ | _ | _
      · cases call with
        | openWrite file append =>
          rcases answer with f | s
          · cases h
          · cases h
            exact .inr rfl
        | _ => cases h
      all_goals cases h
    | _ => exact .inl h
  | copying lease p =>
    cases p with
    | opening =>
      rcases request with ⟨b, call⟩ | _ | _ | _ | _ | _
      · cases call with
        | openWrite file append =>
          rcases answer with f | s
          · cases h
          · cases h
            exact .inr rfl
        | _ => cases h
      all_goals cases h
    | _ => exact .inl h
  | unlocking lease marker p copied => cases h

theorem Task.stream?_answered {t : Task} {request : Request} {answer : request.Answer}
    {id : StreamId} {σ : Site} (h : t.stream? (some ⟨request, answer⟩) = some (id, σ)) :
    t.stream? none = some (id, σ) ∨ request.opened? answer = some id := by
  cases t with
  | acquiring a place =>
    have hlocking := Write.stream?_locking a.target a place
    rcases Write.stream?_answered ((hlocking _).trans h) with hnone | hopened
    · exact .inl ((hlocking none).symm.trans hnone)
    · exact .inr hopened
  | operating handle place =>
    cases place with
    | writing target place => exact Write.stream?_answered h
    | _ => cases h
  | _ => cases h

/-- What begins when a path is resolved reads nothing yet. -/
theorem Task.reads?_resolveStep (action : Action) (id : HandleId)
    (step : Step Resolve (Except Error FileRef)) (s : Shared) :
    (Task.ofOperation id (Operation.resolveStep action id step s).1
      (Operation.resolveStep action id step s).2).1.reads? = none := by
  cases step with
  | paused r => rfl
  | done result =>
    cases result with
    | error e => rfl
    | ok file =>
      simp only [Operation.resolveStep, Operation.resolved]
      cases s.handle? id with
      | none => rfl
      | some h =>
        cases action with
        | write mode =>
          simp only
          generalize Write.start _ _ _ s = started
          obtain ⟨_ | _, s'⟩ := started <;> rfl
        | _ => rfl

/-- A read that goes on reads the stream that it has read, or the one that has been opened. -/
theorem Read.reads?_next {backend : Backend} {file : FileRef} {place : Place} {id : HandleId}
    {s : Shared} (answer : (next backend file place).request.Answer) {stream : StreamId}
    (h : (Task.ofOperation id (((next backend file place).resume answer).map
      (.reading backend file) (Operation.onFile file .copied)) s).1.reads? = some stream) :
    (Task.operating id (.reading backend file place)).reads? = some stream ∨
      (next backend file place).request.opened? answer = some stream := by
  cases place with
  | opening =>
    rcases answer with f | opened
    · cases h
    · cases h
      exact .inr rfl
  | reading stream' count =>
    rcases answer with f | _ | ⟨first, rest⟩
    · cases h
    · cases h
    · exact .inl h
  | pushing stream' count piece =>
    rcases answer with f | _
    · cases h
    · exact .inl h
  | flushing count =>
    rcases answer with f | _
    · cases h
    · cases h

/-- The stream that a task reads after an answer is the one that it has read, or the one of the
answer. -/
theorem Task.reads_next {t : Task} {s : Shared} {p : Pending (Shared → Task × Shared)}
    (hp : t.next? s = some p) (answer : p.request.Answer) {stream : StreamId}
    (h : (p.resume answer s).1.reads? = some stream) :
    t.reads? = some stream ∨ p.request.opened? answer = some stream := by
  cases hl : t.lone? with
  | some d =>
    obtain ⟨step, -, hfollows⟩ := Task.follows_next? hl hp answer
    generalize (p.resume answer s).1 = t' at h hfollows
    cases hfollows <;> cases h
  | none =>
    cases t with
    | resolving r =>
      cases hp
      simp only [Pending.map] at h
      generalize r.next.resume answer s = moved at h
      obtain ⟨_ | _, s'⟩ := moved <;> cases h
    | operating id place =>
      cases place with
      | resolving action r =>
        cases hp
        simp only [Operation.next, Pending.map] at h
        rw [Task.reads?_resolveStep] at h
        cases h
      | reading backend file place =>
        cases hp
        exact Read.reads?_next answer h
      | writing target place =>
        obtain ⟨step, s', -, hresume⟩ := Task.goes_of_write hp answer
        rw [hresume] at h
        cases step <;> cases h
      | _ =>
        cases hp
        cases h
    | closing id background =>
      cases hp
      cases h
    | evicting id rest count =>
      cases hp
      cases rest <;> cases h
    | finished result => cases hp
    | _ => cases hl

/-- A task uses no stream but such as can be seen. -/
structure Task.Sees (z : Veil) (t : Task) : Prop where
  writes : ∀ id σ, t.stream? none = some (id, σ) → z.first ≤ id
  reads : ∀ id, t.reads? = some id → z.first ≤ id

namespace Task.Sees

variable {t : Task} {s : Shared} {p : Pending (Shared → Task × Shared)}

/-- A task that has no stream. -/
theorem of_none (hwrites : t.stream? none = none) (hreads : t.reads? = none) : t.Sees z where
  writes id σ h := by cases hwrites.symm.trans h
  reads id h := by cases hreads.symm.trans h

theorem ofEvicted (count : Nat) (ids : List HandleId) : (Task.ofEvicted count ids).Sees z := by
  cases ids <;> exact of_none rfl rfl

theorem request (h : t.Sees z) (hp : t.next? s = some p) : p.request.Sees z := by
  cases t with
  | acquiring a place =>
    cases hp
    cases place with
    | writing bid stream => exact h.writes _ _ rfl
    | _ => trivial
  | releasing lease marker strict place =>
    cases hp
    cases place <;> trivial
  | expiring lease place =>
    cases hp
    cases place <;> trivial
  | operating id place =>
    cases hp
    cases place with
    | reading backend file place =>
      cases place with
      | reading stream count => exact h.reads _ rfl
      | _ => trivial
    | writing target place =>
      cases place with
      | locking a place =>
        cases place with
        | writing bid stream => exact h.writes _ _ rfl
        | _ => trivial
      | copying lease place =>
        cases place with
        | writing stream count piece => exact h.writes _ _ rfl
        | _ => trivial
      | unlocking lease marker place copied => cases place <;> trivial
    | _ => trivial
  | finished result => cases hp
  | _ =>
    cases hp
    trivial

/-- A task that is given a stream that can be seen goes on to use none but such. -/
theorem next? (h : t.Sees z) (hp : t.next? s = some p) {answer : p.request.Answer}
    (hopened : ∀ id ∈ p.request.opened? answer, z.first ≤ id) : (p.resume answer s).1.Sees z where
  writes id σ hs := by
    obtain ⟨hbefore, -⟩ := Task.stream_next hp answer hs
    rcases Task.stream?_answered hbefore with hold | hnew
    · exact h.writes id σ hold
    · exact hopened id hnew
  reads id hs := by
    rcases Task.reads_next hp answer hs with hold | hnew
    · exact h.reads id hold
    · exact hopened id hnew

end Task.Sees

/-! ## Transfers -/

namespace CommandLine

/-- A transfer uses no streams but such as can be seen. -/
structure Transfer.Sees (z : Veil) (transfer : Transfer) : Prop where
  supply : ∀ id, transfer.supply = .stream id → z.first ≤ id
  target : ∀ id, transfer.target = .stream id → z.first ≤ id

theorem Transfer.Sees.ofText {rest : Bytes} {target : Target}
    (h : ∀ id, target = .stream id → z.first ≤ id) : Transfer.Sees z ⟨.text rest, target⟩ where
  supply id hid := by cases hid
  target := h

theorem Transfer.Sees.collecting {supply : Supply} {bytes : Bytes}
    (h : ∀ id, supply = .stream id → z.first ≤ id) :
    Transfer.Sees z ⟨supply, .collected bytes⟩ where
  supply := h
  target id hid := by cases hid

theorem Transfer.Sees.plain : Transfer.plain.Sees z :=
  .ofText fun id hid => by cases hid

/-- The answer to a request is the same whatever is under a veil. -/
theorem blind_answer {request : Request} (hr : request.Sees z) {transfer : Transfer}
    (ht : transfer.Sees z) :
    Blind z (answer request transfer : StateM Volume (request.Answer × Transfer)) fun r =>
      (∀ id ∈ request.opened? r.1, z.first ≤ id) ∧ r.2.Sees z := by
  have hnone : ∀ id ∈ (none : Option StreamId), z.first ≤ id := fun id h => by cases h
  cases request with
  | store b call => exact (DiskStore.blind hr).bind fun a ha => .pure ⟨ha, ht⟩
  | pull =>
    simp only [answer, pull]
    split
    · exact .pure ⟨hnone, .ofText ht.target⟩
    · next id hsupply =>
      exact (Volume.blind_read (ht.supply id hsupply)).bind fun _ _ => .pure ⟨hnone, ht⟩
  | push piece =>
    simp only [answer, push]
    split
    · exact .pure ⟨hnone, .collecting ht.supply⟩
    · next id htarget =>
      exact (Volume.blind_write (ht.target id htarget) piece).bind fun _ _ => .pure ⟨hnone, ht⟩
  | _ => exact .pure ⟨hnone, ht⟩

end CommandLine

/-! ## Gateways -/

/-- No task of a gateway uses streams but such as can be seen. -/
def Gateway.Sees (z : Veil) (g : Gateway) : Prop :=
  ∀ t ∈ g.tasks, t.Sees z

namespace Gateway

variable {g : Gateway}

theorem Sees.add (h : g.Sees z) {t : Task} (ht : t.Sees z) (s : Shared) :
    (g.add t s).2.Sees z := by
  intro t' ht'
  rcases List.mem_append.1 ht' with hold | hnew
  · exact h t' hold
  · cases List.mem_singleton.1 hnew
    exact ht

theorem Sees.fire (h : g.Sees z) (lease : LeaseId) : (g.fire lease).Sees z := by
  intro t ht
  rcases g.tasks_fire lease with hsame | hadded
  · exact h t (hsame ▸ ht)
  · rw [hadded] at ht
    rcases List.mem_append.1 ht with hold | hnew
    · exact h t hold
    · cases List.mem_singleton.1 hnew
      exact .of_none rfl rfl

theorem Sees.fireDue (h : g.Sees z) : g.fireDue.Sees z :=
  fireDue_of_fire (fun id h => h.fire id) h

theorem Sees.request (h : g.Sees z) {id : TaskId} {p : Pending Gateway}
    (hp : g.pending? id = some p) : p.request.Sees z := by
  obtain ⟨t, q, ht, hq, -, rfl⟩ := pending?_eq hp
  exact (h t (List.mem_of_getElem? ht)).request hq

theorem Sees.resume (h : g.Sees z) {id : TaskId} {p : Pending Gateway}
    (hp : g.pending? id = some p) {answer : p.request.Answer}
    (hopened : ∀ id ∈ p.request.opened? answer, z.first ≤ id) : (p.resume answer).Sees z := by
  obtain ⟨t, q, ht, hq, -, rfl⟩ := pending?_eq hp
  intro t' ht'
  rcases List.mem_or_eq_of_mem_set ht' with hold | rfl
  · exact h t' hold
  · exact (h t (List.mem_of_getElem? ht)).next? hq hopened

/-- A moment comes, timers that are due run, and one request is answered. -/
theorem driveOnDisk_bind (clock : StateM Volume Instant) (id : TaskId) (fuel : Nat) (g : Gateway)
    (transfer : Transfer) :
    g.driveOnDisk clock id (fuel + 1) transfer = clock >>= fun now =>
      let ready := (g.advanceTo now).fireDue
      match ready.pending? (ready.nextTask id) with
      | none => pure (ready, transfer)
      | some p => CommandLine.answer p.request transfer >>= fun answered =>
        (p.resume answered.1).driveOnDisk clock id fuel answered.2 := by
  funext v
  simp only [driveOnDisk, drive, bind, StateT.bind, stateM_pure]
  generalize clock v = moment
  obtain ⟨now, v'⟩ := moment
  simp only
  generalize (g.advanceTo now).fireDue = ready
  cases ready.pending? (ready.nextTask id) <;> rfl

/-- A gateway that is driven on the disk is blind to what is under a veil, if the clock is. -/
theorem blind_drive {clock : StateM Volume Instant} (hclock : Blind z clock fun _ => True)
    (id : TaskId) (fuel : Nat) (h : g.Sees z) {transfer : Transfer} (ht : transfer.Sees z) :
    Blind z (g.driveOnDisk clock id fuel transfer) fun r => r.1.Sees z ∧ r.2.Sees z := by
  induction fuel generalizing g transfer with
  | zero => exact .pure ⟨h, ht⟩
  | succ fuel ih =>
    rw [driveOnDisk_bind]
    refine hclock.bind fun now _ => ?_
    have hready : (g.advanceTo now).fireDue.Sees z := Sees.fireDue h
    simp only
    generalize (g.advanceTo now).fireDue = ready at hready ⊢
    cases hp : ready.pending? (ready.nextTask id) with
    | none => exact .pure ⟨hready, ht⟩
    | some p =>
      exact (CommandLine.blind_answer (hready.request hp) ht).bind fun answered hanswered =>
        ih (hready.resume hp hanswered.1) hanswered.2

end Gateway

end FileGateway

import FileGateway.Proofs.Lease.Exclusion
import FileGateway.Proofs.Operation.Write

/-!
# Who gives a lease up

In any scene, whatever its world answers, a lease is released just if a task has begun to give it
up, and then it is one task and no other (`Scene.SurrenderedOnce`). A lease is given up by whoever
was asked to release it, by the write that made it, or by its timer: `Gateway.leaseOp_of_call` and
`Gateway.leaseOp_of_fire` say which lease operations come from outside, so that of a lease that
nobody else knows it can be told who that one task is.
-/

namespace FileGateway

/-- The lease that a call acquires or releases. -/
def Call.lease? : Call → Option LeaseId
  | acquire lease _ _ _ => some lease
  | release lease _ => some lease
  | _ => none

/-- The lease that somebody is asked to acquire or release. -/
def Event.lease? : Event → Option LeaseId
  | .call c => c.lease?
  | _ => none

/-- What a task that has gone on was doing about a lease. -/
def Entry.leaseOp? : Entry → Option (TaskId × LeaseOp)
  | .resumed i t _ => t.leaseOp?.map fun d => (i, d)
  | .served _ _ _ => none

/-! ## Lease operations that come from outside -/

namespace Gateway

theorem leaseOps_of_add (g : Gateway) (task : Task) (s : Shared) :
    (g.add task s).2.leaseOps g.tasks.length = task.leaseOp? := by
  rw [leaseOps_add, Function.update_self]

theorem leaseOps_of_operate (g : Gateway) (deployment : Deployment) (key : ConnectionKey)
    (action : Action) (path : Path) :
    (g.operate deployment key action path).2.leaseOps g.tasks.length = none := by
  simp only [operate]
  split
  · exact g.leaseOps_of_add _ _
  · next handle _ =>
    -- an operation starts by resolving its path
    refine (g.leaseOps_of_add _ _).trans (Task.leaseOp?_of_operation ?_ (write?_start _ _ _ _))
    cases (Operation.start action handle path _).1 <;> rfl

/-- Only whoever is asked to acquire or release a lease begins with a lease operation, about that
lease. -/
theorem leaseOp_of_call {g : Gateway} {call : Call} {d : LeaseOp}
    (h : (g.call call).leaseOps g.tasks.length = some d) : call.lease? = some d.lease := by
  cases call with
  | addLease target =>
    rw [leaseOps, task?, tasks_addLease, ← task?, task?_length] at h
    cases h
  | acquire lease backend options expiry =>
    replace h := (g.leaseOps_of_add _ _).symm.trans h
    rw [Task.leaseOp?_ofAcquire] at h
    obtain ⟨place, -, rfl⟩ := Option.map_eq_some_iff.1 h
    rfl
  | release lease strict =>
    replace h := (g.leaseOps_of_add _ _).symm.trans h
    rw [Task.leaseOp?_ofRelease] at h
    obtain ⟨place, -, rfl⟩ := Option.map_eq_some_iff.1 h
    rfl
  | resolve handle path =>
    have hleaseOp : ∀ step, (Task.ofStep .resolving .resolved step).leaseOp? = none := by
      intro step
      cases step <;> rfl
    cases (hleaseOp _).symm.trans ((g.leaseOps_of_add _ _).symm.trans h)
  | operate deployment key action path =>
    cases (g.leaseOps_of_operate deployment key action path).symm.trans h
  | create creation =>
    simp only [call, create] at h
    split at h
    · cases (leaseOps_of_add _ _ _).symm.trans h
    · cases g.leaseOps_length.symm.trans h
  | close handle => cases (g.leaseOps_of_add _ _).symm.trans h
  | shutdown space =>
    have hleaseOp : ∀ (count : Nat) ids, (Task.ofEvicted count ids).leaseOp? = none := by
      intro count ids
      cases ids <;> rfl
    cases (hleaseOp _ _).symm.trans ((g.leaseOps_of_add _ _).symm.trans h)

/-- A timer gives its lease up by force, if it is not too late. -/
theorem leaseOp_of_fire {g : Gateway} {id : LeaseId} {d : LeaseOp}
    (h : (g.fire id).leaseOps g.tasks.length = some d) : d = .surrender ⟨id, true⟩ .taking := by
  have hnone : ∀ s, leaseOps ⟨s, g.tasks⟩ g.tasks.length ≠ some d := fun s hs => by
    cases g.leaseOps_length.symm.trans hs
  unfold fire at h
  split at h
  · exact absurd h (hnone _)
  · split at h
    · split at h
      · exact (Option.some.inj ((g.leaseOps_of_add _ _).symm.trans h)).symm
      · exact absurd h (hnone _)
    · exact absurd h (hnone _)

end Gateway

/-! ## What a lease keeps for good -/

/-- A lease is on the same target in both states, by way of the same marker. -/
def Shared.Retains (s s' : Shared) (id : LeaseId) : Prop :=
  ∀ l, s.lease? id = some l →
    ∃ l', s'.lease? id = some l' ∧ l'.target = l.target ∧ l'.marker = l.marker

namespace Shared.Retains

variable {s s' s'' : Shared} {id n : LeaseId}

theorem of_leases (h : s'.leases = s.leases) : s.Retains s' id :=
  fun l hl => ⟨l, by rw [lease?, h]; exact hl, rfl, rfl⟩

theorem trans (h : s.Retains s' id) (h' : s'.Retains s'' id) : s.Retains s'' id := by
  intro l hl
  obtain ⟨l', hl', htarget, hmarker⟩ := h l hl
  obtain ⟨l'', hl'', htarget', hmarker'⟩ := h' l' hl'
  exact ⟨l'', hl'', htarget'.trans htarget, hmarker'.trans hmarker⟩

theorem modify {f : Lease → Lease} (h : s'.leases = s.leases.modify n f)
    (hf : ∀ l, (f l).target = l.target ∧ (f l).marker = l.marker) : s.Retains s' id := by
  intro l hl
  have hl' : s'.lease? id = if n = id then (s.lease? id).map f else s.lease? id := by
    rw [lease?, h]
    exact lease?_modifyLease s n id f
  rw [hl', hl]
  split
  · exact ⟨f l, rfl, hf l⟩
  · exact ⟨l, rfl, rfl, rfl⟩

theorem append {lease : Lease} (h : s'.leases = s.leases ++ [lease]) : s.Retains s' id := by
  intro l hl
  have hlt : id < s.leases.length := (List.getElem?_eq_some_iff.1 hl).1
  refine ⟨l, ?_, rfl, rfl⟩
  rw [lease?, h, List.getElem?_append_left hlt]
  exact hl

theorem of_begins {d : Option LeaseOp} (h : Begins s d s') : s.Retains s' id := by
  cases h with
  | nothing agrees => exact of_leases agrees.leases
  | lease target lease fresh agrees => exact append agrees.leases
  | attempt a l found idle marker agrees => exact modify agrees.leases fun _ => ⟨rfl, rfl⟩
  | acquisition target lease a fresh number marker agrees =>
    have hmade : s.Retains (s.addLease lease).2 id := append rfl
    exact hmade.trans (modify agrees.leases fun _ => ⟨rfl, rfl⟩)
  | surrender r l timer found active agrees => exact modify agrees.leases fun _ => ⟨rfl, rfl⟩
  | late n l found inactive agrees => exact modify agrees.leases fun _ => ⟨rfl, rfl⟩

theorem of_moves {writer : Diagnostics} {d : LeaseOp} {reply : Reply}
    {step : Step LeaseOp LeaseOp.Ending}
    (h : d.Moves writer s reply step s') : s.Retains s' id := by
  refine modify h.leases fun l => ?_
  cases d with
  | acquire a place => cases place <;> exact ⟨rfl, rfl⟩
  | surrender r place => cases place <;> exact ⟨rfl, rfl⟩

end Shared.Retains

/-- An idle lease stays idle unless its acquisition begins. -/
theorem Begins.idle_stage {s s' : Shared} {new : Option LeaseOp} (h : Begins s new s') {n : LeaseId}
    (hidle : s.stage? n = some .idle)
    (hnew : ∀ a, new = some (.acquire a .resolving) → a.lease ≠ n) : s'.stage? n = some .idle := by
  have hadd : ∀ lease, (s.addLease lease).2.stage? n = some .idle := by
    intro lease
    rcases Shared.stage?_addLease (s := s) (l := lease) n with hsame | ⟨hnone, -⟩
    · exact hsame.trans hidle
    · rw [hnone] at hidle
      cases hidle
  cases h with
  | nothing agrees => exact (agrees.stage? n).trans hidle
  | lease target lease fresh agrees => exact (agrees.stage? n).trans (hadd lease)
  | attempt a l found idle marker agrees =>
    rw [agrees.stage?, Shared.stage?_modifyLease found, if_neg (hnew a rfl)]
    exact hidle
  | acquisition target lease a fresh number marker agrees =>
    have hfound : (s.addLease lease).2.lease? a.lease = some lease := by
      simp [Shared.addLease, Shared.lease?, number]
    rw [agrees.stage?, Shared.stage?_modifyLease hfound, if_neg (hnew a rfl)]
    exact hadd lease
  | surrender r l timer found active agrees =>
    rw [agrees.stage?, Shared.stage?_modifyLease found]
    split
    · next hn =>
      rw [← hn, Shared.stage?, found] at hidle
      cases active.symm.trans (Option.some.inj hidle)
    · exact hidle
  | late id l found inactive agrees =>
    rw [agrees.stage?, Shared.stage?_modifyLease found]
    split
    · next hn =>
      rw [← hn, Shared.stage?, found] at hidle
      exact hidle
    · exact hidle

/-! ## Lease operations that begin with an answer -/

namespace Task

/-- A task that has no lease operation is an operation, and stays one. -/
theorem isOperation_resume {t : Task} (h : t.leaseOp? = none) {s : Shared}
    {p : Pending (Shared → Task × Shared)} (hp : t.next? s = some p) (answer : p.request.Answer) :
    (p.resume answer s).1.isOperation = true := by
  cases t with
  | operating id place =>
    cases hp
    simp only [Pending.map]
    cases ((Operation.next id s.writer place).resume answer s).1 <;> rfl
  | resolving r =>
    cases hp
    simp only [Pending.map]
    cases (r.next.resume answer s).1 <;> rfl
  | closing id background =>
    cases hp
    rfl
  | evicting id rest count =>
    cases hp
    cases rest <;> rfl
  | acquiring a place => cases h
  | releasing lease marker strict place => cases h
  | expiring lease place => cases h
  | finished result => cases hp

/-- A task without a lease operation begins one only if it has made a lease, which it acquires, or
if it has copied into a file under a lease, which it gives up. -/
theorem begins_leaseOp {t : Task} (h : t.leaseOp? = none) {s : Shared}
    {p : Pending (Shared → Task × Shared)} (hp : t.next? s = some p) {answer : p.request.Answer}
    {d : LeaseOp} (hd : (p.resume answer s).1.leaseOp? = some d) :
    (∃ a, d = .acquire a .resolving ∧ a.lease = s.leases.length) ∨
      ∃ id target place, d = .surrender ⟨id, false⟩ .taking ∧
        t.write? = some (target, .copying (some id) place) := by
  cases hw : t.write? with
  | none =>
    rcases begins_of_no_write hw hp answer with hnone | ⟨id, target, place, heq, hbegins⟩
    · rw [leaseOp?_of_operation (isOperation_resume h hp answer) hnone] at hd
      cases hd
    · rw [heq] at hd
      generalize (p.resume answer s).2.leases = leases at hbegins
      cases hbegins with
      | locks a lease fresh id marker backend =>
        cases hd
        exact .inl ⟨a, rfl, id⟩
      | opens => cases hd
  | some write =>
    obtain ⟨target, place⟩ := write
    obtain ⟨id, rfl⟩ := eq_of_write? hw
    obtain ⟨step, s', hgoes, heq⟩ := goes_of_write hp answer
    rw [heq, leaseOp?_ofOperation, Operation.leaseOp?_writeStep] at hd
    generalize (⟨p.request, answer⟩ : Reply) = reply at hgoes
    cases hgoes with
    | unlocks id l p reply result move found active =>
      cases hd
      exact .inr ⟨id, target, p, rfl, rfl⟩
    | copies lease p p' reply move => cases hd
    | copied p reply result move => cases hd
    | lost id p reply result move gone => cases hd
    | _ => cases h

end Task

namespace Scene

variable {ε : Type} {w : World ε} {c c' : Scene ε} {id : LeaseId} {i j : TaskId} {d : LeaseOp}

/-! ## Steps -/

/-- What an event changes, as `Changes` has it, and what can begin with it: something about the
lease that the event is about, or the giving up of a lease by its timer. -/
inductive Steps (w : World ε) (c : Scene ε) (e : Event) : Scene ε → Prop where
  | nothing : Steps w c e c
  | starts (new : Option LeaseOp) (g : Gateway)
      (starts : c.gateway.Starts c.gateway.tasks.length new g) (grows : c.gateway.Grows g)
      (begins : ∀ d, new = some d →
        e.lease? = some d.lease ∨ ∃ id, d = .surrender ⟨id, true⟩ .taking) :
    Steps w c e { c with gateway := g }
  | serves (k : TaskId) (t : Task) (p : Pending Gateway) (task : c.gateway.task? k = some t)
      (pending : c.gateway.pending? k = some p) (inbox : c.inbox k = none) :
    Steps w c e
      { c with
        world := (w.answer k p.request c.world).2
        inbox := Function.update c.inbox k (some ⟨p.request, (w.answer k p.request c.world).1⟩)
        history := .served k t ⟨p.request, (w.answer k p.request c.world).1⟩ :: c.history }
  | resumes (k : TaskId) (t : Task) (p : Pending Gateway) (answer : p.request.Answer)
      (task : c.gateway.task? k = some t) (pending : c.gateway.pending? k = some p)
      (inbox : c.inbox k = some ⟨p.request, answer⟩) :
    Steps w c e
      { c with
        gateway := p.resume answer
        inbox := Function.update c.inbox k none
        history := .resumed k t ⟨p.request, answer⟩ :: c.history }

theorem steps_step (w : World ε) (c : Scene ε) (e : Event) : Steps w c e (c.step w e) := by
  cases e with
  | call call =>
    obtain ⟨new, h⟩ := c.gateway.starts_call call
    refine .starts new _ h (c.gateway.grows_call call) fun d hd => .inl ?_
    refine Gateway.leaseOp_of_call (g := c.gateway) ?_
    rw [h.leaseOps, Function.update_self, hd]
  | fire lease =>
    obtain ⟨new, h⟩ := c.gateway.starts_fire lease
    refine .starts new _ h (c.gateway.grows_fire lease) fun d hd => .inr ⟨lease, ?_⟩
    refine Gateway.leaseOp_of_fire (g := c.gateway) ?_
    rw [h.leaseOps, Function.update_self, hd]
  | advance now =>
    exact .starts none _ (Gateway.starts_shared (.nothing ⟨rfl, rfl⟩)) (.inl rfl) nofun
  | serve k =>
    simp only [step, serve]
    split
    · next t p ht hp hin => exact .serves k t p ht hp hin
    · exact .nothing
  | deliver k =>
    simp only [step, deliver]
    split
    · next t p request answer ht hp hin =>
      split
      · next hrequest =>
        subst hrequest
        exact .resumes k t p answer ht hp hin
      · exact .nothing
    · exact .nothing

theorem Steps.changes {e : Event} (h : Steps w c e c') : Changes w c c' := by
  cases h with
  | nothing => exact .nothing
  | starts new g starts grows begins => exact .starts new g starts grows
  | serves k t p task pending inbox => exact .serves k t p task pending inbox
  | resumes k t p answer task pending inbox => exact .resumes k t p answer task pending inbox

/-- The leases change as something begins, or by the move of a lease operation. -/
theorem Steps.leases {e : Event} (h : Steps w c e c') :
    c'.gateway = c.gateway ∨
      (∃ new, Begins c.gateway.shared new c'.gateway.shared ∧
        ∀ d, new = some d → e.lease? = some d.lease ∨ (∃ id, d = .surrender ⟨id, true⟩ .taking) ∨
          (∃ a, d = .acquire a .resolving ∧ a.lease = c.gateway.shared.leases.length) ∨
          ∃ id, d = .surrender ⟨id, false⟩ .taking) ∨
      ∃ k old reply, c.gateway.Goes k old reply c'.gateway := by
  cases h with
  | nothing => exact .inl rfl
  | serves => exact .inl rfl
  | starts new g starts grows begins =>
    exact .inr (.inl ⟨new, starts.begins, fun d hd => (begins d hd).imp id .inl⟩)
  | resumes k t p answer task pending inbox =>
    obtain ⟨t₀, q, ht₀, hq, -, rfl⟩ := Gateway.pending?_eq pending
    rw [task] at ht₀
    cases ht₀
    cases hd : t.leaseOp? with
    | some old =>
      exact .inr (.inr ⟨k, old, _,
        Gateway.goes_resume ((Gateway.leaseOps_eq task).trans hd) pending answer⟩)
    | none =>
      refine .inr (.inl ⟨_, Task.begins_of_no_leaseOp hd hq answer, fun d hnew => .inr (.inr ?_)⟩)
      rcases Task.begins_leaseOp hd hq hnew with hlocks | ⟨id, _, _, hunlocks, -⟩
      · exact .inl hlocks
      · exact .inr ⟨id, hunlocks⟩

/-- Whatever happens, a lease is about the same target for good. -/
theorem Steps.retains {e : Event} (h : Steps w c e c') (id : LeaseId) :
    c.gateway.shared.Retains c'.gateway.shared id := by
  rcases h.leases with hsame | ⟨new, hbegins, -⟩ | ⟨k, old, reply, hgoes⟩
  · exact .of_leases (by rw [hsame])
  · exact .of_begins hbegins
  · obtain ⟨step, s, hm, ha, -⟩ := hgoes.moves
    exact (Shared.Retains.of_moves hm).trans (.of_leases ha.leases)

/-- An idle lease stays idle until somebody is asked to acquire it. -/
theorem Steps.idle {e : Event} (h : Steps w c e c') (ho : c.InOrder)
    (hidle : c.gateway.shared.stage? id = some .idle) (he : e.lease? ≠ some id) :
    c'.gateway.shared.stage? id = some .idle := by
  rcases h.leases with hsame | ⟨new, hbegins, hnew⟩ | ⟨k, old, reply, hgoes⟩
  · rw [hsame]
    exact hidle
  · refine hbegins.idle_stage hidle fun a ha hid => ?_
    rcases hnew _ ha with hasked | ⟨n, hforced⟩ | ⟨a', hlocks, hnumber⟩ | ⟨n, hunlocks⟩
    · exact he (hid ▸ hasked)
    · cases hforced
    · -- a write acquires a lease that it has just made
      cases hlocks
      rw [← hid, hnumber] at hidle
      simp [Shared.stage?, Shared.lease?] at hidle
    · cases hunlocks
  · obtain ⟨step, s, hm, ha, -⟩ := hgoes.moves
    obtain ⟨l, hl, hfits⟩ := ho.leases.fits k old hgoes.leaseOp
    have hstage := hm.stage hl hfits id
    rw [hidle, ← ha.stage?] at hstage
    generalize c'.gateway.shared.stage? id = after at hstage
    cases hstage with
    | same => rfl

/-- A lease that is active or released stays one of the two. -/
theorem Steps.late {e : Event} (h : Steps w c e c') (ho : c.InOrder)
    (hlate : c.gateway.shared.stage? id = some .active ∨
      c.gateway.shared.stage? id = some .released) :
    c'.gateway.shared.stage? id = some .active ∨ c'.gateway.shared.stage? id = some .released := by
  rcases h.leases with hsame | ⟨new, hbegins, -⟩ | ⟨k, old, reply, hgoes⟩
  · rw [hsame]
    exact hlate
  · have hstage := hbegins.stage id
    revert hstage hlate
    generalize c.gateway.shared.stage? id = before
    generalize c'.gateway.shared.stage? id = after
    intro hlate hstage
    cases hstage with
    | same => exact hlate
    | made => simp at hlate
    | attempted => simp at hlate
    | givenUp => exact .inr rfl
  · obtain ⟨step, s, hm, ha, -⟩ := hgoes.moves
    obtain ⟨l, hl, hfits⟩ := ho.leases.fits k old hgoes.leaseOp
    rw [ha.stage?, (hm.stage hl hfits id).late hlate]
    exact hlate

/-- A lease that was released stays so. -/
theorem Steps.released {e : Event} (h : Steps w c e c') (ho : c.InOrder)
    (hreleased : c.gateway.shared.stage? id = some .released) :
    c'.gateway.shared.stage? id = some .released := by
  rcases h.leases with hsame | ⟨new, hbegins, -⟩ | ⟨k, old, reply, hgoes⟩
  · rw [hsame]
    exact hreleased
  · have hstage := hbegins.stage id
    rw [hreleased] at hstage
    generalize c'.gateway.shared.stage? id = after at hstage
    cases hstage with
    | same => rfl
  · obtain ⟨step, s, hm, ha, -⟩ := hgoes.moves
    obtain ⟨l, hl, hfits⟩ := ho.leases.fits k old hgoes.leaseOp
    rw [ha.stage?]
    exact (hm.stage hl hfits id).released.2 hreleased

/-! ## What tasks do and have done -/

/-- A task does something about a lease, or has done so. -/
def Undertakes (c : Scene ε) (i : TaskId) (d : LeaseOp) : Prop :=
  c.gateway.leaseOps i = some d ∨ ∃ e ∈ c.history, e.leaseOp? = some (i, d)

/-- A task gives a lease up, or has done so: by force if it is the timer. -/
def GivesUp (c : Scene ε) (id : LeaseId) (i : TaskId) (forced : Bool) : Prop :=
  ∃ place, c.Undertakes i (.surrender ⟨id, forced⟩ place)

theorem undertakes_of_same (hleaseOps : c'.gateway.leaseOps = c.gateway.leaseOps)
    (hpast : (∃ e ∈ c'.history, e.leaseOp? = some (i, d)) ↔
      ∃ e ∈ c.history, e.leaseOp? = some (i, d)) :
    c'.Undertakes i d ↔ c.Undertakes i d := by
  rw [Undertakes, Undertakes, hleaseOps, hpast]

/-- What an entry that is about no lease operation adds to the history does not count. -/
theorem past_cons {e : Entry} {history : List Entry} (h : e.leaseOp? = none) :
    (∃ e' ∈ e :: history, e'.leaseOp? = some (i, d)) ↔
      ∃ e' ∈ history, e'.leaseOp? = some (i, d) := by
  constructor
  · rintro ⟨e', hmem, he'⟩
    rcases List.mem_cons.1 hmem with rfl | hmem
    · rw [h] at he'
      cases he'
    · exact ⟨e', hmem, he'⟩
  · rintro ⟨e', hmem, he'⟩
    exact ⟨e', List.mem_cons_of_mem e hmem, he'⟩

theorem leaseOp?_resumed {t : Task} {reply : Reply} (h : t.leaseOp? = none) :
    (Entry.resumed i t reply).leaseOp? = none := by
  rw [Entry.leaseOp?, h]
  rfl

/-- A lease operation that begins is undertaken, and whatever was undertaken before. -/
theorem undertakes_of_starts {new : Option LeaseOp} (hs : c.gateway.Starts j new c'.gateway)
    (hpast : (∃ e ∈ c'.history, e.leaseOp? = some (i, d)) ↔
      ∃ e ∈ c.history, e.leaseOp? = some (i, d)) :
    c'.Undertakes i d ↔ c.Undertakes i d ∨ i = j ∧ new = some d := by
  rw [Undertakes, Undertakes, hs.leaseOps, hpast]
  by_cases hi : i = j
  · subst hi
    simp [hs.idle, or_comm]
  · simp [hi]

/-- Whoever gives a lease up after a move has given it up before. -/
theorem givesUp_of_goes {t : Task} {reply : Reply} {forced : Bool} {old : LeaseOp}
    (hg : c.gateway.Goes j old reply c'.gateway) (ht : t.leaseOp? = some old)
    (hhistory : c'.history = .resumed j t reply :: c.history) :
    c'.GivesUp id i forced ↔ c.GivesUp id i forced := by
  obtain ⟨step, s, hm, -, hleaseOps⟩ := hg.moves
  constructor
  · rintro ⟨place, hnow | ⟨e, hmem, he⟩⟩
    · rw [hleaseOps] at hnow
      by_cases hi : i = j
      · -- the lease operation goes on as it has begun
        subst hi
        rw [Function.update_self] at hnow
        cases step with
        | done ending => cases hnow
        | paused next =>
          cases hnow
          cases hm <;> exact ⟨_, .inl hg.leaseOp⟩
      · rw [Function.update_of_ne hi] at hnow
        exact ⟨place, .inl hnow⟩
    · rw [hhistory] at hmem
      rcases List.mem_cons.1 hmem with rfl | hmem
      · rw [Entry.leaseOp?, ht] at he
        cases he
        exact ⟨place, .inl hg.leaseOp⟩
      · exact ⟨place, .inr ⟨e, hmem, he⟩⟩
  · rintro ⟨place, hnow | ⟨e, hmem, he⟩⟩
    · by_cases hi : i = j
      · subst hi
        rw [hg.leaseOp] at hnow
        cases hnow
        refine ⟨place, .inr ⟨.resumed i t reply, hhistory ▸ List.mem_cons_self, ?_⟩⟩
        rw [Entry.leaseOp?, ht]
        rfl
      · refine ⟨place, .inl ?_⟩
        rw [hleaseOps, Function.update_of_ne hi]
        exact hnow
    · exact ⟨place, .inr ⟨e, hhistory ▸ List.mem_cons_of_mem _ hmem, he⟩⟩

/-- What begins to give a lease up, in a step. -/
inductive Surrenders (c : Scene ε) (e : Event) (id : LeaseId) (k : TaskId) (c' : Scene ε) :
    Bool → Prop where
  | asked (asked : e.lease? = some id) (forced : Bool) : Surrenders c e id k c' forced
  | timer : Surrenders c e id k c' true
  | copied (t : Task) (reply : Reply) (target : Write.Target) (place : Copy.Place)
      (task : c.gateway.task? k = some t)
      (resumed : c'.history = .resumed k t reply :: c.history)
      (copying : t.write? = some (target, .copying (some id) place)) : Surrenders c e id k c' false

/-- Whoever gives a lease up has done so before, or begins to. -/
theorem Steps.givesUp {e : Event} (h : Steps w c e c') {forced : Bool} :
    c'.GivesUp id i forced ↔ c.GivesUp id i forced ∨
      (∃ place, c'.gateway.leaseOps i = some (.surrender ⟨id, forced⟩ place)) ∧
        Surrenders c e id i c' forced := by
  have hnow : (∃ place, c'.gateway.leaseOps i = some (.surrender ⟨id, forced⟩ place)) →
      c'.GivesUp id i forced := fun ⟨place, hleaseOp⟩ => ⟨place, .inl hleaseOp⟩
  -- if all that begins is `new`, it decides
  have hbegins : ∀ {j new}, c.gateway.Starts j new c'.gateway →
      (∀ i d, (∃ e ∈ c'.history, e.leaseOp? = some (i, d)) ↔
        ∃ e ∈ c.history, e.leaseOp? = some (i, d)) →
      (∀ place, i = j → new = some (.surrender ⟨id, forced⟩ place) →
        Surrenders c e id i c' forced) →
      (c'.GivesUp id i forced ↔ c.GivesUp id i forced ∨
        (∃ place, c'.gateway.leaseOps i = some (.surrender ⟨id, forced⟩ place)) ∧
          Surrenders c e id i c' forced) := by
    intro j new hs hpast hparts
    constructor
    · rintro ⟨place, hgives⟩
      rcases (undertakes_of_starts hs (hpast _ _)).1 hgives with hbefore | ⟨rfl, hnew⟩
      · exact .inl ⟨place, hbefore⟩
      · refine .inr ⟨⟨place, ?_⟩, hparts place rfl hnew⟩
        rw [hs.leaseOps, Function.update_self, hnew]
    · rintro (⟨place, hbefore⟩ | ⟨hleaseOp, -⟩)
      · exact ⟨place, (undertakes_of_starts hs (hpast _ _)).2 (.inl hbefore)⟩
      · exact hnow hleaseOp
  cases h with
  | nothing => exact (or_iff_left_of_imp fun hor => hnow hor.1).symm
  | starts new g starts grows begins =>
    refine hbegins starts (fun _ _ => .rfl) fun place _ hnew => ?_
    rcases begins _ hnew with hasked | ⟨_, hforced⟩
    · exact .asked hasked forced
    · cases hforced
      exact .timer
  | serves k t p task pending inbox =>
    refine Iff.trans (exists_congr fun place => undertakes_of_same (c := c) rfl (past_cons rfl)) ?_
    exact (or_iff_left_of_imp fun hor => hor.1.imp fun _ => .inl).symm
  | resumes k t p answer task pending inbox =>
    cases hd : c.gateway.leaseOps k with
    | some old =>
      have htd : t.leaseOp? = some old := (Gateway.leaseOps_eq task).symm.trans hd
      refine Iff.trans (givesUp_of_goes (Gateway.goes_resume hd pending answer) htd rfl) ?_
      refine (or_iff_left_of_imp fun hor => ?_).symm
      exact (givesUp_of_goes (Gateway.goes_resume hd pending answer) htd rfl).1 (hnow hor.1)
    | none =>
      obtain ⟨new, starts⟩ := Gateway.starts_resume hd pending answer
      have htd : t.leaseOp? = none := (Gateway.leaseOps_eq task).symm.trans hd
      refine hbegins starts (fun _ _ => past_cons (leaseOp?_resumed htd)) fun place hik hnew => ?_
      subst hik
      -- the task begins this lease operation as its copy ends
      have hafter : (p.resume answer).leaseOps i = some (.surrender ⟨id, forced⟩ place) := by
        rw [starts.leaseOps, Function.update_self, hnew]
      obtain ⟨t₀, q, ht₀, hq, -, rfl⟩ := Gateway.pending?_eq pending
      rw [task] at ht₀
      cases ht₀
      simp only [Pending.map, Gateway.leaseOps_set task, Function.update_self] at hafter
      rcases Task.begins_leaseOp htd hq hafter with
        ⟨a, hlocks, -⟩ | ⟨n, target, p, hunlocks, hcopying⟩
      · cases hlocks
      · cases hunlocks
        exact .copied t _ target p task rfl hcopying

/-! ## One task for each lease that is released -/

/-- A lease is released just if a task has begun to give it up, and that is one task. -/
structure SurrenderedOnce (c : Scene ε) : Prop where
  released : ∀ id, c.gateway.shared.stage? id = some .released ↔ ∃ i forced, c.GivesUp id i forced
  single : ∀ id i j forced forced', c.GivesUp id i forced → c.GivesUp id j forced' →
    i = j ∧ forced = forced'

theorem surrenderedOnce_start (writer : Diagnostics) (world : ε) :
    (start writer world).SurrenderedOnce := by
  have hnone : ∀ id i forced, ¬ (start writer world).GivesUp id i forced := by
    rintro id i forced ⟨place, h | ⟨e, hmem, -⟩⟩
    · cases h
    · cases hmem
  constructor
  · intro id
    exact iff_of_false nofun fun ⟨i, forced, h⟩ => hnone id i forced h
  · intro id i j forced forced' h
    exact absurd h (hnone id i forced)

/-- Something begins: if a lease is given up, it was active, so nobody has given it up before. -/
theorem SurrenderedOnce.starts (h : c.SurrenderedOnce) {new : Option LeaseOp}
    (hs : c.gateway.Starts j new c'.gateway)
    (hpast : ∀ i d, (∃ e ∈ c'.history, e.leaseOp? = some (i, d)) ↔
      ∃ e ∈ c.history, e.leaseOp? = some (i, d)) : c'.SurrenderedOnce := by
  have hgives : ∀ id i forced, c'.GivesUp id i forced ↔ c.GivesUp id i forced ∨
      i = j ∧ ∃ place, new = some (.surrender ⟨id, forced⟩ place) := by
    intro id i forced
    simp only [GivesUp, undertakes_of_starts hs (hpast _ _), exists_or, exists_and_left]
  have hfirst : ∀ id i forced forced' place, new = some (.surrender ⟨id, forced'⟩ place) →
      ¬ c.GivesUp id i forced := by
    intro id i forced forced' place hnew hgave
    have hactive := (hs.begins.gives_up (n := id) ⟨_, place, hnew, rfl⟩).1
    rw [(h.released id).2 ⟨i, forced, hgave⟩] at hactive
    cases hactive
  constructor
  · intro id
    by_cases hnew : FileGateway.GivesUp new id
    · obtain ⟨⟨lease, forced⟩, place, heq, rfl⟩ := hnew
      refine iff_of_true (hs.begins.gives_up ⟨_, place, heq, rfl⟩).2 ⟨j, forced, ?_⟩
      exact (hgives _ _ _).2 (.inr ⟨rfl, place, heq⟩)
    · rw [hs.begins.late_stage hnew (.inr rfl), h.released id]
      constructor
      · rintro ⟨i, forced, hgave⟩
        exact ⟨i, forced, (hgives _ _ _).2 (.inl hgave)⟩
      · rintro ⟨i, forced, hgave⟩
        rcases (hgives _ _ _).1 hgave with hgave | ⟨-, place, heq⟩
        · exact ⟨i, forced, hgave⟩
        · exact absurd ⟨_, place, heq, rfl⟩ hnew
  · intro id i i' forced forced' hi hi'
    rcases (hgives _ _ _).1 hi with hi | ⟨rfl, place, heq⟩ <;>
      rcases (hgives _ _ _).1 hi' with hi' | ⟨rfl, place', heq'⟩
    · exact h.single id i i' forced forced' hi hi'
    · exact absurd hi (hfirst id i forced forced' place' heq')
    · exact absurd hi' (hfirst id i' forced' forced place heq)
    · rw [heq] at heq'
      cases heq'
      exact ⟨rfl, rfl⟩

theorem SurrenderedOnce.changes (h : c.SurrenderedOnce) (ho : c.InOrder) (hc : Changes w c c') :
    c'.SurrenderedOnce := by
  cases hc with
  | nothing => exact h
  | starts new g starts grows => exact h.starts (j := c.gateway.tasks.length) starts fun _ _ => .rfl
  | serves k t p task pending inbox =>
    have hgives : ∀ id i forced, GivesUp { c with
        world := (w.answer k p.request c.world).2
        inbox := Function.update c.inbox k (some ⟨p.request, (w.answer k p.request c.world).1⟩)
        history := .served k t ⟨p.request, (w.answer k p.request c.world).1⟩ :: c.history }
        id i forced ↔ c.GivesUp id i forced := fun id i forced =>
      exists_congr fun place => undertakes_of_same rfl (past_cons rfl)
    constructor
    · intro id
      simp only [hgives]
      exact h.released id
    · intro id i j forced forced'
      simp only [hgives]
      exact h.single id i j forced forced'
  | resumes k t p answer task pending inbox =>
    cases hd : c.gateway.leaseOps k with
    | none =>
      obtain ⟨new, starts⟩ := Gateway.starts_resume hd pending answer
      have htd : t.leaseOp? = none := (Gateway.leaseOps_eq task).symm.trans hd
      exact h.starts (j := k) starts fun _ _ => past_cons (leaseOp?_resumed htd)
    | some old =>
      have hgoes := Gateway.goes_resume hd pending answer
      have htd : t.leaseOp? = some old := (Gateway.leaseOps_eq task).symm.trans hd
      have hgives : ∀ id i forced, GivesUp { c with
          gateway := p.resume answer
          inbox := Function.update c.inbox k none
          history := .resumed k t ⟨p.request, answer⟩ :: c.history } id i forced ↔
          c.GivesUp id i forced := fun id i forced => givesUp_of_goes hgoes htd rfl
      constructor
      · intro id
        simp only [hgives]
        obtain ⟨step, s, hm, ha, -⟩ := hgoes.moves
        obtain ⟨l, hl, hfits⟩ := ho.leases.fits k old hd
        have hstage := (hm.stage hl hfits id).released
        rw [← ha.stage? id] at hstage
        exact hstage.trans (h.released id)
      · intro id i j forced forced'
        simp only [hgives]
        exact h.single id i j forced forced'

end Scene

end FileGateway

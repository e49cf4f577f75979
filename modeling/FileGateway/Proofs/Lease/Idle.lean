import FileGateway.Proofs.Lease.Naming
import FileGateway.Proofs.Lease.Surrendering
import FileGateway.Proofs.Operation.Holding

/-!
# Idle leases are as good as new

Whatever has happened to a lease before, once it is idle nothing is left of it: the lease holds
nothing and its timer was never set (`Lease.Unspent.fresh`), no task is about it, and every ticket
that is in the queue of a guard is the ticket of somebody who acquires a lease.

So an idle lease and a new one on the same target can change places (`Scene.Tidy.exchange`), and
whatever is done with the one has the same result as if it were done with the other one.

`Scene.Tidy` is the invariant, with a lemma for what begins, one for the moves of lease operations,
and one for writes.
-/

namespace FileGateway

/-! ## Leases that were not acquired yet -/

/-- The marker of a lease is that of its target, and its timer is not set before it was acquired. -/
structure Lease.Unspent (l : Lease) : Prop where
  marker : l.target.marker? = some l.marker
  timer : l.state = .idle ∨ l.state = .acquiring → l.timer = .unset

namespace Lease

theorem unspent_of_fresh {target : Path} {l : Lease} (h : fresh target = .ok l) :
    l.target = target ∧ l.Unspent := by
  unfold fresh at h
  split at h
  · next marker hmarker =>
    cases h
    exact ⟨rfl, hmarker, fun _ => rfl⟩
  · cases h

/-- An idle lease is the one that is made for its target. -/
theorem Unspent.fresh {l : Lease} (h : l.Unspent) (hs : l.Sound) (hidle : l.state = .idle) :
    Lease.fresh l.target = .ok l := by
  have hheld := hs.idle hidle
  have htimer := h.timer (.inl hidle)
  rw [Lease.fresh, h.marker]
  cases l
  cases hidle
  cases hheld
  cases htimer
  rfl

end Lease

/-- What a lease operation makes of its lease. -/
theorem LeaseOp.Fits.unspent {d : LeaseOp} {l : Lease} (hd : d.Fits l) (h : l.Unspent)
    (now : Instant) :
    (d.change now l).Unspent := by
  have hlate : ∀ {l' : Lease}, l'.target = l.target → l'.marker = l.marker →
      l'.state = .active ∨ l'.state = .released → l'.Unspent := by
    intro l' htarget hmarker hstate
    refine ⟨by rw [htarget, hmarker]; exact h.marker, fun hearly => ?_⟩
    rcases hstate with hstate | hstate <;> simp [hstate] at hearly
  cases d with
  | acquire a place =>
    cases place with
    | holding bid => exact ⟨h.marker, h.timer⟩
    | activating bid => exact hlate rfl rfl (.inl rfl)
    | arming => exact hlate rfl rfl hd
    | retreating error => exact ⟨h.marker, fun _ => h.timer (.inr hd.1)⟩
    | _ => exact h
  | surrender r place =>
    cases place with
    | taking => exact hlate rfl rfl (.inr hd.1)
    | cancelling held => exact hlate rfl rfl (.inr hd.1)
    | removing removal => exact h

/-- A change of one lease. -/
theorem Shared.unspent_modify {s s' : Shared} {id : LeaseId} {f : Lease → Lease}
    (h : ∀ n l, s.lease? n = some l → l.Unspent) (hs : s'.leases = s.leases.modify id f)
    (hf : ∀ l, s.lease? id = some l → (f l).Unspent) :
    ∀ n l, s'.lease? n = some l → l.Unspent := by
  intro n l hl
  have hl' : (s.modifyLease id f).lease? n = some l := by
    rw [lease?, hs] at hl
    exact hl
  rw [lease?_modifyLease] at hl'
  split at hl'
  · next hn =>
    subst hn
    obtain ⟨l₀, hl₀, rfl⟩ := Option.map_eq_some_iff.1 hl'
    exact hf l₀ hl₀
  · exact h n l hl'

/-- What begins leaves the timers of leases alone that are still to be acquired: such a timer is
never due. -/
theorem Begins.unspent {s s' : Shared} {d : Option LeaseOp} (hb : Begins s d s')
    (h : ∀ n l, s.lease? n = some l → l.Unspent) : ∀ n l, s'.lease? n = some l → l.Unspent := by
  have hadd : ∀ {target lease}, Lease.fresh target = .ok lease →
      ∀ n l, (s.addLease lease).2.lease? n = some l → l.Unspent := by
    intro target lease hfresh n l hl
    rcases Shared.lease?_addLease hl with hl | rfl
    · exact h n l hl
    · exact (Lease.unspent_of_fresh hfresh).2
  cases hb with
  | nothing agrees => exact fun n l hl => h n l ((agrees.lease? n).symm.trans hl)
  | lease target lease fresh agrees =>
    exact fun n l hl => hadd fresh n l ((agrees.lease? n).symm.trans hl)
  | attempt a l found idle marker agrees =>
    refine Shared.unspent_modify h agrees.leases fun l₀ hl₀ => ?_
    rw [found] at hl₀
    cases hl₀
    exact ⟨(h _ l found).marker, fun _ => (h _ l found).timer (.inl idle)⟩
  | acquisition target lease a fresh id marker agrees =>
    refine Shared.unspent_modify (hadd fresh) agrees.leases fun l hl => ?_
    have hfound : (s.addLease lease).2.lease? a.lease = some lease := by
      simp [Shared.addLease, Shared.lease?, id]
    rw [hfound] at hl
    cases hl
    have hlease := (Lease.unspent_of_fresh fresh).2
    exact ⟨hlease.marker, fun _ => hlease.timer (.inl (Lease.state_fresh fresh).1)⟩
  | surrender r l timer found active agrees =>
    refine Shared.unspent_modify h agrees.leases fun l₀ hl₀ => ?_
    exact ⟨(h _ l₀ hl₀).marker, fun hearly => by simp at hearly⟩
  | late id l found inactive agrees armed =>
    refine Shared.unspent_modify h agrees.leases fun l₀ hl₀ => ?_
    rw [found] at hl₀
    cases hl₀
    refine ⟨(h _ l found).marker, fun hearly => ?_⟩
    obtain ⟨deadline, hset⟩ := armed
    rw [(h _ l found).timer hearly] at hset
    cases hset

/-! ## Tickets -/

/-- Every ticket in the queue of a guard is that of a lease operation. -/
def Claimed (g : Guards) (leaseOps : TaskId → Option LeaseOp) : Prop :=
  ∀ n t, t ∈ g.queue n → ∃ i d key, leaseOps i = some d ∧ d.ticket? = some (t, key)

/-- Whoever ends has left its guard. -/
theorem LeaseOp.Moves.ticketless {writer : Diagnostics} {s s' : Shared} {d : LeaseOp}
    {reply : Reply}
    {ending : Ending} (h : d.Moves writer s reply (.done ending) s') : d.ticket? = none := by
  cases h <;> rfl

namespace Claimed

variable {g : Guards} {s s' : Shared} {leaseOps : TaskId → Option LeaseOp} {i : TaskId}
  {d : LeaseOp}

/-- A ticket is still claimed if whoever has it has it still. -/
theorem of_kept {g' : Guards} {leaseOps' : TaskId → Option LeaseOp} (h : Claimed g leaseOps)
    (hqueue : ∀ n t, t ∈ g'.queue n → t ∈ g.queue n ∧ ∀ i d key, leaseOps i = some d →
      d.ticket? = some (t, key) → ∃ d', leaseOps' i = some d' ∧ d'.ticket? = some (t, key)) :
    Claimed g' leaseOps' := by
  intro n t ht
  obtain ⟨hbefore, hkept⟩ := hqueue n t ht
  obtain ⟨i, d, key, hd, hticket⟩ := h n t hbefore
  obtain ⟨d', hd', hticket'⟩ := hkept i d key hd hticket
  exact ⟨i, d', key, hd', hticket'⟩

theorem begins (h : Claimed s.guards leaseOps) (hi : leaseOps i = none) {new : Option LeaseOp}
    (hb : Begins s new s') : Claimed s'.guards (Function.update leaseOps i new) := by
  rw [hb.guards]
  refine h.of_kept fun n t ht => ⟨ht, fun j e key he hticket => ?_⟩
  have hj : j ≠ i := by
    rintro rfl
    rw [hi] at he
    cases he
  exact ⟨e, (Function.update_of_ne hj _ _).trans he, hticket⟩

theorem moves (h : Claimed s.guards leaseOps) (hw : s.guards.WellFormed) (hi : leaseOps i = some d)
    {writer : Diagnostics} {reply : Reply} {step : Step LeaseOp LeaseOp.Ending}
    (hm : d.Moves writer s reply step s') :
    Claimed s'.guards (Function.update leaseOps i step.place?) := by
  -- whoever has another ticket than the one that moves is somebody else
  have hothers : ∀ {t j e key}, leaseOps j = some e → e.ticket? = some (t, key) →
      (∀ key', d.ticket? ≠ some (t, key')) →
        ∃ e', Function.update leaseOps i step.place? j = some e' ∧ e'.ticket? = some (t, key) := by
    intro t j e key he hticket hne
    have hj : j ≠ i := by
      rintro rfl
      rw [hi] at he
      cases he
      exact hne key hticket
    exact ⟨e, (Function.update_of_ne hj _ _).trans he, hticket⟩
  have hended : ∀ ending, step = .done ending → d.ticket? = none := by
    rintro ending rfl
    exact hm.ticketless
  have hturns := hm.turns
  generalize hnew : step.place? = new at hturns hothers ⊢
  cases hturns with
  | keeps _ guards ticket turn =>
    rw [guards]
    refine h.of_kept fun n t ht => ⟨ht, fun j e key he hticket => ?_⟩
    by_cases hj : j = i
    · subst hj
      rw [hi] at he
      cases he
      cases step with
      | done ending =>
        rw [hended ending rfl] at hticket
        cases hticket
      | paused e' =>
        cases hnew
        exact ⟨e', Function.update_self _ _ _, (ticket e' rfl).1.trans hticket⟩
    · exact ⟨e, (Function.update_of_ne hj _ _).trans he, hticket⟩
  | joins e key before ticket queued guards =>
    rw [guards]
    intro n t ht
    rw [Guards.queue_arrive] at ht
    have hcases : t ∈ s.guards.queue n ∨ t = (s.guards.arrive key).1 := by
      split at ht
      · exact (List.mem_append.1 ht).imp_right List.mem_singleton.1
      · exact .inl ht
    rcases hcases with hbefore | rfl
    · obtain ⟨j, e', key', he', hticket⟩ := h n t hbefore
      obtain ⟨e'', he'', hticket''⟩ := hothers he' hticket fun _ => by
        rw [before]
        exact nofun
      exact ⟨j, e'', key', he'', hticket''⟩
    · exact ⟨i, e, key, Function.update_self _ _ _, ticket⟩
  | leaves _ t key before after guards =>
    rw [guards]
    refine h.of_kept fun n u hu => ?_
    -- a ticket that is still there is another one than the one that has left
    have hleft : u ∈ s.guards.queue n ∧ u ≠ t := by
      rw [Guards.queue_leave] at hu
      split at hu
      · exact ⟨List.mem_of_mem_erase hu, ((hw.nodup n).mem_erase_iff.1 hu).1⟩
      · next hn =>
        refine ⟨hu, ?_⟩
        rintro rfl
        exact hn (hw.own n u hu).symm
    refine ⟨hleft.1, fun j e key' he hticket => hothers he hticket fun key'' hsame => hleft.2 ?_⟩
    rw [before] at hsame
    cases hsame
    rfl

end Claimed

/-! ## Tasks that are about a lease -/

namespace Task

/-- The lease that a task is about. -/
def lease? : Task → Option LeaseId
  | acquiring a _ => some a.lease
  | releasing lease _ _ _ => some lease
  | expiring lease _ => some lease
  | operating _ (.writing _ place) => place.lease?
  | _ => none

/-- A task that is about a lease has a lease operation, or copies under the lease. -/
theorem about_lease {t : Task} {id : LeaseId} (h : t.lease? = some id) :
    (∃ d, t.leaseOp? = some d ∧ d.lease = id) ∨
      ∃ target place, t.write? = some (target, .copying (some id) place) := by
  cases t with
  | acquiring a place =>
    cases h
    exact .inl ⟨_, rfl, rfl⟩
  | releasing lease marker strict place =>
    cases h
    exact .inl ⟨_, rfl, rfl⟩
  | expiring lease place =>
    cases h
    exact .inl ⟨_, rfl, rfl⟩
  | operating handle place =>
    cases place with
    | writing target place =>
      cases place with
      | locking a place =>
        cases h
        exact .inl ⟨_, rfl, rfl⟩
      | copying lease place =>
        have hlease : lease = some id := h
        subst hlease
        exact .inr ⟨target, place, rfl⟩
      | unlocking lease marker place copied =>
        cases h
        exact .inl ⟨_, rfl, rfl⟩
    | _ => cases h
  | _ => cases h

/-- A task is not concerned if other leases get other numbers. -/
theorem rename_eq_self {π : Equiv.Perm LeaseId} {t : Task}
    (h : ∀ id, t.lease? = some id → π id = id) : t.rename π = t := by
  cases t with
  | acquiring a place => simp only [rename, Acquire.rename, h a.lease rfl]
  | releasing lease marker strict place => simp only [rename, h lease rfl]
  | expiring lease place => simp only [rename, h lease rfl]
  | operating handle place =>
    cases place with
    | writing target place =>
      cases place with
      | locking a place =>
        simp only [rename, Operation.Place.rename, Write.Place.rename, Acquire.rename,
          h a.lease rfl]
      | copying lease place =>
        cases lease with
        | none => rfl
        | some id =>
          simp only [rename, Operation.Place.rename, Write.Place.rename, Option.map_some, h id rfl]
      | unlocking lease marker place copied =>
        simp only [rename, Operation.Place.rename, Write.Place.rename, h lease rfl]
    | _ => rfl
  | _ => rfl

end Task

/-! ## Scenes -/

namespace Scene

variable {ε : Type} {w : World ε} {c c' : Scene ε} {e : Event} {id : LeaseId}

/-- Nothing is left of what is over: no timer of a lease that is still to be acquired was set,
whoever copies under a lease has acquired it, and every ticket is that of a lease operation. -/
structure Tidy (c : Scene ε) : Prop where
  unspent : ∀ id l, c.gateway.shared.lease? id = some l → l.Unspent
  earned : ∀ i t id place, c.gateway.write? i = some (t, .copying (some id) place) →
    c.gateway.shared.stage? id = some .active ∨ c.gateway.shared.stage? id = some .released
  claimed : Claimed c.gateway.shared.guards c.gateway.leaseOps

theorem tidy_start (writer : Diagnostics) (world : ε) : (start writer world).Tidy where
  unspent := fun id l h => by cases h
  earned := fun i t id place h => by cases h
  claimed := fun n t h => by cases h

/-- A write copies under a lease if it did so before, or has just acquired the lease. -/
theorem Steps.earns (h : Steps w c e c') (ho : c.InOrder) {i : TaskId} {t : Write.Target}
    {place : Copy.Place} (hw : c'.gateway.write? i = some (t, .copying (some id) place)) :
    (∃ place', c.gateway.write? i = some (t, .copying (some id) place')) ∨
      c.gateway.shared.stage? id = some .active ∨ c.gateway.shared.stage? id = some .released := by
  cases h with
  | nothing => exact .inl ⟨place, hw⟩
  | serves => exact .inl ⟨place, hw⟩
  | starts new g starts grows begins => exact .inl ⟨place, grows.write? ▸ hw⟩
  | resumes j task p answer htask pending inbox =>
    obtain ⟨task', q, htask', hq, -, rfl⟩ := Gateway.pending?_eq pending
    rw [htask] at htask'
    cases htask'
    simp only [Pending.map, Gateway.write?_set htask] at hw
    by_cases hj : i = j
    · subst hj
      rw [Function.update_self] at hw
      cases hwrite : task.write? with
      | none =>
        -- a write that begins has its lease still to acquire, or has none
        rcases Task.begins_of_no_write hwrite hq answer with hnone | ⟨handle, _, _, heq, hbegins⟩
        · rw [hnone] at hw
          cases hw
        · rw [heq] at hw
          cases hw
          cases hbegins
      | some write =>
        obtain ⟨target, place₀⟩ := write
        obtain ⟨handle, rfl⟩ := Task.eq_of_write? hwrite
        obtain ⟨step, s', hgoes, heq⟩ := Task.goes_of_write hq answer
        rw [heq, Task.write?_ofOperation] at hw
        cases step with
        | done result => cases hw
        | paused place' =>
          cases hw
          generalize (⟨q.request, answer⟩ : Reply) = reply at hgoes
          cases hgoes with
          | locked a s' move =>
            obtain ⟨l, hl, hfits⟩ := ho.leases.fits i _
              (Gateway.leaseOps_of_write (Gateway.write?_eq htask))
            have hfound : c.gateway.shared.lease? a.lease = some l := hl
            right
            rw [Shared.stage?, hfound]
            exact hfits.imp (congrArg some) (congrArg some)
          | copies lease p p' reply move => exact .inl ⟨p, Gateway.write?_eq htask⟩
    · rw [Function.update_of_ne hj] at hw
      exact .inl ⟨place, hw⟩

theorem Tidy.steps (h : c.Tidy) (ho : c.InOrder) (hs : Steps w c e c') : c'.Tidy := by
  refine ⟨?_, fun i t id place hw => ?_, ?_⟩
  · rcases hs.leases with hsame | ⟨new, hbegins, -⟩ | ⟨k, old, reply, hgoes⟩
    · rw [hsame]
      exact h.unspent
    · exact hbegins.unspent h.unspent
    · obtain ⟨step, s, hm, ha, -⟩ := hgoes.moves
      refine Shared.unspent_modify h.unspent (ha.leases.trans hm.leases) fun l hl => ?_
      obtain ⟨l', hl', hfits⟩ := ho.leases.fits k old hgoes.leaseOp
      rw [hl] at hl'
      cases hl'
      exact hfits.unspent (h.unspent _ l hl) _
  · refine hs.late ho ?_
    rcases hs.earns ho hw with ⟨place', hw'⟩ | hlate
    · exact h.earned i t id place' hw'
    · exact hlate
  · cases hs with
    | nothing => exact h.claimed
    | serves => exact h.claimed
    | starts new g starts grows begins =>
      rw [starts.leaseOps]
      exact h.claimed.begins starts.idle starts.begins
    | resumes k t p answer task pending inbox =>
      cases hd : c.gateway.leaseOps k with
      | none =>
        obtain ⟨new, starts⟩ := Gateway.starts_resume hd pending answer
        rw [starts.leaseOps]
        exact h.claimed.begins starts.idle starts.begins
      | some d =>
        obtain ⟨step, s, hm, ha, hleaseOps⟩ := (Gateway.goes_resume hd pending answer).moves
        rw [hleaseOps, ha.guards]
        exact h.claimed.moves ho.turns.wellFormed hd hm

/-- What becomes of a lease, its target and its marker stay as they are. -/
theorem retains_run (w : World ε) (c : Scene ε) (events : List Event) :
    c.gateway.shared.Retains (c.run w events).gateway.shared id := by
  induction events generalizing c with
  | nil => exact .of_leases rfl
  | cons e events ih => exact ((steps_step w c e).retains id).trans (ih (c.step w e))

/-- Every scene is in order and tidy, at any moment. -/
theorem tidy_run (w : World ε) (writer : Diagnostics) (world : ε) (events : List Event) :
    ((start writer world).run w events).InOrder ∧ ((start writer world).run w events).Tidy := by
  have hrun : ∀ (events : List Event) (c : Scene ε), c.InOrder → c.Tidy →
      (c.run w events).InOrder ∧ (c.run w events).Tidy := by
    intro events
    induction events with
    | nil => exact fun c ho ht => ⟨ho, ht⟩
    | cons e events ih =>
      intro c ho ht
      have hs := steps_step w c e
      exact ih _ (ho.changes hs.changes) (ht.steps ho hs)
  exact hrun events _ (inOrder_start writer world) (tidy_start writer world)

/-- No task is about an idle lease. -/
theorem Tidy.busy (h : c.Tidy) (ho : c.InOrder) {i : TaskId} {t : Task}
    (ht : c.gateway.task? i = some t) (hid : t.lease? = some id) :
    ∃ l, c.gateway.shared.lease? id = some l ∧ l.state ≠ .idle := by
  rcases Task.about_lease hid with ⟨d, hd, rfl⟩ | ⟨target, place, hw⟩
  · obtain ⟨l, hl, hfits⟩ := ho.leases.fits i d ((Gateway.leaseOps_eq ht).trans hd)
    exact ⟨l, hl, hfits.ne_idle⟩
  · have hlate := h.earned i target id place ((Gateway.write?_eq ht).trans hw)
    cases hl : c.gateway.shared.lease? id with
    | none => simp [Shared.stage?, hl] at hlate
    | some l =>
      refine ⟨l, rfl, fun hidle => ?_⟩
      simp [Shared.stage?, hl, hidle] at hlate

/-- An idle lease is as new. -/
theorem Tidy.fresh (h : c.Tidy) (ho : c.InOrder) {l : Lease}
    (hl : c.gateway.shared.lease? id = some l) (hidle : l.state = .idle) :
    Lease.fresh l.target = .ok l :=
  (h.unspent id l hl).fresh (ho.leases.sound id l hl) hidle

/-- Whenever a lease is idle, it is the same. -/
theorem Tidy.same_idle (h : c.Tidy) (ho : c.InOrder) (h' : c'.Tidy) (ho' : c'.InOrder)
    {l l' : Lease} (hretains : c.gateway.shared.Retains c'.gateway.shared id)
    (hl : c.gateway.shared.lease? id = some l) (hidle : l.state = .idle)
    (hl' : c'.gateway.shared.lease? id = some l') (hidle' : l'.state = .idle) : l' = l := by
  obtain ⟨l₁, hl₁, htarget, -⟩ := hretains l hl
  rw [hl'] at hl₁
  cases hl₁
  have hfresh' := h'.fresh ho' hl' hidle'
  rw [htarget, h.fresh ho hl hidle] at hfresh'
  exact (Except.ok.inj hfresh').symm

/-- An idle lease and a new one on the same target can change places. -/
theorem Tidy.exchange (h : c.Tidy) (ho : c.InOrder) {l : Lease}
    (hl : c.gateway.shared.lease? id = some l) (hidle : l.state = .idle) :
    (c.step w (.call (.addLease l.target))).Renamed
        (Equiv.swap id c.gateway.shared.leases.length)
        (c.step w (.call (.addLease l.target))) ∧
      (c.step w (.call (.addLease l.target))).gateway.shared.lease?
        c.gateway.shared.leases.length = some l := by
  have hmade : c.step w (.call (.addLease l.target)) =
      { c with gateway := { c.gateway with shared := (c.gateway.shared.addLease l).2 } } := by
    simp only [step, Gateway.call, Gateway.addLease, h.fresh ho hl hidle]
    rfl
  have hid : id < c.gateway.shared.leases.length := (List.getElem?_eq_some_iff.1 hl).1
  have hold : (c.gateway.shared.addLease l).2.lease? id = some l :=
    (List.getElem?_append_left hid).trans hl
  have hnew : (c.gateway.shared.addLease l).2.lease? c.gateway.shared.leases.length = some l := by
    simp [Shared.addLease, Shared.lease?]
  rw [hmade]
  refine ⟨⟨⟨⟨rfl, rfl, rfl, rfl, fun n => ?_, rfl, fun n hn => ?_⟩, ?_⟩, rfl, rfl⟩, hnew⟩
  · -- the two records are equal
    rcases eq_or_ne n id with rfl | hne
    · rw [Equiv.swap_apply_left]
      exact hnew.trans hold.symm
    · rcases eq_or_ne n c.gateway.shared.leases.length with rfl | hne'
      · rw [Equiv.swap_apply_right]
        exact hold.trans hnew.symm
      · rw [Equiv.swap_apply_of_ne_of_ne hne hne']
  · simp only [Shared.addLease, List.length_append, List.length_singleton] at hn
    have hlt : c.gateway.shared.leases.length < n := hn
    exact Equiv.swap_apply_of_ne_of_ne (Nat.ne_of_gt (Nat.lt_trans hid hlt)) (Nat.ne_of_gt hlt)
  · -- no task is about either of the two
    refine ((List.map_congr_left fun t ht => Task.rename_eq_self fun n hn => ?_).trans
      (List.map_id _)).symm
    obtain ⟨i, hi⟩ := List.getElem?_of_mem ht
    obtain ⟨l', hl', hbusy⟩ := h.busy ho (i := i) hi hn
    refine Equiv.swap_apply_of_ne_of_ne ?_ ?_
    · rintro rfl
      rw [hl] at hl'
      cases hl'
      exact hbusy hidle
    · exact Nat.ne_of_lt (List.getElem?_eq_some_iff.1 hl').1

/-- Whoever acquires an idle lease might as well make a new one on the same target and acquire that
one: whatever happens then, it makes no difference. -/
theorem Tidy.exchange_run (h : c.Tidy) (ho : c.InOrder) {l : Lease}
    (hl : c.gateway.shared.lease? id = some l) (hidle : l.state = .idle) (backend : Backend)
    (options : Options) (expiry : Duration) (events : List Event) :
    ((c.step w (.call (.addLease l.target))).run w
        (.call (.acquire id backend options expiry) :: events)).Renamed
      (Equiv.swap id c.gateway.shared.leases.length)
      ((c.step w (.call (.addLease l.target))).run w
        (.call (.acquire c.gateway.shared.leases.length backend options expiry) ::
          events.map (Event.rename (Equiv.swap id c.gateway.shared.leases.length)))) := by
  have hrun := (h.exchange (w := w) ho hl hidle).1.run (w := w)
    (.call (.acquire id backend options expiry) :: events)
  rw [List.map_cons] at hrun
  simp only [Event.rename, Call.rename, Equiv.swap_apply_left] at hrun
  exact hrun

end Scene

end FileGateway

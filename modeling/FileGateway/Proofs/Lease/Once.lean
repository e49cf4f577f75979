import FileGateway.Proofs.Lease.LeaseSystem

/-!
# Everything about a lease happens at most once

What the invariant of a lease system means to its callers. A lease goes through its stages in order,
no acquisition has it twice, and of all parties that come to give it up one removes the marker that
the lease held while all others leave at once with nothing done.
-/

namespace FileGateway

namespace LeaseSystem

variable {c : LeaseSystem}

/-- The stage of a lease when something begins. -/
theorem precedes_starts {g g' : Gateway} {d : Option LeaseOp} (hs : g.Starts g.tasks.length d g')
    {id : LeaseId} {stage : LeaseState} (hstage : g.shared.stage? id = some stage) :
    ∃ stage', g'.shared.stage? id = some stage' ∧ (stage' = stage ∨ stage.Precedes stage') := by
  have hbegins := hs.begins.stage id
  rw [hstage] at hbegins
  generalize g'.shared.stage? id = after at hbegins
  cases hbegins with
  | same => exact ⟨stage, rfl, Or.inl rfl⟩
  | attempted => exact ⟨_, rfl, Or.inr .attempt⟩
  | givenUp r leaseOp lease => exact ⟨_, rfl, Or.inr .giveUp⟩

/-- A stage stays, or the next one comes. -/
theorem Sound.precedes_step (h : c.Sound) (e : Event) {id : LeaseId} {stage : LeaseState}
    (hstage : c.gateway.shared.stage? id = some stage) :
    ∃ stage', (c.step e).gateway.shared.stage? id = some stage' ∧
      (stage' = stage ∨ stage.Precedes stage') := by
  cases e with
  | addLease target => exact precedes_starts (c.gateway.starts_addLease target) hstage
  | acquire lease backend options expiry =>
    obtain ⟨d, hs⟩ := (c.joins_acquire lease backend options expiry).starts
    exact precedes_starts hs hstage
  | release lease strict =>
    obtain ⟨d, hs⟩ := (c.joins_release lease strict).starts
    exact precedes_starts hs hstage
  | fire lease =>
    obtain ⟨d, hs⟩ := (c.joins_fire lease).starts
    exact precedes_starts hs hstage
  | advance now => exact ⟨stage, hstage, Or.inl rfl⟩
  | answer i answers =>
    simp only [LeaseSystem.step]
    cases hp : c.gateway.pending? i with
    | none => exact ⟨stage, hstage, Or.inl rfl⟩
    | some p =>
      obtain ⟨t, q, ht, hq, -, -⟩ := Gateway.pending?_eq hp
      obtain ⟨d, -, hleaseOp⟩ := h.lone_of_pending ht hq
      obtain ⟨step, s, hm, ha, -⟩ := (Gateway.goes_resume hleaseOp hp (answers p.request)).moves
      obtain ⟨l, hl, hfits⟩ := h.orderly.fits i d hleaseOp
      have hmoves := hm.stage hl hfits id
      rw [hstage, ← ha.stage? id] at hmoves
      change ∃ stage', (p.resume (answers p.request)).shared.stage? id = some stage' ∧ _
      generalize (p.resume (answers p.request)).shared.stage? id = after at hmoves
      cases hmoves with
      | same => exact ⟨stage, rfl, Or.inl rfl⟩
      | failed lease => exact ⟨_, rfl, Or.inr .fail⟩
      | succeeded a bid leaseOp lease => exact ⟨_, rfl, Or.inr .succeed⟩

/-! ## What is deleted -/

/-- Whoever gives a lease up is after the marker that the lease has held before. While that was not
taken, the lease holds it still. -/
def Aims (before now : Option Held) : Surrender.Place → Prop
  | .taking => now = before
  | .cancelling held => before = some held
  | .removing removal => before = some ⟨removal.backend, removal.marker⟩

/-- Whoever has come to give a lease up is after the marker that the lease held then, and has
deleted nothing else. -/
structure Aimed (c : LeaseSystem) : Prop where
  place : ∀ i party l r place, c.parties[i]? = some party → party.found = some l →
    c.gateway.leaseOps i = some (.surrender r place) →
    Aims l.held ((c.gateway.shared.lease? r.lease).bind Lease.held) place
  heard : ∀ (i : TaskId) (party : Party) (l : Lease) (b : Backend) (file : FileRef)
    (answer : Result Bool), c.parties[i]? = some party → party.found = some l →
    party.role.isAcquirer = false → (⟨.store b (.delete file), answer⟩ : Reply) ∈ party.heard →
    l.held = some ⟨b, file⟩

theorem aimed_start (writer : Diagnostics) : (start writer).Aimed := by
  constructor
  · intro i party l r place hp
    simp [start] at hp
  · intro i party l b file answer hp
    simp [start] at hp

/-- What somebody is after is not touched when something else begins. -/
theorem Sound.aims_starts (h : c.Sound) {g : Gateway} {d : Option LeaseOp}
    (hb : Begins c.gateway.shared d g.shared) {i : TaskId} {r : Surrender}
    {place : Surrender.Place} {before : Option Held}
    (hi : c.gateway.leaseOps i = some (.surrender r place))
    (ha : Aims before ((c.gateway.shared.lease? r.lease).bind Lease.held) place) :
    Aims before ((g.shared.lease? r.lease).bind Lease.held) place := by
  cases place with
  | taking =>
    obtain ⟨l, hl, hfits⟩ := h.orderly.fits i _ hi
    have hl : c.gateway.shared.lease? r.lease = some l := hl
    obtain ⟨held, hheld⟩ := Option.ne_none_iff_exists'.1 hfits.2
    obtain ⟨l', hl', hheld'⟩ := hb.still_held hl hheld
    have hbefore : (c.gateway.shared.lease? r.lease).bind Lease.held = before := ha
    rw [hl] at hbefore
    change (g.shared.lease? r.lease).bind Lease.held = before
    rw [hl', ← hbefore]
    exact hheld'.trans hheld.symm
  | cancelling held => exact ha
  | removing removal => exact ha

theorem Aimed.starts_nobody (ha : c.Aimed) (h : c.Sound) {g : Gateway}
    (hs : c.gateway.Starts c.gateway.tasks.length none g) : Aimed { c with gateway := g } := by
  constructor
  · intro i party l r place hp hfound hi
    have hi : g.leaseOps i = some (.surrender r place) := hi
    rw [hs.leaseOps] at hi
    have hne : i ≠ c.gateway.tasks.length := h.ne_last hp
    rw [Function.update_of_ne hne] at hi
    exact h.aims_starts hs.begins hi (ha.place i party l r place hp hfound hi)
  · exact ha.heard

/-- Whoever comes to give a lease up is after what it holds. -/
theorem aims_of_begins {s s' : Shared} {r : Surrender} {place : Surrender.Place} {l : Lease}
    (hb : Begins s (some (.surrender r place)) s') (hl : s.lease? r.lease = some l) :
    Aims l.held ((s'.lease? r.lease).bind Lease.held) place := by
  cases hb with
  | surrender r l' timer found active agrees =>
    cases hl.symm.trans found
    have hlease := agrees.lease? r.lease
    rw [Shared.lease?_modifyLease, if_pos rfl, hl] at hlease
    change (s'.lease? r.lease).bind Lease.held = l.held
    rw [hlease]
    rfl

theorem Aimed.joins (ha : c.Aimed) (h : c.Sound) {role : Role} {g : Gateway}
    (hj : c.Joins role g) : (c.join role g).Aimed := by
  obtain ⟨d, hs⟩ := hj.starts
  rcases hj.comes with ⟨ht, hd⟩ | ⟨t, ht, -, htells⟩
  · have hnone : d = none := by
      have hlast := congrFun hs.leaseOps c.gateway.tasks.length
      rw [Function.update_self, hd] at hlast
      exact hlast.symm
    subst hnone
    have hjoin : c.join role g = { c with gateway := g } := by simp [join, ht]
    rw [hjoin]
    exact ha.starts_nobody h hs
  · have hjoin : c.join role g =
        ⟨g, c.parties ++ [⟨role, c.gateway.shared.lease? role.lease, []⟩]⟩ := by simp [join, ht]
    rw [hjoin]
    have hleaseOp : g.leaseOps c.gateway.tasks.length = t.leaseOp? := by
      rw [Gateway.leaseOps, Gateway.task?_concat ht, Function.update_self]
      rfl
    constructor
    · intro i party l r place hp hfound hi
      have hi : g.leaseOps i = some (.surrender r place) := hi
      rcases getElem?_concat.1 hp with hp | ⟨hlast, rfl⟩
      · rw [hs.leaseOps, Function.update_of_ne (h.ne_last hp)] at hi
        exact h.aims_starts hs.begins hi (ha.place i party l r place hp hfound hi)
      · rw [hlast, h.length] at hi
        have hbegins := hs.begins
        rw [← Function.update_self c.gateway.tasks.length d c.gateway.leaseOps, ← hs.leaseOps, hi]
          at hbegins
        obtain ⟨hlease, -⟩ := htells.gives_up.1 ⟨r, place, hleaseOp.symm.trans hi, rfl⟩
        rw [hlease] at hfound
        exact aims_of_begins hbegins hfound
    · intro i party l b file answer hp hfound hrole hmem
      rcases getElem?_concat.1 hp with hp | ⟨-, rfl⟩
      · exact ha.heard i party l b file answer hp hfound hrole hmem
      · cases hmem

/-- Whoever gives a lease up and goes on is still after the same marker, -/
theorem aims_of_moves {writer : Diagnostics} {s s' : Shared} {d : LeaseOp} {reply : Reply}
    {r : Surrender} {place : Surrender.Place} {before : Option Held}
    (hm : d.Moves writer s reply (.paused (.surrender r place)) s')
    (ha : ∀ r place, d = .surrender r place →
      Aims before ((s.lease? r.lease).bind Lease.held) place) (now : Option Held) :
    Aims before now place := by
  cases hm with
  | taken r held hsome =>
    have hbefore : (s.lease? r.lease).bind Lease.held = before := ha r .taking rfl
    rw [hsome] at hbefore
    split
    · exact hbefore.symm
    · exact hbefore.symm
  | cancelled r held => exact ha r (.cancelling held) rfl
  | retried r removal f hattempt => exact ha r (.removing removal) rfl

/-- and deletes nothing else. -/
theorem aims_of_deletion {writer : Diagnostics} {s s' : Shared} {r : Surrender}
    {place : Surrender.Place} {step : Step LeaseOp LeaseOp.Ending} {before now : Option Held}
    {b : Backend} {file : FileRef} {answer : Result Bool}
    (hm : (LeaseOp.surrender r place).Moves writer s ⟨.store b (.delete file), answer⟩ step s')
    (ha : Aims before now place) : before = some ⟨b, file⟩ := by
  cases hm with
  | removed r removal deleted => exact ha
  | retried r removal f hattempt => exact ha
  | abandoned r removal f hattempt => exact ha

theorem Aimed.answers (ha : c.Aimed) (h : c.Sound) (i : TaskId)
    (answers : (request : Request) → request.Answer) : (c.step (.answer i answers)).Aimed := by
  simp only [LeaseSystem.step]
  cases hp : c.gateway.pending? i with
  | none => exact ha
  | some p =>
    obtain ⟨t, q, ht, hq, -, -⟩ := Gateway.pending?_eq hp
    obtain ⟨d, hd, hleaseOp⟩ := h.lone_of_pending ht hq
    have hgoes := Gateway.goes_resume hleaseOp hp (answers p.request)
    obtain ⟨step, s, hm, hagrees, hleaseOps⟩ := hgoes.moves
    constructor
    · intro j party l r place hparty hfound hj
      obtain ⟨party', hparty', rfl⟩ := hears_iff.1 hparty
      rw [(hears_same i j _ party').2] at hfound
      have hj := (congrFun hleaseOps j).symm.trans hj
      by_cases hne : j = i
      · subst hne
        rw [Function.update_self] at hj
        cases step with
        | done ending => cases hj
        | paused e =>
          cases hj
          refine aims_of_moves hm ?_ _
          rintro r' place' rfl
          exact ha.place j party' l r' place' hparty' hfound hleaseOp
      · rw [Function.update_of_ne hne] at hj
        have hbefore := ha.place j party' l r place hparty' hfound hj
        cases place with
        | taking => exact (h.orderly.still_held hleaseOp hm hagrees.leases hj hne).trans hbefore
        | cancelling held => exact hbefore
        | removing removal => exact hbefore
    · intro j party l b file answer hparty hfound hrole hmem
      obtain ⟨party', hparty', rfl⟩ := hears_iff.1 hparty
      rw [(hears_same i j _ party').2] at hfound
      rw [(hears_same i j _ party').1] at hrole
      split at hmem
      · next heq =>
        subst heq
        rcases List.mem_cons.1 hmem with hreply | hmem
        · rw [← hreply] at hm
          have hrole' := (h.tells i party' t hparty' ht).isAcquire_of_lone hd
          cases d with
          | acquire a place => exact absurd (hrole'.symm.trans hrole) (by simp)
          | surrender r place =>
            exact aims_of_deletion hm (ha.place i party' l r place hparty' hfound hleaseOp)
        · exact ha.heard i party' l b file answer hparty' hfound hrole hmem
      · exact ha.heard j party' l b file answer hparty' hfound hrole hmem

theorem Aimed.step (ha : c.Aimed) (h : c.Sound) (e : Event) : (c.step e).Aimed := by
  cases e with
  | addLease target => exact ha.starts_nobody h (c.gateway.starts_addLease target)
  | acquire lease backend options expiry =>
    exact ha.joins h (c.joins_acquire lease backend options expiry)
  | release lease strict => exact ha.joins h (c.joins_release lease strict)
  | fire lease => exact ha.joins h (c.joins_fire lease)
  | advance now => exact ha.starts_nobody h (Gateway.starts_shared (.nothing ⟨rfl, rfl⟩))
  | answer id answers => exact ha.answers h id answers

theorem aimed_run (writer : Diagnostics) (events : List Event) :
    ((start writer).run events).Aimed := by
  -- along with the soundness of the lease system, on the events to come
  have hrun : ∀ (events : List Event) (c : LeaseSystem), c.Sound → c.Aimed →
      (c.run events).Aimed := by
    intro events
    induction events with
    | nil => exact fun c _ ha => ha
    | cons e events ih => exact fun c h ha => ih (c.step e) (h.step e) (ha.step h e)
  exact hrun events _ (sound_start writer) (aimed_start writer)

/-! ## What a lease system guarantees -/

/-- What a party that removes the marker of a lease ends with. The timer of a lease keeps its result
to itself. -/
def ending (l : Lease) : Role → Result Bool → TaskResult
  | .releaser _ false, .ok _ => .released (.ok true)
  | .releaser _ false, .error f => .released (.error (.filesystem l.marker f))
  | .releaser _ true, .ok _ => .releasedStrictly (.ok ())
  | .releaser _ true, .error f => .releasedStrictly (.error (.filesystem l.marker f))
  | _, result => .expired result

/-- What a lease system guarantees.

* `stages`: the stages of a lease follow each other, whatever happens next;
* `holds`, `takes`: an active lease holds something, and so does one that is about to be given up;
* `acquired`, `refused`: at most one acquisition of a lease succeeds, and whoever acquires a lease
  that is not idle is refused and has asked for nothing;
* `released`, `single`: a lease is released just if one party has given it up, and then no other
  one has;
* `removes`, `aims`: that party tries to remove the marker and ends with what has come of it, and
  it deletes nothing but the marker that the lease held, on the store that it was held on;
* `spared`, `timely`: all other releases have asked for nothing and leave the lease alone, and a
  timer that finds its lease given up already has nothing to do. -/
structure Once (c : LeaseSystem) : Prop where
  stages : ∀ e id stage, c.gateway.shared.stage? id = some stage →
    ∃ stage', (c.step e).gateway.shared.stage? id = some stage' ∧
      (stage' = stage ∨ stage.Precedes stage')
  holds : ∀ id l, c.gateway.shared.lease? id = some l → l.state = .active → l.held ≠ none
  takes : ∀ i r, c.gateway.leaseOps i = some (.surrender r .taking) →
    (c.gateway.shared.lease? r.lease).bind Lease.held ≠ none
  acquired : ∀ i j id party party', c.parties[i]? = some party → c.parties[j]? = some party' →
    party.role = .acquirer id → party'.role = .acquirer id →
    c.gateway.result? i = some (.acquired (.ok true)) →
    c.gateway.result? j = some (.acquired (.ok true)) → i = j
  refused : ∀ i party id l, c.parties[i]? = some party → party.role = .acquirer id →
    party.found = some l → l.state ≠ .idle →
    c.gateway.result? i = some (.acquired (.error l.notIdle)) ∧ party.heard = []
  released : ∀ id, c.gateway.shared.stage? id = some .released ↔ ∃ i, c.Removes i id
  single : ∀ i j id, c.Removes i id → c.Removes j id → i = j
  removes : ∀ i party l, c.parties[i]? = some party → party.role.isAcquirer = false →
    party.found = some l → l.state = .active →
    (c.gateway.result? i = none ∧ (∀ r ∈ deletions party.heard, r.isOk = false) ∧
      (deletions party.heard).length < removalLimit) ∨
    ∃ result, c.gateway.result? i = some (ending l party.role result) ∧
      Concluded result (deletions party.heard)
  aims : ∀ (i : TaskId) (party : Party) (l : Lease) (b : Backend) (file : FileRef)
    (answer : Result Bool), c.parties[i]? = some party → party.role.isAcquirer = false →
    party.found = some l → (⟨.store b (.delete file), answer⟩ : Reply) ∈ party.heard →
    l.held = some ⟨b, file⟩
  spared : ∀ i party id strict l, c.parties[i]? = some party → party.role = .releaser id strict →
    party.found = some l → l.state ≠ .active →
    c.gateway.result? i = some (if strict then .releasedStrictly (.error (.lockNotHeld l.marker))
      else .released (.ok false)) ∧ party.heard = []
  timely : ∀ (i : TaskId) party id l, c.parties[i]? = some party → party.role = .timer id →
    party.found = some l → l.state = .active

/-- The task of a party. -/
theorem Sound.task (h : c.Sound) {i : TaskId} {party : Party} (hp : c.parties[i]? = some party) :
    ∃ t, c.gateway.task? i = some t ∧ party.Tells t := by
  have hi : i < c.gateway.tasks.length := by
    rw [← h.length]
    exact (List.getElem?_eq_some_iff.1 hp).1
  have ht : c.gateway.task? i = some c.gateway.tasks[i] := List.getElem?_eq_getElem hi
  exact ⟨_, ht, h.tells i party _ hp ht⟩

theorem ending_releaser (l : Lease) (id : LeaseId) (strict : Bool) (result : Result Bool) :
    Task.releaseResult l.marker strict (Release.result l.marker result) =
      ending l (.releaser id strict) result := by
  cases strict <;> cases result <;> rfl

/-- Whoever is about to give a lease up finds something to give up. -/
theorem Sound.takes (h : c.Sound) {i : TaskId} {r : Surrender}
    (hd : c.gateway.leaseOps i = some (.surrender r .taking)) :
    (c.gateway.shared.lease? r.lease).bind Lease.held ≠ none := by
  obtain ⟨l, hl, hfits⟩ := h.orderly.fits i _ hd
  rw [show c.gateway.shared.lease? r.lease = some l from hl]
  exact hfits.2

theorem Sound.refused (h : c.Sound) {i : TaskId} {party : Party} {id : LeaseId} {l : Lease}
    (hp : c.parties[i]? = some party) (hrole : party.role = .acquirer id)
    (hfound : party.found = some l) (hbusy : l.state ≠ .idle) :
    c.gateway.result? i = some (.acquired (.error l.notIdle)) ∧ party.heard = [] := by
  obtain ⟨t, ht, htells⟩ := h.task hp
  cases htells with
  | acquiring a place l' heard idle =>
    cases hfound
    exact absurd idle hbusy
  | acquired lease l' heard result idle =>
    cases hfound
    exact absurd idle hbusy
  | refused lease l' busy =>
    cases hfound
    exact ⟨Gateway.result?_eq.2 ht, rfl⟩
  | stranger role result alien => cases hfound
  | _ => cases hrole

/-- A party that finds its lease active goes on trying to remove the marker, or has concluded. -/
theorem Sound.removes (h : c.Sound) {i : TaskId} {party : Party} {l : Lease}
    (hp : c.parties[i]? = some party) (hrole : party.role.isAcquirer = false)
    (hfound : party.found = some l) (hactive : l.state = .active) :
    (c.gateway.result? i = none ∧ (∀ r ∈ deletions party.heard, r.isOk = false) ∧
      (deletions party.heard).length < removalLimit) ∨
    ∃ result, c.gateway.result? i = some (ending l party.role result) ∧
      Concluded result (deletions party.heard) := by
  obtain ⟨t, ht, htells⟩ := h.task hp
  cases htells with
  | releasing lease strict l' place heard active tried =>
    exact Or.inl ⟨by simp [Gateway.result?, ht], tried.few⟩
  | expiring lease l' place heard active tried =>
    exact Or.inl ⟨by simp [Gateway.result?, ht], tried.few⟩
  | released lease strict l' heard result active concluded =>
    cases hfound
    refine Or.inr ⟨result, ?_, concluded⟩
    rw [Gateway.result?_eq.2 ht, ending_releaser l lease]
  | expired lease l' heard result active concluded =>
    cases hfound
    refine Or.inr ⟨result, ?_, concluded⟩
    rw [Gateway.result?_eq.2 ht]
    rfl
  | spared lease strict l' inactive =>
    cases hfound
    exact absurd hactive inactive
  | stranger role result alien => cases hfound
  | _ => cases hrole

theorem Sound.spared (h : c.Sound) {i : TaskId} {party : Party} {id : LeaseId} {strict : Bool}
    {l : Lease} (hp : c.parties[i]? = some party) (hrole : party.role = .releaser id strict)
    (hfound : party.found = some l) (hinactive : l.state ≠ .active) :
    c.gateway.result? i = some (if strict then .releasedStrictly (.error (.lockNotHeld l.marker))
      else .released (.ok false)) ∧ party.heard = [] := by
  obtain ⟨t, ht, htells⟩ := h.task hp
  cases htells with
  | releasing lease strict' l' place heard active tried =>
    cases hfound
    exact absurd active hinactive
  | released lease strict' l' heard result active concluded =>
    cases hfound
    exact absurd active hinactive
  | spared lease strict' l' inactive =>
    cases hfound
    cases hrole
    refine ⟨?_, rfl⟩
    rw [Gateway.result?_eq.2 ht]
    cases strict <;> rfl
  | stranger role result alien => cases hfound
  | _ => cases hrole

theorem Sound.timely (h : c.Sound) {i : TaskId} {party : Party} {id : LeaseId} {l : Lease}
    (hp : c.parties[i]? = some party) (hrole : party.role = .timer id)
    (hfound : party.found = some l) : l.state = .active := by
  obtain ⟨t, ht, htells⟩ := h.task hp
  cases htells with
  | expiring lease l' place heard active tried =>
    cases hfound
    exact active
  | expired lease l' heard result active concluded =>
    cases hfound
    exact active
  | stranger role result alien => cases hfound
  | _ => cases hrole

theorem Sound.once (h : c.Sound) (ha : c.Aimed) : c.Once := by
  constructor
  · intro e id stage
    exact h.precedes_step e
  · intro id l hl
    exact (h.orderly.sound id l hl).active
  · intro i r hd
    exact h.takes hd
  · -- both parties have the lease, and only one can
    intro i j id party party' hp hp' hrole hrole' hi hj
    exact h.hasOnce i j id ⟨party, _, hp, Gateway.result?_eq.1 hi, hrole, rfl⟩
      ⟨party', _, hp', Gateway.result?_eq.1 hj, hrole', rfl⟩
  · intro i party id l hp hrole hfound hbusy
    exact h.refused hp hrole hfound hbusy
  · exact h.released
  · exact h.removesOnce
  · intro i party l hp hrole hfound hactive
    exact h.removes hp hrole hfound hactive
  · intro i party l b file answer hp hrole hfound
    exact ha.heard i party l b file answer hp hfound hrole
  · intro i party id strict l hp hrole hfound hinactive
    exact h.spared hp hrole hfound hinactive
  · intro i party id l hp hrole hfound
    exact h.timely hp hrole hfound

/-- Whatever the parties do, and whatever the stores answer, everything happens at most once. -/
theorem once_run (writer : Diagnostics) (events : List Event) :
    ((start writer).run events).Once :=
  (sound_run writer events).once (aimed_run writer events)

end LeaseSystem

end FileGateway

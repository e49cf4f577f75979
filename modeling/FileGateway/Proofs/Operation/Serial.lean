import Mathlib.Data.List.Induction
import FileGateway.Proofs.Gateway.Memory
import FileGateway.Proofs.Operation.Refusal

/-!
# Locked writes are serialized

What a file holds is what is left of its first content when the locked writes that have won are
applied to it whole, one after the other, in the order in which they acquired their leases. No write
opens or writes the file while another one holds its lease, and a write that finds the marker taken
does not touch the file at all.

`Scene.Tallied` is the invariant of the content: if all earlier winners have copied to the end, the
copy of the latest one stands to the file as `Copy.Reaches` says.
-/

namespace FileGateway

/-- What is left of a file when writes are applied to it whole, the latest first: each appends its
source to what it finds, or puts it in place. -/
def applied (initial : Bytes) (source : TaskId → Bytes) : List (TaskId × Bool) → Bytes
  | [] => initial
  | (id, append) :: earlier =>
    (if append then applied initial source earlier else []) ++ source id

/-- How much a write has copied, if it has copied to the end and gives its lease up. -/
def Write.Place.copied? : Write.Place → Option Nat
  | unlocking _ _ _ (.ok count) => some count
  | _ => none

/-- How much a task has copied, if it has copied to the end. -/
def Task.copied? : Task → Option Nat
  | operating _ (.writing _ place) => place.copied?
  | finished (.operated (.ok (.copied count))) => some count
  | _ => none

theorem Task.copied_of_write {t : Task} {target : Write.Target} {place : Write.Place}
    (h : t.write? = some (target, place)) : t.copied? = place.copied? := by
  obtain ⟨id, rfl⟩ := Task.eq_of_write? h
  rfl

/-- Only copies take from their sources. -/
theorem Task.copying_of_pull {t : Task} {s : Shared} {p : Pending (Shared → Task × Shared)}
    (hp : t.next? s = some p) (hr : p.request = .pull) : t.isCopying = true := by
  cases t with
  | operating id place =>
    cases hp
    cases place with
    | writing target place =>
      cases place with
      | copying lease place => rfl
      | locking a place => cases place <;> cases hr
      | unlocking lease marker place copied => cases place <;> cases hr
    | reading backend file place => cases place <;> cases hr
    | _ => cases hr
  | acquiring a place =>
    cases hp
    cases place <;> cases hr
  | releasing lease marker strict place =>
    cases hp
    cases place <;> cases hr
  | expiring lease place =>
    cases hp
    cases place <;> cases hr
  | finished result => cases hp
  | _ =>
    cases hp
    cases hr

theorem Write.outcome_ok {t : Target} {result : Result Nat} {count : Nat}
    (h : outcome t result = .ok count) : result = .ok count := by
  rcases result with f | n
  · cases h
  · cases h
    rfl

theorem Write.released_ok {t : Target} {result : Result Nat} {removed : Except Error Bool}
    {count : Nat} (h : released t result removed = .ok count) : result = .ok count := by
  rcases removed with e | removed
  · rcases result with f | n
    · cases h
    · cases h
  · exact outcome_ok h

/-- A write that has won and goes on to copy has a copy that goes on, or that begins. -/
theorem Write.Goes.copying {writer : Diagnostics} {t : Target} {s s' : Shared} {place : Place}
    {reply : Reply} {lease : Option LeaseId} {p : Copy.Place}
    (h : Goes writer t s place reply (.paused (.copying lease p)) s') :
    (p = .opening ∧ ∃ a, place = .locking a .arming) ∨
      ∃ p', place = .copying lease p' ∧
        Copy.Goes t.backend t.file t.append p' reply (.paused p) := by
  cases h with
  | locked a s' move => exact Or.inl ⟨rfl, a, rfl⟩
  | copies lease p' p reply move => exact Or.inr ⟨p', rfl, move⟩

/-- A write that has copied to the end after a move had done so before, or its copy just does. -/
theorem Write.Goes.has_copied {writer : Diagnostics} {handle : HandleId} {t : Target}
    {s s' : Shared} {place : Place} {reply : Reply} {step : Step Place (Except Error Nat)}
    {count : Nat}
    (h : Goes writer t s place reply step s')
    (hc : (Task.ofOperation handle (Operation.writeStep t step) s').1.copied? = some count) :
    place.copied? = some count ∨ ∃ lease p, place = .copying lease p ∧
      Copy.Goes t.backend t.file t.append p reply (.done (.ok count)) := by
  -- a task that has finished has copied what its result says
  have hfinished : ∀ {result : Except Error Nat}, step = .done result → result = .ok count := by
    intro result hdone
    subst hdone
    rcases result with e | n
    · cases hc
    · cases hc
      rfl
  cases h with
  | locks => cases hc
  | locked => cases hc
  | refused => cases hfinished rfl
  | copies => cases hc
  | copied p reply result move =>
    have hresult := outcome_ok (hfinished rfl)
    subst hresult
    exact Or.inr ⟨none, p, rfl, move⟩
  | unlocks id l p reply result move found active =>
    -- the copy has ended just now, well or not
    right
    rcases result with f | n
    · cases hc
    · cases hc
      exact ⟨some id, p, rfl, move⟩
  | lost id p reply result move gone =>
    have hresult := released_ok (hfinished rfl)
    subst hresult
    exact Or.inr ⟨some id, p, rfl, move⟩
  | unlocking id marker p p' result reply s' move =>
    left
    rcases result with f | n
    · cases hc
    · exact hc
  | unlocked id marker p result removed reply s' move =>
    have hresult := released_ok (hfinished rfl)
    subst hresult
    exact Or.inl rfl

/-- A task that has won copies with its lease, or not at all. -/
theorem Task.HasWon.still {σ : Site} {append : Bool} {t : Task} (h : t.HasWon σ append)
    (hn : ¬ ∃ target lease place,
      t.write? = some (target, .copying (some lease) place) ∧ target.site = σ) :
    t.isCopying = false := by
  rcases h with ⟨result, rfl⟩ | ⟨target, place, hw, hwon, hσ, -⟩
  · rfl
  · cases place with
    | copying lease p =>
      cases lease with
      | none => cases hwon
      | some lease => exact absurd ⟨target, lease, p, hw, hσ⟩ hn
    | _ => simp [isCopying, hw]

namespace Scene

variable {ε : Type} {w : Archive ε} {c c' : Scene ε} {σ : Site}

/-- What the copy of a task comes to as soon as it is given its answer. -/
inductive Comes (c : Scene ε) (i : TaskId) : Step Copy.Place (Result Nat) → Prop where
  | armed (t : Write.Target) (a : Acquire)
      (write : c.gateway.write? i = some (t, .locking a .arming)) : Comes c i (.paused .opening)
  | waits (t : Write.Target) (lease : Option LeaseId) (p : Copy.Place)
      (write : c.gateway.write? i = some (t, .copying lease p)) (inbox : c.inbox i = none) :
    Comes c i (.paused p)
  | answered (t : Write.Target) (lease : Option LeaseId) (p : Copy.Place) (reply : Reply)
      (step : Step Copy.Place (Result Nat))
      (write : c.gateway.write? i = some (t, .copying lease p)) (inbox : c.inbox i = some reply)
      (goes : Copy.Goes t.backend t.file t.append p reply step) : Comes c i step
  | ended (t : Task) (count : Nat) (task : c.gateway.task? i = some t)
      (copied : t.copied? = some count) : Comes c i (.done (.ok count))

/-- The task has copied to the end. -/
def HasCopied (c : Scene ε) (i : TaskId) : Prop :=
  ∃ t count, c.gateway.task? i = some t ∧ t.copied? = some count

/-- The sources of early tasks are whole; and what the file holds is the first content as long as
nobody has won, and then what the copy of the latest winner makes of it, if all earlier winners have
copied to the end. -/
structure Tallied (w : Archive ε) (origin : ε) (σ : Site) (c : Scene ε) : Prop where
  whole : ∀ i, (∀ t, c.gateway.task? i = some t → t.isEarly = true) →
    w.source c.world i = w.source origin i
  first : winners σ c.history = [] → w.content c.world σ = w.content origin σ
  latest : ∀ i append earlier, winners σ c.history = (i, append) :: earlier →
    (∀ j append', (j, append') ∈ earlier → c.HasCopied j) → ∀ step, c.Comes i step →
      Copy.Reaches w i σ (applied (w.content origin σ) (w.source origin) earlier)
        (if append then applied (w.content origin σ) (w.source origin) earlier else [])
        (w.source origin i) c.world step

theorem tallied_start (writer : Diagnostics) (origin : ε) :
    Tallied w origin σ (start writer origin) where
  whole := fun i h => rfl
  first := fun h => rfl
  latest := fun i append earlier h => by cases h

/-- If all winners have copied to the end, the file holds what is left of them. -/
theorem Tallied.content {origin : ε} (h : Tallied w origin σ c)
    (hc : ∀ i append, (i, append) ∈ winners σ c.history → c.HasCopied i) :
    w.content c.world σ =
      applied (w.content origin σ) (w.source origin) (winners σ c.history) := by
  cases hw : winners σ c.history with
  | nil => exact h.first hw
  | cons latest earlier =>
    obtain ⟨i, append⟩ := latest
    rw [hw] at hc
    obtain ⟨t, count, ht, hcount⟩ := hc i append List.mem_cons_self
    have hearlier : ∀ j append', (j, append') ∈ earlier → c.HasCopied j :=
      fun j append' hj => hc j append' (List.mem_cons_of_mem _ hj)
    exact h.latest i append earlier hw hearlier _ (.ended t count ht hcount)

/-! ## Looking back over a change -/

/-- An earlier winner is not inside. -/
theorem Ordered.earlier (h : Ordered σ c) {i : TaskId} {append : Bool}
    {earlier : List (TaskId × Bool)} (hw : winners σ c.history = (i, append) :: earlier)
    {j : TaskId} {append' : Bool} (hj : (j, append') ∈ earlier) {t : Write.Target}
    {place : Write.Place} (hwrite : c.gateway.write? j = some (t, place)) :
    place.isInside = false := by
  -- otherwise it would be the latest winner
  by_contra hinside
  have hmem : (j, append') ∈ winners σ c.history := by
    rw [hw]
    exact List.mem_cons_of_mem _ hj
  obtain ⟨t', ht', hwon⟩ := h.won j append' hmem
  have htask : t'.write? = some (t, place) := by
    rw [Gateway.write?_eq ht'] at hwrite
    exact hwrite
  rcases hwon with ⟨result, rfl⟩ | ⟨target, place', hplace, -, hσ, -⟩
  · cases htask
  · rw [htask] at hplace
    cases hplace
    have hhead := h.front j t place hwrite hσ (Bool.not_eq_false _ ▸ hinside)
    rw [hw, List.head?_cons] at hhead
    cases hhead
    -- the latest winner is not among the earlier ones
    have hnodup := h.nodup
    rw [hw, List.map_cons, List.nodup_cons] at hnodup
    exact hnodup.1 (List.mem_map.2 ⟨_, hj, rfl⟩)

/-- An earlier winner whose copy comes to its end has copied to the end. -/
theorem Ordered.copied (h : Ordered σ c) {i : TaskId} {append : Bool}
    {earlier : List (TaskId × Bool)} (hw : winners σ c.history = (i, append) :: earlier)
    {j : TaskId} {append' : Bool} (hj : (j, append') ∈ earlier) {count : Nat}
    (hc : c.Comes j (.done (.ok count))) : c.HasCopied j := by
  cases hc with
  | ended t count task copied => exact ⟨t, count, task, copied⟩
  | answered t lease p reply step write inbox goes =>
    have houtside := h.earlier hw hj write
    have hmem : (j, append') ∈ winners σ c.history := by
      rw [hw]
      exact List.mem_cons_of_mem _ hj
    obtain ⟨t', ht', hwon⟩ := h.won j append' hmem
    have htask : t'.write? = some (t, .copying lease p) := by
      rw [Gateway.write?_eq ht'] at write
      exact write
    rcases hwon with ⟨result, rfl⟩ | ⟨target, place', hplace, hwon, -⟩
    · cases htask
    · rw [htask] at hplace
      cases hplace
      -- a copy with a lease is inside, and one without has not won
      cases lease with
      | none => cases hwon
      | some lease => cases houtside

theorem Comes.of_eq {i : TaskId} {step : Step Copy.Place (Result Nat)} (h : c'.Comes i step)
    (htask : c'.gateway.task? i = c.gateway.task? i) (hinbox : c'.inbox i = c.inbox i) :
    c.Comes i step := by
  have hwrite : c'.gateway.write? i = c.gateway.write? i := by
    rw [Gateway.write?, Gateway.write?, htask]
  cases h with
  | armed t a write => exact .armed t a (hwrite ▸ write)
  | waits t lease p write inbox => exact .waits t lease p (hwrite ▸ write) (hinbox ▸ inbox)
  | answered t lease p reply step write inbox goes =>
    exact .answered t lease p reply step (hwrite ▸ write) (hinbox ▸ inbox) goes
  | ended t count task copied => exact .ended t count (htask ▸ task) copied

/-- A change that leaves the world alone, and after which the copy of a winner comes to nothing
that it did not come to before, leaves the tally right. -/
theorem Tallied.looks_back {origin : ε} (h : Tallied w origin σ c) (ho : Ordered σ c)
    (hworld : c'.world = c.world) (hwinners : winners σ c'.history = winners σ c.history)
    (hearly : ∀ i, (∀ t, c'.gateway.task? i = some t → t.isEarly = true) →
      ∀ t, c.gateway.task? i = some t → t.isEarly = true)
    (hback : ∀ i append, (i, append) ∈ winners σ c.history → ∀ step, c'.Comes i step →
      c.Comes i step) : Tallied w origin σ c' := by
  constructor
  · intro i hi
    rw [hworld]
    exact h.whole i (hearly i hi)
  · intro hnone
    rw [hworld]
    rw [hwinners] at hnone
    exact h.first hnone
  · intro i append earlier hw hc step hcomes
    rw [hworld]
    rw [hwinners] at hw
    refine h.latest i append earlier hw (fun j append' hj => ?_) step ?_
    · -- an earlier winner that has copied to the end now had done so before
      obtain ⟨t, count, ht, hcount⟩ := hc j append' hj
      have hmem : (j, append') ∈ winners σ c.history := by
        rw [hw]
        exact List.mem_cons_of_mem _ hj
      exact ho.copied hw hj (hback j append' hmem _ (.ended t count ht hcount))
    · refine hback i append ?_ step hcomes
      rw [hw]
      exact List.mem_cons_self

theorem Tallied.rests {origin : ε} (h : Tallied w origin σ c) (ho : Ordered σ c)
    (hr : c.Rests c') : Tallied w origin σ c' := by
  have hu : Unfolds w.toWorld c c' := .rests c' hr
  refine h.looks_back ho hr.world hr.winners (fun i => hu.early) fun i append hmem step hc => ?_
  -- the inbox of a write stays as it is
  have hinbox : ∀ {write}, c.gateway.write? i = some write → c'.inbox i = c.inbox i := by
    intro write hw
    rcases hr.inbox i with hsame | ⟨hnone, -⟩
    · exact hsame
    · rw [hnone] at hw
      cases hw
  cases hc with
  | armed t a write => exact .armed t a (hr.write? ▸ write)
  | waits t lease p write inbox =>
    rw [hr.write?] at write
    exact .waits t lease p write ((hinbox write).symm.trans inbox)
  | answered t lease p reply step write inbox goes =>
    rw [hr.write?] at write
    exact .answered t lease p reply step write ((hinbox write).symm.trans inbox) goes
  | ended t' count task copied =>
    obtain ⟨t, ht, hwon⟩ := ho.won i append hmem
    rcases hwon with ⟨result, rfl⟩ | ⟨target, place, hwrite, -⟩
    · have hresult := hr.finished i result (Gateway.result?_eq.2 ht)
      rw [Gateway.result?_eq, task] at hresult
      cases hresult
      exact .ended _ count ht copied
    · have hsame : c'.gateway.write? i = some (target, place) := by
        rw [hr.write?, Gateway.write?, ht]
        exact hwrite
      rw [Gateway.write?_eq task] at hsame
      refine .ended t count ht ?_
      rw [Task.copied_of_write hwrite, ← Task.copied_of_write hsame]
      exact copied

/-- The copy of a write that has won comes to nothing new when the write goes on. -/
theorem Comes.of_goes {id : TaskId} {handle : HandleId} {target : Write.Target}
    {place : Write.Place} {reply : Reply} {step : Step Write.Place (Except Error Nat)}
    {s s' : Shared} (task : c.gateway.task? id = some (.operating handle (.writing target place)))
    (inbox : c.inbox id = some reply)
    (move : Write.Goes c.gateway.shared.writer target c.gateway.shared place reply step s)
    (hwon : place.hasWon = true)
    (hgateway : c'.gateway = ⟨s', c.gateway.tasks.set id
      (Task.ofOperation handle (Operation.writeStep target step) s).1⟩)
    (hinbox : c'.inbox id = none) {next : Step Copy.Place (Result Nat)} (hc : c'.Comes id next) :
    c.Comes id next := by
  have hself : c.gateway.write? id = some (target, place) :=
    Gateway.write?_eq task
  have hwrite : ∀ {t p}, c'.gateway.write? id = some (t, p) → t = target ∧ step = .paused p := by
    intro t p hw
    rw [hgateway, Gateway.write?_set task, Function.update_self, Task.write?_ofOperation] at hw
    cases step with
    | done result => cases hw
    | paused p' =>
      cases hw
      exact ⟨rfl, rfl⟩
  cases hc with
  | armed t a write =>
    -- it would have won just now, but it had won before
    obtain ⟨rfl, rfl⟩ := hwrite write
    cases move with
    | locks _ p _ _ _ move =>
      obtain ⟨bid, rfl⟩ := Write.activating_of_moves move
      cases hwon
  | waits t lease p write _ =>
    -- the copy has begun, or gone on by the answer that was in the inbox
    obtain ⟨rfl, rfl⟩ := hwrite write
    rcases move.copying with ⟨rfl, a, rfl⟩ | ⟨p', rfl, goes⟩
    · exact .armed t a hself
    · exact .answered t lease p' reply _ hself inbox goes
  | answered t lease p reply' next write inbox' goes =>
    rw [hinbox] at inbox'
    cases inbox'
  | ended t count task' copied =>
    rw [hgateway, Gateway.task?_set task, Function.update_self] at task'
    cases task'
    rcases move.has_copied copied with hbefore | ⟨lease, p, rfl, goes⟩
    · exact .ended _ count task hbefore
    · exact .answered target lease p reply _ hself inbox goes

/-- A write goes on without winning. -/
theorem Tallied.goes {origin : ε} (h : Tallied w origin σ c) (ho : Ordered σ c)
    (hu : Unfolds w.toWorld c c') {id : TaskId} {handle : HandleId} {target : Write.Target}
    {place : Write.Place} {reply : Reply} {step : Step Write.Place (Except Error Nat)}
    {s s' : Shared} (task : c.gateway.task? id = some (.operating handle (.writing target place)))
    (inbox : c.inbox id = some reply)
    (move : Write.Goes c.gateway.shared.writer target c.gateway.shared place reply step s)
    (hgateway : c'.gateway = ⟨s', c.gateway.tasks.set id
      (Task.ofOperation handle (Operation.writeStep target step) s).1⟩)
    (hinbox : c'.inbox = Function.update c.inbox id none) (hworld : c'.world = c.world)
    (hwinners : winners σ c'.history = winners σ c.history) : Tallied w origin σ c' := by
  refine h.looks_back ho hworld hwinners (fun i => hu.early) fun i append hmem next hc => ?_
  by_cases hid : i = id
  · subst hid
    obtain ⟨t, ht, hwon⟩ := ho.won i append hmem
    rw [task] at ht
    cases ht
    rcases hwon with ⟨result, hresult⟩ | ⟨target', place', hplace, hwon, -⟩
    · cases hresult
    · cases hplace
      exact hc.of_goes task inbox move hwon hgateway (by rw [hinbox, Function.update_self])
  · refine hc.of_eq ?_ ?_
    · rw [hgateway, Gateway.task?_set task, Function.update_of_ne hid]
    · rw [hinbox, Function.update_of_ne hid]

/-- A write wins: if all earlier winners have copied to the end, it finds what is left of them. -/
theorem Tallied.wins {origin : ε} (h : Tallied w origin σ c) (ho : Ordered σ c) {id : TaskId}
    {handle : HandleId} {target : Write.Target} {a : Acquire} {bid : Acquire.Bid} {s' : Shared}
    {t' : Task}
    (task : c.gateway.task? id =
      some (.operating handle (.writing target (.locking a (.activating bid)))))
    (next : t' = .operating handle (.writing target (.locking a .arming)))
    (hgateway : c'.gateway = ⟨s', c.gateway.tasks.set id t'⟩) (hworld : c'.world = c.world)
    (hu : Unfolds w.toWorld c c')
    (hwinners : winners σ c'.history = (id, target.append) :: winners σ c.history) :
    Tallied w origin σ c' := by
  have htask : c'.gateway.task? = Function.update c.gateway.task? id (some t') := by
    rw [hgateway]
    exact Gateway.task?_set task t' s'
  have hnew := ho.fresh_activating task
  constructor
  · intro i hi
    rw [hworld]
    exact h.whole i (hu.early hi)
  · intro hnone
    rw [hwinners] at hnone
    cases hnone
  · intro i append earlier hw hc step hcomes
    rw [hwinners] at hw
    cases hw
    rw [hworld]
    -- the new winner has only its timer to start, and then opens the file
    have hstep : step = .paused .opening := by
      have hself : c'.gateway.write? id = some (target, .locking a .arming) := by
        rw [Gateway.write?, htask, Function.update_self, next]
        rfl
      cases hcomes with
      | armed => rfl
      | waits t lease p write _ =>
        rw [hself] at write
        cases write
      | answered t lease p reply step write _ _ =>
        rw [hself] at write
        cases write
      | ended t count task' copied =>
        rw [htask, Function.update_self, next] at task'
        cases task'
        cases copied
    subst hstep
    -- the file holds what is left of all earlier winners, and the source is whole
    refine ⟨h.content fun j append' hj => ?_, (h.whole id fun t ht => ?_).symm⟩
    · obtain ⟨t, count, ht, hcount⟩ := hc j append' hj
      have hid : j ≠ id := fun heq => hnew append' (heq ▸ hj)
      rw [htask, Function.update_of_ne hid] at ht
      exact ⟨t, count, ht, hcount⟩
    · rw [task] at ht
      cases ht
      rfl

/-- A task that wants a piece of its source copies. -/
theorem copying_of_pull {id : TaskId} {t : Task} {p : Pending Gateway}
    (task : c.gateway.task? id = some t) (pending : c.gateway.pending? id = some p)
    (hr : p.request = .pull) : t.isCopying = true := by
  obtain ⟨t₀, q, ht₀, hq, -, rfl⟩ := Gateway.pending?_eq pending
  rw [task] at ht₀
  cases ht₀
  exact Task.copying_of_pull hq hr

theorem Comes.copying {i : TaskId} {step : Step Copy.Place (Result Nat)} (h : c.Comes i step)
    {t : Write.Target} {lease : Option LeaseId} {p : Copy.Place}
    (hw : c.gateway.write? i = some (t, .copying lease p)) :
    (c.inbox i = none ∧ step = .paused p) ∨ ∃ reply, c.inbox i = some reply ∧
      Copy.Goes t.backend t.file t.append p reply step := by
  cases h with
  | armed t' a write =>
    rw [hw] at write
    cases write
  | waits t' lease' p' write inbox =>
    rw [hw] at write
    cases write
    exact Or.inl ⟨inbox, rfl⟩
  | answered t' lease' p' reply step write inbox goes =>
    rw [hw] at write
    cases write
    exact Or.inr ⟨reply, inbox, goes⟩
  | ended t' count task copied =>
    rw [Gateway.write?_eq task] at hw
    rw [Task.copied_of_write hw] at copied
    cases copied

/-- Of a task that does not copy it does not matter what is in its inbox. -/
theorem Comes.of_still {i : TaskId} {step : Step Copy.Place (Result Nat)} (h : c'.Comes i step)
    {t : Task} (task : c'.gateway.task? i = some t) (hstill : t.isCopying = false)
    (hgateway : c'.gateway = c.gateway) : c.Comes i step := by
  have hnot : ∀ {target lease p}, c'.gateway.write? i ≠ some (target, .copying lease p) := by
    intro target lease p hw
    rw [Gateway.write?_eq task] at hw
    simp [Task.isCopying, hw] at hstill
  cases h with
  | armed t' a write => exact .armed t' a (hgateway ▸ write)
  | waits t' lease p write inbox => exact absurd write hnot
  | answered t' lease p reply step write inbox goes => exact absurd write hnot
  | ended t' count task' copied => exact .ended t' count (hgateway ▸ task') copied

/-- The archive acts on the request of the latest winner, which copies. -/
theorem Tallied.copies {origin : ε} (h : Tallied w origin σ c) (ho : Ordered σ c) {id : TaskId}
    {p : Pending Gateway} (inbox : c.inbox id = none)
    {target : Write.Target} {lease : LeaseId} {place : Copy.Place}
    (write : c.gateway.write? id = some (target, .copying (some lease) place))
    (hσ : target.site = σ) {append : Bool} {earlier : List (TaskId × Bool)}
    (hw : winners σ c.history = (id, append) :: earlier)
    (hc : ∀ j append', (j, append') ∈ earlier → c.HasCopied j)
    {step : Step Copy.Place (Result Nat)}
    (goes : Copy.Goes target.backend target.file target.append place
      ⟨p.request, (w.answer id p.request c.world).1⟩ step) :
    Copy.Reaches w id σ (applied (w.content origin σ) (w.source origin) earlier)
      (if append then applied (w.content origin σ) (w.source origin) earlier else [])
      (w.source origin id) (w.answer id p.request c.world).2 step := by
  subst hσ
  have hhead := ho.front id target _ write rfl rfl
  rw [hw] at hhead
  cases hhead
  exact (h.latest id _ earlier hw hc _ (.waits target _ place write inbox)).acts goes rfl

/-- The archive acts on a request that does not touch the file: the copy of the latest winner comes
to what it came to before. -/
theorem Tallied.stays {origin : ε} (h : Tallied w origin σ c) (ho : Ordered σ c) {id : TaskId}
    {t : Task} {p : Pending Gateway} (task : c.gateway.task? id = some t)
    (pending : c.gateway.pending? id = some p)
    (huntouched : p.request.touched? (w.site? c.world) ≠ some σ)
    (hcopies : ¬ ∃ target lease place,
      t.write? = some (target, .copying (some lease) place) ∧ target.site = σ)
    (hgateway : c'.gateway = c.gateway) (hinbox : ∀ j, j ≠ id → c'.inbox j = c.inbox j)
    {i : TaskId} {append : Bool} {earlier : List (TaskId × Bool)}
    (hw : winners σ c.history = (i, append) :: earlier)
    (hc : ∀ j append', (j, append') ∈ earlier → c.HasCopied j)
    {step : Step Copy.Place (Result Nat)} (hcomes : c'.Comes i step) :
    Copy.Reaches w i σ (applied (w.content origin σ) (w.source origin) earlier)
      (if append then applied (w.content origin σ) (w.source origin) earlier else [])
      (w.source origin i) (w.answer id p.request c.world).2 step := by
  by_cases hid : i = id
  · subst hid
    obtain ⟨t', ht', hwon⟩ := ho.won i append (by rw [hw]; exact List.mem_cons_self)
    rw [task] at ht'
    cases ht'
    have hstill := hwon.still hcopies
    have hbefore : c.Comes i step := hcomes.of_still (hgateway ▸ task) hstill (by rw [hgateway])
    refine (h.latest i append earlier hw hc step hbefore).apart i p.request huntouched (Or.inl ?_)
    intro hr
    rw [copying_of_pull task pending hr] at hstill
    cases hstill
  · have hbefore : c.Comes i step := hcomes.of_eq (by rw [hgateway]) (hinbox i hid)
    exact (h.latest i append earlier hw hc step hbefore).apart id p.request huntouched (Or.inr hid)

/-- The archive acts on a request. -/
theorem Tallied.serves {origin : ε} (h : Tallied w origin σ c) (ho : Ordered σ c)
    (hs : Streamed w c) (hops : c.gateway.OnlyOperations) {id : TaskId} {t : Task}
    {p : Pending Gateway} (task : c.gateway.task? id = some t)
    (pending : c.gateway.pending? id = some p) (inbox : c.inbox id = none)
    (hintrudes : (Entry.served id t ⟨p.request, (w.answer id p.request c.world).1⟩).intrudes σ =
      false) (hgateway : c'.gateway = c.gateway)
    (hworld : c'.world = (w.answer id p.request c.world).2)
    (hinbox : c'.inbox =
      Function.update c.inbox id (some ⟨p.request, (w.answer id p.request c.world).1⟩))
    (hwinners : winners σ c'.history = winners σ c.history) : Tallied w origin σ c' := by
  have hwrite : c.gateway.write? id = t.write? :=
    Gateway.write?_eq task
  constructor
  · intro i hi
    rw [hgateway] at hi
    rw [hworld, ← h.whole i hi]
    -- an early task does not copy, so it takes nothing from its source
    refine w.unpulled id i p.request c.world ?_
    by_cases hid : i = id
    · left
      intro hr
      subst hid
      have hcopying := copying_of_pull task pending hr
      have hearly := hi t task
      rw [Task.not_early_of_copying hcopying] at hearly
      cases hearly
    · exact Or.inr hid
  · intro hnone
    rw [hwinners] at hnone
    rw [hworld, ← h.first hnone]
    -- nobody has won, so nobody copies into the file with a lease
    refine (w.apart id p.request c.world σ ?_).1
    refine hs.untouched hops task pending inbox hintrudes fun target lease place hplace hσ => ?_
    have hhead := ho.front id target _ (hwrite.trans hplace) hσ rfl
    rw [hnone] at hhead
    cases hhead
  · intro i append earlier hw hc step hcomes
    rw [hwinners] at hw
    have hc' : ∀ j append', (j, append') ∈ earlier → c.HasCopied j := by
      intro j append' hj
      obtain ⟨t', count, ht', hcount⟩ := hc j append' hj
      exact ⟨t', count, hgateway ▸ ht', hcount⟩
    rw [hworld]
    by_cases hcopies : ∃ target lease place,
        t.write? = some (target, .copying (some lease) place) ∧ target.site = σ
    · -- a copy with a lease is the one of the latest winner, and has just been given its answer
      obtain ⟨target, lease, place, hplace, hσ⟩ := hcopies
      have hself := hwrite.trans hplace
      have hhead := ho.front id target _ hself hσ rfl
      rw [hw] at hhead
      cases hhead
      rcases hcomes.copying (hgateway ▸ hself) with ⟨hnone, -⟩ | ⟨reply, hreply, goes⟩
      · rw [hinbox, Function.update_self] at hnone
        cases hnone
      · rw [hinbox, Function.update_self] at hreply
        cases hreply
        exact h.copies ho inbox hself hσ hw hc' goes
    · have huntouched := hs.untouched hops task pending inbox hintrudes
        fun target lease place hplace hσ => hcopies ⟨target, lease, place, hplace, hσ⟩
      refine h.stays ho task pending huntouched hcopies hgateway (fun j hj => ?_) hw hc' hcomes
      rw [hinbox, Function.update_of_ne hj]

/-- A write begins: it has not won yet. -/
theorem Tallied.begins {origin : ε} (h : Tallied w origin σ c) (ho : Ordered σ c)
    (hu : Unfolds w.toWorld c c') {id : TaskId} {t t' : Task} {reply : Reply} {s : Shared}
    (task : c.gateway.task? id = some t) (unwritten : t.write? = none)
    (unfinished : ∀ result, t ≠ .finished result)
    (hgateway : c'.gateway = ⟨s, c.gateway.tasks.set id t'⟩)
    (hinbox : c'.inbox = Function.update c.inbox id none) (hworld : c'.world = c.world)
    (hhistory : c'.history = .resumed id t reply :: c.history) : Tallied w origin σ c' := by
  have hwinners : winners σ c'.history = winners σ c.history := by
    rw [hhistory]
    exact winners_cons (Entry.winner?_unwritten unwritten)
  have hnew := ho.fresh_unwritten task unwritten unfinished
  refine h.looks_back ho hworld hwinners (fun i => hu.early) fun i append hmem step hc => ?_
  have hid : i ≠ id := fun heq => hnew append (heq ▸ hmem)
  refine hc.of_eq ?_ ?_
  · rw [hgateway, Gateway.task?_set task, Function.update_of_ne hid]
  · rw [hinbox, Function.update_of_ne hid]

theorem Tallied.unfolds {origin : ε} (h : Tallied w origin σ c) (ho : Ordered σ c)
    (hs : Streamed w c) (hops : c.gateway.OnlyOperations) (hu : Unfolds w.toWorld c c')
    (hreserved : Reserved σ c'.history) : Tallied w origin σ c' := by
  have hu' := hu
  cases hu with
  | rests _ rests => exact h.rests ho rests
  | serves id t p task pending inbox =>
    exact h.serves ho hs hops task pending inbox (hreserved _ List.mem_cons_self) rfl rfl rfl rfl
  | goes id handle target place reply step s s' t' task inbox move next agrees =>
    subst next
    by_cases hwins : (∃ a bid, place = .locking a (.activating bid)) ∧ target.site = σ
    · obtain ⟨⟨a, bid, rfl⟩, hσ⟩ := hwins
      have hstep := move.activating
      subst hstep
      exact h.wins ho task rfl rfl rfl hu' (winners_of_activating hσ)
    · exact h.goes ho hu' task inbox move rfl rfl rfl (winners_of_other hwins)
  | begins id t reply handle target place s task unwritten unfinished begins =>
    exact h.begins ho hu' task unwritten unfinished rfl rfl rfl rfl

/-! ## Runs -/

/-- Only operations run, nothing but leases touches the marker of a file, and nothing but the copies
of locked writes touches the file. Since no timer gives a lease up in such a scene, no lease expires
before its write has ended. -/
structure Undisturbed (w : Archive ε) (σ : Site) (c : Scene ε) : Prop where
  operations : c.gateway.OnlyOperations
  marker : ∀ τ, w.marker? σ = some τ → LeftAlone τ c.history
  file : Reserved σ c.history

theorem Undisturbed.of_changes (hc : Changes w.toWorld c c') (h : Undisturbed w σ c') :
    Undisturbed w σ c := by
  constructor
  · exact OnlyOperations.of_changes hc h.operations
  · intro τ hτ
    exact LeftAlone.of_changes (w := w.toRealm) hc (h.marker τ hτ)
  · cases hc with
    | nothing => exact h.file
    | starts => exact h.file
    | serves => exact h.file.of_cons
    | resumes => exact h.file.of_cons

/-- Everything that is known of the writes of a file. -/
structure Settled (w : Archive ε) (origin : ε) (σ : Site) (c : Scene ε) : Prop where
  leased : Leased w c
  streamed : Streamed w c
  ordered : Ordered σ c
  declining : c.Declining
  tallied : Tallied w origin σ c

theorem run_concat (w : World ε) (c : Scene ε) (events : List Event) (e : Event) :
    c.run w (events ++ [e]) = (c.run w events).step w e := by
  rw [run, List.foldl_append]
  rfl

theorem settled_run (writer : Diagnostics) (origin : ε) (events : List Event)
    (h : Undisturbed w σ ((start writer origin).run w.toWorld events)) :
    Settled w origin σ ((start writer origin).run w.toWorld events) := by
  -- on the run from its end: what the whole run leaves undisturbed, every beginning of it does
  induction events using List.reverseRecOn with
  | nil =>
    constructor
    · exact leased_start writer origin
    · intro i t place s τ hw
      cases hw
    · exact ordered_start writer origin
    · exact declining_start writer origin
    · exact tallied_start writer origin
  | append_singleton events e ih =>
    have hchanges := step_changes w.toWorld ((start writer origin).run w.toWorld events) e
    rw [← run_concat] at hchanges
    have hbefore := Undisturbed.of_changes hchanges h
    have hunfolds := unfolds_of_changes hchanges h.operations
    have hsettled := ih hbefore
    have hleased := leased_run (w := w) writer origin (events ++ [e]) h.operations
    have hstaked := fun τ hτ =>
      staked_run (w := w.toRealm) writer origin (events ++ [e]) (h.marker τ hτ)
    constructor
    · exact hleased
    · exact hsettled.streamed.unfolds hunfolds
    · exact hsettled.ordered.unfolds hleased hstaked hunfolds
    · exact hsettled.declining.unfolds hunfolds
    · exact hsettled.tallied.unfolds hsettled.ordered hsettled.streamed hbefore.operations
        hunfolds h.file

/-! ## Serialization -/

/-- A task has ended with an error, or has nothing left to wait for but a slot and then ends with
it. -/
def Refuses (c : Scene ε) (i : TaskId) (error : Error) : Prop :=
  c.gateway.result? i = some (.operated (.error error)) ∨
    ∃ p, c.gateway.pending? i = some p ∧ p.request = .slot ∧
      ∀ answer, (p.resume answer).result? i = some (.operated (.error error))

theorem Declines.refuses {i : TaskId} {marker : Path} (h : c.Declines i marker) :
    c.Refuses i (Write.taken marker) := by
  rcases h with hresult | ⟨t, a, hw, rfl⟩
  · exact Or.inl hresult
  · -- the slot is all that it waits for
    obtain ⟨handle, ht⟩ := Gateway.write?_task hw
    refine Or.inr ⟨_, Gateway.pending?_of_next ht rfl rfl, rfl, fun answer => ?_⟩
    rw [Gateway.result?_eq]
    simp only [Pending.map]
    rw [Gateway.task?_set ht, Function.update_self]
    rfl

/-- The locked writes of a file come one after the other.

* `exclusive`: while one write holds its lease, no other one opens or writes the file;
* `refused`: a write that finds the marker taken fails, and nothing is ever copied for it;
* `once`: no write acquires its lease twice;
* `whole`: if all writes that acquired their leases have succeeded, the file holds what is left of
  its first content when they are applied to it whole, in the order in which they acquired their
  leases. -/
structure Serialized (w : Archive ε) (origin : ε) (σ : Site) (c : Scene ε) : Prop where
  exclusive : ∀ i j t t' place lease place', c.gateway.write? i = some (t, place) →
    c.gateway.write? j = some (t', .copying (some lease) place') → t.site = σ → t'.site = σ →
    place.holds (c.inbox i) = true → j = i
  refused : ∀ e i marker, e ∈ c.history → e.refusal? = some (i, marker) →
    c.Refuses i (.lockNotAcquired marker "held by another writer") ∧
      ∀ t reply, .served i t reply ∈ c.history → t.isCopying = false
  once : ((winners σ c.history).map Prod.fst).Nodup
  whole : (∀ i append, (i, append) ∈ winners σ c.history →
      ∃ count, c.gateway.result? i = some (.operated (.ok (.copied count)))) →
    w.content c.world σ = applied (w.content origin σ) (w.source origin) (winners σ c.history)

theorem serialized_run (w : Archive ε) (writer : Diagnostics) (origin : ε) (events : List Event)
    (σ : Site) (h : Undisturbed w σ ((start writer origin).run w.toWorld events)) :
    Serialized w origin σ ((start writer origin).run w.toWorld events) := by
  have hsettled := settled_run writer origin events h
  have hstaked := fun τ hτ =>
    staked_run (w := w.toRealm) writer origin events (h.marker τ hτ)
  constructor
  · -- a write that copies with its lease holds it, and at most one does
    intro i j t t' place lease place' hi hj hσ hσ' hholds
    exact hsettled.leased.exclusive hstaked hj hi hσ' hσ rfl hholds
  · intro e i marker hmem he
    constructor
    · exact (hsettled.declining.declines e i marker hmem he).refuses
    · intro t reply hserved
      exact hsettled.declining.silent e i marker t reply hmem he hserved
  · exact hsettled.ordered.nodup
  · -- whoever has succeeded has copied to the end
    intro hall
    refine hsettled.tallied.content fun i append hmem => ?_
    obtain ⟨count, hcount⟩ := hall i append hmem
    exact ⟨_, count, Gateway.result?_eq.1 hcount, rfl⟩

/-- Two connections to one disk, through a store that creates exclusively and one that does not. -/
def office : Deployment where
  file := ⟨[{ ConnectionConfig.onDisk "s" "a" ⟨"/d"⟩ with
      lock := ⟨.marker, LockConfig.defaultExpiry⟩ },
    { ConnectionConfig.onDisk "s" "b" ⟨"/d/x"⟩ with lock := ⟨.marker, LockConfig.defaultExpiry⟩ }]⟩
  factories := Factories.empty.register .file fun config =>
    .ok (if config.name = "a" then ⟨0, diskIdentity, true⟩ else ⟨1, diskIdentity, false⟩)

/-- Three writes of one file under three names: the first one overwrites it, the second one finds
the marker taken, and the third one, which starts to lock the file when the first one is done,
appends. -/
def queue : List Event :=
  let write (name : String) (append : Bool) (path : String) : Event :=
    .call (.operate office ⟨"s", name⟩ (.write ⟨append, none⟩) ⟨path⟩)
  let goOn (id : TaskId) (times : Nat) : List Event :=
    (List.replicate times [.serve id, .deliver id]).flatten
  [write "a" false "out", write "b" true "../out", write "a" true "/d/./out"] ++
    goOn 0 1 ++ goOn 1 1 ++ goOn 2 1 ++ goOn 0 9 ++ goOn 1 4 ++ goOn 0 10 ++ goOn 2 25

/-- The disk before the queue: the file is not there, and the first source needs two pieces. -/
def blank : Memory :=
  .empty fun id => if id = 0 then [1, 2, 3, 4, 5] else if id = 1 then [6] else [7, 8]

theorem undisturbed_queue : Undisturbed Memory.archive ⟨diskIdentity, ⟨⟨"/d/out"⟩⟩⟩
    ((start ⟨"host", "10.0.0.1", 7⟩ blank).run Memory.archive.toWorld queue) := by
  refine ⟨by decide +kernel, fun τ hτ => ?_, by decide +kernel⟩
  have hmarker : Memory.archive.marker? ⟨diskIdentity, ⟨⟨"/d/out"⟩⟩⟩ =
      some ⟨diskIdentity, ⟨⟨"/d/out.lock"⟩⟩⟩ := by decide +kernel
  rw [hmarker] at hτ
  cases hτ
  decide +kernel

theorem serialized_run_queue :
    Undisturbed Memory.archive ⟨diskIdentity, ⟨⟨"/d/out"⟩⟩⟩
      ((start ⟨"host", "10.0.0.1", 7⟩ blank).run Memory.archive.toWorld queue) ∧
    Serialized Memory.archive blank ⟨diskIdentity, ⟨⟨"/d/out"⟩⟩⟩
      ((start ⟨"host", "10.0.0.1", 7⟩ blank).run Memory.archive.toWorld queue) :=
  ⟨undisturbed_queue, serialized_run Memory.archive _ blank queue _ undisturbed_queue⟩

end Scene

end FileGateway

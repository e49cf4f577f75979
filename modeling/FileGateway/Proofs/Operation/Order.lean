import Mathlib.Data.List.Nodup
import FileGateway.Proofs.Operation.Transfer

/-!
# The order of writes

The locked writes of a file in the order in which they acquired their leases, as the history of a
scene tells it. `Scene.Ordered` is the invariant: a write wins once, and a write that is between
its acquisition and the end of its copy is the latest winner, because at most one write holds its
lease at a time.
-/

namespace FileGateway

/-! ## Winners -/

/-- The write that has just acquired its lease, if this is what has happened: its task, and whether
it appends. -/
def Entry.winner? (σ : Site) : Entry → Option (TaskId × Bool)
  | resumed id t _ =>
    match t.write? with
    | some (target, .locking _ (.activating _)) =>
      if target.site = σ then some (id, target.append) else none
    | _ => none
  | served _ _ _ => none

/-- The writes of a file in the order in which they acquired their leases, the latest first. -/
def winners (σ : Site) (history : List Entry) : List (TaskId × Bool) :=
  history.filterMap (Entry.winner? σ)

theorem winners_cons {σ : Site} {e : Entry} {history : List Entry} (h : e.winner? σ = none) :
    winners σ (e :: history) = winners σ history :=
  List.filterMap_cons_none h

theorem Entry.winner?_unwritten {σ : Site} {id : TaskId} {t : Task} {reply : Reply}
    (h : t.write? = none) : (Entry.resumed id t reply).winner? σ = none := by
  simp [winner?, h]

/-- A write of a file whose lease becomes active wins. -/
theorem winners_of_activating {σ : Site} {id : TaskId} {handle : HandleId} {target : Write.Target}
    {a : Acquire} {bid : Acquire.Bid} {reply : Reply} {history : List Entry} (h : target.site = σ) :
    winners σ (.resumed id
      (.operating handle (.writing target (.locking a (.activating bid)))) reply :: history) =
        (id, target.append) :: winners σ history := by
  refine List.filterMap_cons_some ?_
  simp [Entry.winner?, Task.write?, h]

/-- No other move of a write wins anything. -/
theorem winners_of_other {σ : Site} {id : TaskId} {handle : HandleId} {target : Write.Target}
    {place : Write.Place} {reply : Reply} {history : List Entry}
    (h : ¬ ((∃ a bid, place = .locking a (.activating bid)) ∧ target.site = σ)) :
    winners σ (.resumed id (.operating handle (.writing target place)) reply :: history) =
      winners σ history := by
  refine winners_cons ?_
  simp only [Entry.winner?, Task.write?]
  split
  · next target' a bid heq =>
    cases heq
    exact if_neg fun hσ => h ⟨⟨a, bid, rfl⟩, hσ⟩
  · rfl

/-! ## Places of a write that has won -/

namespace Write.Place

/-- Whether a write is between its acquisition and the end of its copy. -/
def isInside : Place → Bool
  | locking _ .arming => true
  | copying (some _) _ => true
  | _ => false

/-- Whether a write has acquired its lease. -/
def hasWon : Place → Bool
  | locking _ .arming => true
  | copying (some _) _ => true
  | unlocking _ _ _ _ => true
  | _ => false

theorem holds_of_inside {place : Place} (h : place.isInside = true) (inbox : Option Reply) :
    place.holds inbox = true := by
  cases place with
  | locking a p => cases p <;> first | rfl | cases h
  | copying lease p => cases lease <;> first | rfl | cases h
  | unlocking lease marker p copied => cases h

end Write.Place

namespace Write

variable {writer : Diagnostics} {t : Target} {s s' : Shared} {place place' : Place} {reply : Reply}

/-- Whoever has started its timer has its lease. -/
theorem not_moves_arming {a : Acquire} {p : Acquire.Place}
    (h : (LeaseOp.acquire a .arming).Moves writer s reply (.paused (.acquire a p)) s') : False := by
  cases h

theorem Goes.won (h : Goes writer t s place reply (.paused place') s')
    (hw : place.hasWon = true) : place'.hasWon = true := by
  cases h with
  | locks a p p' reply s' move =>
    cases p with
    | arming => exact (not_moves_arming move).elim
    | _ => cases hw
  | copies lease p p' reply move =>
    cases lease with
    | none => cases hw
    | some lease => rfl
  | _ => rfl

/-- A write comes inside by winning. -/
theorem Goes.inside (h : Goes writer t s place reply (.paused place') s')
    (hi : place'.isInside = true) :
    place.isInside = true ∨ ∃ a bid, place = .locking a (.activating bid) := by
  cases h with
  | locks a p p' reply s' move =>
    right
    cases p' with
    | arming =>
      obtain ⟨bid, rfl⟩ := activating_of_moves move
      exact ⟨a, bid, rfl⟩
    | _ => cases hi
  | locked a s' move => exact Or.inl rfl
  | copies lease p p' reply move =>
    cases lease with
    | none => cases hi
    | some lease => exact Or.inl rfl
  | _ => cases hi

/-- A write whose lease becomes active has only its timer to start. -/
theorem Goes.activating {a : Acquire} {bid : Acquire.Bid} {step : Step Place (Except Error Nat)}
    (h : Goes writer t s (.locking a (.activating bid)) reply step s') :
    step = .paused (.locking a .arming) := by
  cases h with
  | locks a p p' reply s' move =>
    generalize hstep :
      (Step.paused (LeaseOp.acquire a p') : Step LeaseOp LeaseOp.Ending) = next at move
    cases move with
    | activated =>
      cases hstep
      rfl

end Write

/-- Whether a task has won a lease for a write of a file. A finished one may have. -/
def Task.HasWon (σ : Site) (append : Bool) (t : Task) : Prop :=
  (∃ result, t = .finished result) ∨ ∃ target place, t.write? = some (target, place) ∧
    place.hasWon = true ∧ target.site = σ ∧ target.append = append

namespace Scene

variable {ε : Type} {w : Archive ε} {c c' : Scene ε} {σ : Site}

/-- A write wins once, and a write that is between its acquisition and the end of its copy is the
latest winner. -/
structure Ordered (σ : Site) (c : Scene ε) : Prop where
  won : ∀ i append, (i, append) ∈ winners σ c.history →
    ∃ t, c.gateway.task? i = some t ∧ t.HasWon σ append
  nodup : ((winners σ c.history).map Prod.fst).Nodup
  front : ∀ i t place, c.gateway.write? i = some (t, place) → t.site = σ → place.isInside = true →
    (winners σ c.history).head? = some (i, t.append)

theorem ordered_start (writer : Diagnostics) (world : ε) : Ordered σ (start writer world) where
  won := fun i append h => by cases h
  nodup := List.nodup_nil
  front := fun i t place h => by cases h

theorem Rests.winners (hr : c.Rests c') : winners σ c'.history = winners σ c.history := by
  rcases hr.history with hsame | ⟨id, t, reply, hwrite, hcons⟩
  · rw [hsame]
  · rw [hcons, winners_cons (Entry.winner?_unwritten hwrite)]

/-- A task that has won is not changed by what leaves the writes alone, except in vain. -/
theorem Rests.won (hr : c.Rests c') {i : TaskId} {t : Task} {append : Bool}
    (ht : c.gateway.task? i = some t) (hw : t.HasWon σ append) :
    ∃ t', c'.gateway.task? i = some t' ∧ t'.HasWon σ append := by
  rcases hw with ⟨result, rfl⟩ | ⟨target, place, hwrite, hrest⟩
  · -- what has finished stays so
    have hresult := hr.finished i result (Gateway.result?_eq.2 ht)
    exact ⟨_, Gateway.result?_eq.1 hresult, Or.inl ⟨result, rfl⟩⟩
  · have hsame : c'.gateway.write? i = some (target, place) := by
      rw [hr.write?, Gateway.write?, ht]
      exact hwrite
    obtain ⟨t', ht', hwrite'⟩ := Option.bind_eq_some_iff.1 hsame
    exact ⟨t', ht', Or.inr ⟨target, place, hwrite', hrest⟩⟩

theorem Ordered.rests (h : Ordered σ c) (hr : c.Rests c') : Ordered σ c' := by
  constructor
  · intro i append hmem
    rw [hr.winners] at hmem
    obtain ⟨t, ht, hwon⟩ := h.won i append hmem
    exact hr.won ht hwon
  · rw [hr.winners]
    exact h.nodup
  · intro i t place hw
    rw [hr.write?] at hw
    rw [hr.winners]
    exact h.front i t place hw

/-- A write that is about to win has not won before. -/
theorem Ordered.fresh (h : Ordered σ c) {id : TaskId} {t : Task}
    (ht : c.gateway.task? id = some t) (hu : ∀ append, ¬ t.HasWon σ append) :
    ∀ append, (id, append) ∉ winners σ c.history := by
  intro append hmem
  obtain ⟨t', ht', hwon⟩ := h.won id append hmem
  rw [ht] at ht'
  cases ht'
  exact hu append hwon

theorem Ordered.fresh_activating (h : Ordered σ c) {id : TaskId} {handle : HandleId}
    {target : Write.Target} {a : Acquire} {bid : Acquire.Bid}
    (task : c.gateway.task? id =
      some (.operating handle (.writing target (.locking a (.activating bid))))) :
    ∀ append, (id, append) ∉ winners σ c.history := by
  refine h.fresh task fun append hw => ?_
  rcases hw with ⟨result, hresult⟩ | ⟨target', place', hw', hwon', -⟩
  · cases hresult
  · cases hw'
    cases hwon'

theorem Ordered.fresh_unwritten (h : Ordered σ c) {id : TaskId} {t : Task}
    (task : c.gateway.task? id = some t) (unwritten : t.write? = none)
    (unfinished : ∀ result, t ≠ .finished result) :
    ∀ append, (id, append) ∉ winners σ c.history := by
  refine h.fresh task fun append hw => ?_
  rcases hw with ⟨result, hresult⟩ | ⟨target', place', hw', -⟩
  · exact unfinished result hresult
  · rw [unwritten] at hw'
    cases hw'

/-- The task of a write after one of its moves. -/
theorem ofOperation_cases (handle : HandleId) (target : Write.Target)
    (step : Step Write.Place (Except Error Nat)) (s : Shared) :
    (∃ place, step = .paused place ∧
      (Task.ofOperation handle (Operation.writeStep target step) s).1 =
        .operating handle (.writing target place)) ∨
    ∃ result, step = .done result ∧
      (Task.ofOperation handle (Operation.writeStep target step) s).1 =
        .finished (.operated (result.map .copied)) := by
  cases step with
  | paused place => exact Or.inl ⟨place, rfl, rfl⟩
  | done result => exact Or.inr ⟨result, rfl, rfl⟩

/-- A write that goes on has won if it had won before. -/
theorem won_of_goes {handle : HandleId} {target : Write.Target} {place : Write.Place}
    {reply : Reply} {step : Step Write.Place (Except Error Nat)} {writer : Diagnostics}
    {s s' : Shared} {append : Bool} (move : Write.Goes writer target s place reply step s')
    (hw : (Task.operating handle (.writing target place)).HasWon σ append) :
    (Task.ofOperation handle (Operation.writeStep target step) s').1.HasWon σ append := by
  rcases hw with ⟨result, hresult⟩ | ⟨target', place', hwrite, hwon, hrest⟩
  · cases hresult
  · cases hwrite
    rcases ofOperation_cases handle target step s' with ⟨place', rfl, htask⟩ | ⟨result, rfl, htask⟩
    · rw [htask]
      exact Or.inr ⟨target, place', rfl, move.won hwon, hrest⟩
    · rw [htask]
      exact Or.inl ⟨_, rfl⟩

/-- All winners are winners still when a write goes on. -/
theorem Ordered.still_won (h : Ordered σ c) {id : TaskId} {handle : HandleId}
    {target : Write.Target} {place : Write.Place} {reply : Reply}
    {step : Step Write.Place (Except Error Nat)} {s s' : Shared}
    (task : c.gateway.task? id = some (.operating handle (.writing target place)))
    (move : Write.Goes c.gateway.shared.writer target c.gateway.shared place reply step s)
    (hgateway : c'.gateway = ⟨s', c.gateway.tasks.set id
      (Task.ofOperation handle (Operation.writeStep target step) s).1⟩) :
    ∀ i append, (i, append) ∈ winners σ c.history →
      ∃ t, c'.gateway.task? i = some t ∧ t.HasWon σ append := by
  intro i append hmem
  obtain ⟨t, ht, hw⟩ := h.won i append hmem
  rw [hgateway, Gateway.task?_set task _ s']
  by_cases hid : i = id
  · subst hid
    rw [task] at ht
    cases ht
    rw [Function.update_self]
    exact ⟨_, rfl, won_of_goes move hw⟩
  · rw [Function.update_of_ne hid]
    exact ⟨t, ht, hw⟩

/-- A lease becomes active: its write wins, and then it is the only one inside. -/
theorem Ordered.wins (h : Ordered σ c) (hl : Leased w c')
    (hs : ∀ τ, w.marker? σ = some τ → Staked w.toRealm c' τ) {id : TaskId} {handle : HandleId}
    {target : Write.Target} {a : Acquire} {bid : Acquire.Bid} {reply : Reply} {s s' : Shared}
    (hσ : target.site = σ)
    (task : c.gateway.task? id =
      some (.operating handle (.writing target (.locking a (.activating bid)))))
    (move : Write.Goes c.gateway.shared.writer target c.gateway.shared
      (.locking a (.activating bid)) reply (.paused (.locking a .arming)) s)
    (hgateway : c'.gateway = ⟨s', c.gateway.tasks.set id
      (.operating handle (.writing target (.locking a .arming)))⟩)
    (hhistory : c'.history = .resumed id
      (.operating handle (.writing target (.locking a (.activating bid)))) reply :: c.history) :
    Ordered σ c' := by
  have hwinners : winners σ c'.history = (id, target.append) :: winners σ c.history := by
    rw [hhistory]
    exact winners_of_activating hσ
  have hnew := h.fresh_activating task
  have htask : c'.gateway.task? id =
      some (.operating handle (.writing target (.locking a .arming))) := by
    rw [hgateway, Gateway.task?_set task, Function.update_self]
  have hinside : c'.gateway.write? id = some (target, .locking a .arming) :=
    Gateway.write?_eq htask
  constructor
  · intro i append hmem
    rw [hwinners] at hmem
    -- the winner is the new one, or an earlier one
    rcases List.mem_cons.1 hmem with heq | hmem
    · cases heq
      exact ⟨_, htask, Or.inr ⟨target, _, rfl, rfl, hσ, rfl⟩⟩
    · exact h.still_won task move hgateway i append hmem
  · rw [hwinners, List.map_cons, List.nodup_cons]
    refine ⟨fun hmem => ?_, h.nodup⟩
    obtain ⟨⟨i, append⟩, hmem', rfl⟩ := List.mem_map.1 hmem
    exact hnew append hmem'
  · -- nobody else is inside, since both would hold their leases
    intro i t place hi hσ' hplace
    have hsame : i = id := hl.exclusive hs hi hinside hσ' hσ
      (Write.Place.holds_of_inside hplace _) rfl
    subst hsame
    rw [hinside] at hi
    cases hi
    rw [hwinners]
    rfl

/-- A write goes on without winning: whoever is inside afterwards was inside before. -/
theorem Ordered.goes (h : Ordered σ c) {id : TaskId} {handle : HandleId}
    {target : Write.Target} {place : Write.Place} {reply : Reply}
    {step : Step Write.Place (Except Error Nat)} {s s' : Shared}
    (hother : ¬ ((∃ a bid, place = .locking a (.activating bid)) ∧ target.site = σ))
    (task : c.gateway.task? id = some (.operating handle (.writing target place)))
    (move : Write.Goes c.gateway.shared.writer target c.gateway.shared place reply step s)
    (hgateway : c'.gateway = ⟨s', c.gateway.tasks.set id
      (Task.ofOperation handle (Operation.writeStep target step) s).1⟩)
    (hhistory : c'.history = .resumed id (.operating handle (.writing target place)) reply ::
      c.history) : Ordered σ c' := by
  have hwinners : winners σ c'.history = winners σ c.history := by
    rw [hhistory]
    exact winners_of_other hother
  have hwrite : c'.gateway.write? = Function.update c.gateway.write? id
      (step.place?.map fun place => (target, place)) := by
    rw [hgateway, Gateway.write?_set task, Task.write?_ofOperation]
  have hself : c.gateway.write? id = some (target, place) :=
    Gateway.write?_eq task
  constructor
  · intro i append hmem
    rw [hwinners] at hmem
    exact h.still_won task move hgateway i append hmem
  · rw [hwinners]
    exact h.nodup
  · intro i t place' hi hσ hplace
    rw [hwinners]
    rw [hwrite] at hi
    by_cases hid : i = id
    · -- it came inside before, since it has not won just now
      subst hid
      rw [Function.update_self] at hi
      cases step with
      | done result => cases hi
      | paused place'' =>
        cases hi
        rcases move.inside hplace with hbefore | hactivating
        · exact h.front i _ place hself hσ hbefore
        · exact absurd ⟨hactivating, hσ⟩ hother
    · rw [Function.update_of_ne hid] at hi
      exact h.front i t place' hi hσ hplace

/-- A write begins: it has not won yet. -/
theorem Ordered.begins (h : Ordered σ c) {id : TaskId} {t : Task} {reply : Reply}
    {handle : HandleId} {target : Write.Target} {place : Write.Place} {s : Shared}
    {leases leases' : List Lease} (task : c.gateway.task? id = some t)
    (unwritten : t.write? = none) (unfinished : ∀ result, t ≠ .finished result)
    (begins : Write.Begins leases target place leases')
    (hgateway : c'.gateway =
      ⟨s, c.gateway.tasks.set id (.operating handle (.writing target place))⟩)
    (hhistory : c'.history = .resumed id t reply :: c.history) : Ordered σ c' := by
  have hwinners : winners σ c'.history = winners σ c.history := by
    rw [hhistory]
    exact winners_cons (Entry.winner?_unwritten unwritten)
  have hnew := h.fresh_unwritten task unwritten unfinished
  constructor
  · intro i append hmem
    rw [hwinners] at hmem
    have hid : i ≠ id := fun heq => hnew append (heq ▸ hmem)
    rw [hgateway, Gateway.task?_set task, Function.update_of_ne hid]
    exact h.won i append hmem
  · rw [hwinners]
    exact h.nodup
  · intro i t' place' hi hσ hplace
    rw [hgateway, Gateway.write?_set task] at hi
    rw [hwinners]
    by_cases hid : i = id
    · -- the new write is at the beginning of its acquisition, or copies without a lease
      rw [hid, Function.update_self] at hi
      cases hi
      cases begins with
      | locks => cases hplace
      | opens => cases hplace
    · rw [Function.update_of_ne hid] at hi
      exact h.front i t' place' hi hσ hplace

theorem Ordered.unfolds (h : Ordered σ c) (hl : Leased w c')
    (hs : ∀ τ, w.marker? σ = some τ → Staked w.toRealm c' τ) (hu : Unfolds w.toWorld c c') :
    Ordered σ c' := by
  cases hu with
  | rests _ rests => exact h.rests rests
  | serves id t p task pending inbox =>
    exact ⟨h.won, h.nodup, h.front⟩
  | goes id handle target place reply step s s' t' task inbox move next agrees =>
    subst next
    by_cases hwins : (∃ a bid, place = .locking a (.activating bid)) ∧ target.site = σ
    · obtain ⟨⟨a, bid, rfl⟩, hσ⟩ := hwins
      have hstep := move.activating
      subst hstep
      exact h.wins hl hs hσ task move rfl rfl
    · exact h.goes hwins task move rfl rfl
  | begins id t reply handle target place s task unwritten unfinished begins =>
    exact h.begins task unwritten unfinished begins rfl rfl

end Scene

end FileGateway

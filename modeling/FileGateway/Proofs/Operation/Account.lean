import FileGateway.Proofs.Gateway.Abiding
import FileGateway.Proofs.Operation.Retrieval
import FileGateway.Proofs.Operation.Write

/-!
# What operations tell of

An operation that ends well tells of what it is for, and of the bytes that it has moved
(`Action.Yields`): if what is read is collected, there are so many bytes in the collection. Account
of that is kept at each place that an operation comes to (`Task.Accounts`), whatever it is answered,
and whatever timers run meanwhile (`Gateway.Accounts.drive`).
-/

namespace FileGateway

open CommandLine (Transfer)

/-- What is read goes to a stream, or so many bytes of it have been collected. -/
def CommandLine.Transfer.Gathers (transfer : Transfer) (outlet? : Option StreamId) (count : Nat) :
    Prop :=
  match outlet? with
  | some id => transfer.target = .stream id
  | none => ∃ bytes, transfer.target = .collected bytes ∧ bytes.length = count

/-- What an action ends with, if it does not fail. -/
inductive Action.Yields (outlet? : Option StreamId) (transfer : Transfer) :
    Action → Effect → Prop where
  | present (found : Bool) : Yields outlet? transfer .probe (.present found)
  | deleted (found : Bool) : Yields outlet? transfer .delete (.deleted found)
  | written (mode : WriteMode) (count : Nat) : Yields outlet? transfer (.write mode) (.copied count)
  | read (count : Nat) (gathers : transfer.Gathers outlet? count) :
      Yields outlet? transfer .read (.copied count)

/-- How many bytes were brought to the sink. -/
def Read.Place.count : Read.Place → Nat
  | opening => 0
  | reading _ count | pushing _ count _ | flushing count => count

/-- How far the task of an operation has come. -/
def Task.Accounts (action : Action) (outlet? : Option StreamId) (transfer : Transfer) : Task → Prop
  | .operating _ (.resolving other _) => other = action ∧ transfer.Gathers outlet? 0
  | .operating _ (.probing _ _) => action = .probe
  | .operating _ (.deleting _ _) => action = .delete
  | .operating _ (.reading _ _ place) => action = .read ∧ transfer.Gathers outlet? place.count
  | .operating _ (.writing _ _) => ∃ mode, action = .write mode
  | .finished (.operated result) =>
    ∀ effect, result = .ok effect → action.Yields outlet? transfer effect
  | _ => False

variable {action : Action} {outlet? : Option StreamId} {transfer transfer' : Transfer}
  {v v' : Volume} {s : Shared}

/-- A piece was brought to the sink. -/
theorem gathers_of_push {piece : Bytes} {count : Nat} (h : transfer.Gathers outlet? count)
    (hanswer : diskWorld.answer 0 (.push piece) (transfer, v) = (.ok (), transfer', v')) :
    transfer'.Gathers outlet? (count + piece.length) := by
  cases outlet? with
  | some id =>
    obtain ⟨rfl, -⟩ := write_of_push h hanswer
    exact h
  | none =>
    obtain ⟨bytes, htarget, rfl⟩ := h
    simp only [diskWorld, CommandLine.answer, CommandLine.push, htarget] at hanswer
    cases hanswer
    exact ⟨bytes ++ piece, rfl, List.length_append⟩

namespace Task

/-- An operation is under way, or it has ended with what it tells of. -/
theorem Accounts.ended {t : Task} (h : t.Accounts action outlet? transfer) :
    (∃ id place, t = .operating id place) ∨ ∃ result, t = .finished (.operated result) ∧
      ∀ effect, result = .ok effect → action.Yields outlet? transfer effect := by
  cases t with
  | operating id place => exact .inl ⟨id, place, rfl⟩
  | finished result =>
    cases result with
    | operated result => exact .inr ⟨result, rfl, h⟩
    | _ => exact h.elim
  | _ => exact h.elim

theorem accounts_ofOperation {id : HandleId} {step : Step Operation.Place (Except Error Effect)}
    (hpaused : ∀ place, step = .paused place →
      (operating id place).Accounts action outlet? transfer)
    (hdone : ∀ effect, step = .done (.ok effect) → action.Yields outlet? transfer effect)
    (s : Shared) : (ofOperation id step s).1.Accounts action outlet? transfer := by
  cases step with
  | paused place => exact hpaused place rfl
  | done result =>
    intro effect heffect
    exact hdone effect (congrArg Step.done heffect)

/-- The path of the file is resolved, or not. -/
theorem accounts_resolving {id : HandleId} {r : Resolve} (hgathers : transfer.Gathers outlet? 0)
    {p : Pending (Shared → Task × Shared)}
    (hp : (operating id (.resolving action r)).next? s = some p) {answer : p.request.Answer}
    (hanswer : diskWorld.answer 0 p.request (transfer, v) = (answer, transfer', v')) :
    (p.resume answer s).1.Accounts action outlet? transfer' := by
  cases hp
  obtain ⟨rfl, -⟩ := reply_of_answer hanswer
  rcases answer with f | file
  · exact fun _ heffect => by cases heffect
  · simp only [Operation.next, Pending.map, Resolve.next, Resolve.succeed, Operation.resolveStep,
      Operation.resolved]
    cases (s.modifyHandle r.handle _).handle? id with
    | none => exact fun _ heffect => by cases heffect
    | some h =>
      cases action with
      | probe => rfl
      | delete => rfl
      | read => exact ⟨rfl, hgathers⟩
      | write mode =>
        simp only
        generalize (Write.start _ _ _ _).1 = step
        refine accounts_ofOperation (fun place hplace => ?_) (fun effect heffect => ?_) _
        · cases step with
          | paused place' =>
            cases hplace
            exact ⟨mode, rfl⟩
          | done result => cases hplace
        · rcases step with place' | e | count
          · cases heffect
          · cases heffect
          · cases heffect
            exact .written mode count

/-- The read of a file makes a move. -/
theorem accounts_reading {id : HandleId} {backend : Backend} {file : FileRef} {place : Read.Place}
    (hgathers : transfer.Gathers outlet? place.count) {p : Pending (Shared → Task × Shared)}
    (hp : (operating id (.reading backend file place)).next? s = some p)
    {answer : p.request.Answer}
    (hanswer : diskWorld.answer 0 p.request (transfer, v) = (answer, transfer', v')) :
    (p.resume answer s).1.Accounts .read outlet? transfer' := by
  have hfailed : ∀ {f : Failure}, (ofOperation id
      (.done (Operation.onFile file .copied (.error f))) s).1.Accounts .read outlet? transfer' :=
    fun _ heffect => by cases heffect
  cases hp
  cases place with
  | opening =>
    obtain ⟨rfl, -⟩ := reply_of_answer hanswer
    rcases answer with f | stream
    · exact hfailed
    · exact ⟨rfl, hgathers⟩
  | reading stream count =>
    obtain ⟨rfl, -⟩ := reply_of_answer hanswer
    rcases answer with f | (_ | ⟨first, rest⟩)
    · exact hfailed
    · exact ⟨rfl, hgathers⟩
    · exact ⟨rfl, hgathers⟩
  | pushing stream count piece =>
    rcases answer with f | _
    · exact hfailed
    · exact ⟨rfl, gathers_of_push hgathers hanswer⟩
  | flushing count =>
    cases hanswer
    intro effect heffect
    cases heffect
    exact .read count hgathers

theorem Accounts.next? {t : Task} (h : t.Accounts action outlet? transfer)
    {p : Pending (Shared → Task × Shared)} (hp : t.next? s = some p) {answer : p.request.Answer}
    (hanswer : diskWorld.answer 0 p.request (transfer, v) = (answer, transfer', v')) :
    (p.resume answer s).1.Accounts action outlet? transfer' := by
  cases t with
  | operating id place =>
    cases place with
    | resolving other r =>
      obtain ⟨rfl, hgathers⟩ := h
      exact accounts_resolving hgathers hp hanswer
    | probing backend file =>
      have haction : action = .probe := h
      subst haction
      cases hp
      intro effect heffect
      rcases answer with f | found
      · cases heffect
      · cases heffect
        exact .present found
    | deleting backend file =>
      have haction : action = .delete := h
      subst haction
      cases hp
      intro effect heffect
      rcases answer with f | found
      · cases heffect
      · cases heffect
        exact .deleted found
    | reading backend file place =>
      obtain ⟨rfl, hgathers⟩ := h
      exact accounts_reading hgathers hp hanswer
    | writing t place =>
      obtain ⟨mode, rfl⟩ := h
      obtain ⟨step, s', -, hresume⟩ := goes_of_write hp answer
      rw [hresume]
      refine accounts_ofOperation (fun place hplace => ?_) (fun effect heffect => ?_) s'
      · cases step with
        | paused place' =>
          cases hplace
          exact ⟨mode, rfl⟩
        | done result => cases hplace
      · rcases step with place' | e | count
        · cases heffect
        · cases heffect
        · cases heffect
          exact .written mode count
  | finished result => cases hp
  | _ => exact h.elim

/-- A task that is idle has no part in the transfer. -/
theorem IsIdle.untransferred {t : Task} (h : t.IsIdle) {p : Pending (Shared → Task × Shared)}
    (hp : t.next? s = some p) {answer : p.request.Answer}
    (hanswer : diskWorld.answer 0 p.request (transfer, v) = (answer, transfer', v')) :
    transfer' = transfer := by
  cases t with
  | expiring lease place =>
    cases hp
    cases place with
    | removing removal => exact (reply_of_answer hanswer).1
    | _ =>
      cases hanswer
      rfl
  | finished result => cases hp
  | _ => exact h.elim

end Task

namespace Gateway

/-- One task of a gateway keeps account of an operation, and all others are idle. -/
structure Accounts (own : TaskId) (action : Action) (outlet? : Option StreamId) (g : Gateway)
    (transfer : Transfer) : Prop where
  task : ∃ t, g.task? own = some t ∧ t.Accounts action outlet? transfer
  idle : ∀ id t, g.task? id = some t → id ≠ own → t.IsIdle

variable {own : TaskId} {g : Gateway}

theorem Accounts.fire (h : g.Accounts own action outlet? transfer) (id : LeaseId) :
    (g.fire id).Accounts own action outlet? transfer := by
  obtain ⟨t, ht, haccounts⟩ := h.task
  rcases g.tasks_fire id with hsame | hgrown
  · exact ⟨⟨t, (congrArg (·[own]?) hsame).trans ht, haccounts⟩,
      fun n u hu => h.idle n u ((congrArg (·[n]?) hsame).symm.trans hu)⟩
  · have htasks := task?_concat hgrown
    have hown : own ≠ g.tasks.length := Nat.ne_of_lt (List.getElem?_eq_some_iff.1 ht).1
    refine ⟨⟨t, ?_, haccounts⟩, ?_⟩
    · rw [htasks, Function.update_of_ne hown]
      exact ht
    · rw [htasks]
      exact Undertakes.forall_update h.idle fun _ => trivial

theorem Accounts.resume (h : g.Accounts own action outlet? transfer) {id : TaskId}
    {p : Pending Gateway} (hp : g.pending? id = some p) {answer : p.request.Answer}
    (hanswer : diskWorld.answer 0 p.request (transfer, v) = (answer, transfer', v')) :
    (p.resume answer).Accounts own action outlet? transfer' := by
  obtain ⟨t, q, ht, hq, -, rfl⟩ := pending?_eq hp
  have htasks := task?_set ht (q.resume answer g.shared).1 (q.resume answer g.shared).2
  obtain ⟨u, hu, haccounts⟩ := h.task
  by_cases hid : id = own
  · subst hid
    cases ht.symm.trans hu
    refine ⟨⟨_, (congrFun htasks id).trans (Function.update_self _ _ _),
      haccounts.next? hq hanswer⟩, fun n t' ht' => ?_⟩
    exact Undertakes.forall_update h.idle (fun hne => absurd rfl hne) n t'
      ((congrFun htasks n).symm.trans ht')
  · have hidle := h.idle id t ht hid
    have hsame : transfer' = transfer := hidle.untransferred hq hanswer
    subst hsame
    refine ⟨⟨u, ?_, haccounts⟩, fun n t' ht' => ?_⟩
    · exact (congrFun htasks own).trans ((Function.update_of_ne (Ne.symm hid) _ _).trans hu)
    · exact Undertakes.forall_update h.idle (fun _ => hidle.next? hq answer) n t'
        ((congrFun htasks n).symm.trans ht')

/-- Account is kept while the gateway is driven. -/
theorem Accounts.drive (h : g.Accounts own action outlet? transfer) {clock : StateM Volume Instant}
    (hclock : ∀ v, (clock v).2 = v) (id : TaskId) (fuel : Nat) (v : Volume) :
    (g.driveOnDisk clock id fuel transfer v).1.1.Accounts own action outlet?
      (g.driveOnDisk clock id fuel transfer v).1.2 :=
  drive_induction hclock (I := fun g transfer _ => g.Accounts own action outlet? transfer)
    (fun _ h => ⟨h.task, h.idle⟩) (fun id h => h.fire id) (fun h hp hanswer => h.resume hp hanswer)
    id fuel h

end Gateway

end FileGateway

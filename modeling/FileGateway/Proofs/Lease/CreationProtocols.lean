import FileGateway.Proofs.Gateway.Lasting
import FileGateway.Proofs.Lease.Alone
import FileGateway.Proofs.Lease.Lifecycle

/-!
# Two protocols of marker creation

A lease event is what is done with leases on the local disk by one caller at a time: a lease is
made, acquired, released, or given up by its timer. Between these events others may create,
overwrite and delete files as they like.

What a sequence of events comes to, the moments apart at which it happens, is a function of the
sequence alone: `LeaseEvent.outline` follows a run of a gateway step by step
(`LeaseEvent.outline_run`). How markers are created does not show in it; so a disk that creates them
exclusively and a disk that looks for them first agree on every sequence of events
(`LeaseEvent.agree_runAll`).
-/

namespace FileGateway

open CommandLine (Transfer)

/-- The local disk without its exclusive create: a marker is looked for and then created. -/
def Backend.diskChecking : Backend :=
  { Backend.disk with exclusiveCreate := false }

/-- What is done by one caller, or by others in between. A lease that is to `expire` does so if its
timer was started: time passes until that is due, and it runs. Others create, overwrite and delete
files. -/
inductive LeaseEvent where
  | lease (target : Path)
  | acquire (lease : LeaseId) (options : Options) (expiry : Duration)
  | release (lease : LeaseId) (strict : Bool)
  | expire (lease : LeaseId)
  | write (place : Place) (content : Bytes)
  | delete (place : Place)

/-- The moment at which a timer is due. -/
def Timer.deadline? : Timer → Option Instant
  | armed deadline => some deadline
  | _ => none

namespace LeaseEvent

/-- No event takes more answers. -/
def limit : Nat := 10

/-- The moments at which the requests of an event are answered. -/
def moments (clock : Nat → Instant) : List Instant :=
  (List.range limit).map clock

/-- The moment at which the timer of a lease is due, or the present. -/
def deadline (s : Shared) (id : LeaseId) : Instant :=
  ((s.lease? id).bind fun l => l.timer.deadline?).getD s.now

/-- Changes the tree of a volume. -/
def onTree (change : FileTree → FileTree) (run : Run (Transfer × Volume)) :
    Run (Transfer × Volume) :=
  { run with world := (run.world.1, { run.world.2 with tree := change run.world.2.tree }) }

/-- Runs an event to its end. -/
def run (backend : Backend) (clock : Nat → Instant) (run : Run (Transfer × Volume)) :
    LeaseEvent → Run (Transfer × Volume)
  | lease target =>
    match run.gateway.addLease target with
    | .ok (_, g) => { run with gateway := g }
    | .error _ => run
  | acquire id options expiry =>
    let (task, g) := run.gateway.acquire id backend options expiry
    Run.carry diskWorld task { run with gateway := g } (moments clock)
  | release id strict =>
    let (task, g) := run.gateway.release id strict
    Run.carry diskWorld task { run with gateway := g } (moments clock)
  | expire id =>
    let run := run.advanceTo (deadline run.gateway.shared id)
    Run.carry diskWorld run.gateway.tasks.length { run with gateway := run.gateway.fire id }
      (moments clock)
  | write place content => onTree (fun tree => tree.put place (.file content)) run
  | delete place => onTree (fun tree => tree.erase place) run

end LeaseEvent

/-! ## Outlines -/

/-- A timer without its deadline. -/
def Timer.untimed : Timer → Timer
  | armed _ => armed 0
  | timer => timer

/-- A lease without its deadline and the store through which it was acquired. -/
def Lease.shape (l : Lease) : Lease :=
  { l with
    held := l.held.map fun held => { held with backend := default }
    timer := l.timer.untimed }

/-- What a call about a lease was answered: yes, no, or an error of some code. -/
def TaskResult.kind : TaskResult → Option (Except ErrorCode Bool)
  | acquired result => some (result.mapError Error.code)
  | released result => some (result.mapError Error.code)
  | releasedStrictly result => some ((result.map fun _ => true).mapError Error.code)
  | expired result => some (result.mapError fun _ => .filesystemError)
  | _ => none

/-- What the call of a task was answered, if it was. -/
def Task.kind? : Task → Option (Except ErrorCode Bool)
  | finished result => result.kind
  | _ => none

/-- What there is to be seen of a gateway and its volume, the moments apart. The answers are those
of each task. -/
structure Outline where
  answers : List (Option (Except ErrorCode Bool))
  leases : List Lease
  tree : FileTree
  here : Place
  writer : Diagnostics

namespace Outline

/-- The volume of an outline. -/
def volume (o : Outline) : Volume :=
  .ofTree o.tree o.here

/-- One more task was answered. -/
def answered (o : Outline) (answer : Except ErrorCode Bool) : Outline :=
  { o with answers := o.answers ++ [some answer] }

/-- Changes a lease. -/
def modify (o : Outline) (id : LeaseId) (change : Lease → Lease) : Outline :=
  { o with leases := o.leases.modify id change }

/-- An active lease is given up. -/
def giveUp (o : Outline) (id : LeaseId) (forced : Bool)
    (answer : Result Bool → Except ErrorCode Bool) : Outline :=
  match (o.leases[id]?).bind Lease.held with
  | none =>
    (o.modify id fun l =>
      { l with state := .released, timer := if forced then .fired else l.timer }).answered
      (answer (.ok true))
  | some held =>
    let removed := DiskStore.reply (.delete held.marker) o.volume
    { (o.modify id fun l =>
        { l with
          state := .released
          held := none
          timer := if forced then .fired else .cancelled }).answered (answer removed.1) with
      tree := removed.2.tree }

end Outline

/-- The outline of a run. -/
def Run.outline (run : Run (Transfer × Volume)) : Outline where
  answers := run.gateway.tasks.map Task.kind?
  leases := run.gateway.shared.leases.map Lease.shape
  tree := run.world.2.tree
  here := run.world.2.here
  writer := run.gateway.shared.writer

namespace LeaseEvent

/-- What an event comes to. -/
def outline (o : Outline) : LeaseEvent → Outline
  | lease target =>
    match Lease.fresh target with
    | .ok l => { o with leases := o.leases ++ [l] }
    | .error _ => o
  | acquire id _ _ =>
    match o.leases[id]? with
    | none => o.answered (.ok false)
    | some l =>
      if l.state = .idle then
        match o.volume.standing l.marker with
        | .barred => o.answered (.error .filesystemError)
        | .taken => o.answered (.ok false)
        | .vacant place =>
          { (o.modify id fun l =>
              { l with
                held := some ⟨default, .ofNames place⟩
                state := .active
                timer := l.timer.arm 0 }).answered (.ok true) with
            tree := o.tree.put place (.file o.writer.text.toUTF8.toList) }
      else o.answered (.error .lockAcquisitionFailed)
  | release id strict =>
    match o.leases[id]? with
    | none => o.answered (if strict then .error .lockReleaseFailed else .ok false)
    | some l =>
      if l.state = .active then
        o.giveUp id false fun removed =>
          (removed.map fun _ => true).mapError fun _ => .filesystemError
      else o.answered (if strict then .error .lockReleaseFailed else .ok false)
  | expire id =>
    match o.leases[id]? with
    | none => o
    | some l =>
      if l.timer = .armed 0 then
        if l.state = .active then
          o.giveUp id true fun removed => removed.mapError fun _ => .filesystemError
        else o.modify id fun l => { l with timer := .fired }
      else o
  | write place content => { o with tree := o.tree.put place (.file content) }
  | delete place => { o with tree := o.tree.erase place }

/-! ## Runs follow their outline -/

/-- What holds between events: there are only files and directories, and nobody is about. -/
structure Sound (run : Run (Transfer × Volume)) : Prop where
  plain : run.world.2.tree.Plain
  free : run.gateway.shared.guards.Free

/-- A run is sound and has an outline. -/
def Follows (run : Run (Transfer × Volume)) (o : Outline) : Prop :=
  Sound run ∧ run.outline = o

variable {x : Solo} {tasks : List Task} {task : Task} {due : List (TaskId × Instant)}
  {s : Shared} {transfer : Transfer} {volume : Volume} {id : LeaseId}

theorem follows_among {o : Outline} (hplain : x.volume.tree.Plain) (hfree : x.shared.guards.Free)
    (answers : tasks.map Task.kind? ++ [task.kind?] = o.answers)
    (leases : x.shared.leases.map Lease.shape = o.leases) (tree : x.volume.tree = o.tree)
    (here : x.volume.here = o.here) (writer : x.shared.writer = o.writer) :
    Follows (x.among tasks task due) o := by
  refine ⟨⟨hplain, hfree⟩, ?_⟩
  obtain ⟨oAnswers, oLeases, oTree, oHere, oWriter⟩ := o
  cases answers
  cases leases
  cases tree
  cases here
  cases writer
  simp [Run.outline, Solo.among]

/-- A call that is answered at once follows an outline. -/
theorem follows_finished {result : TaskResult} {o : Outline} (hplain : x.volume.tree.Plain)
    (hfree : x.shared.guards.Free) (moments : List Instant)
    (answers : tasks.map Task.kind? ++ [result.kind] = o.answers)
    (leases : x.shared.leases.map Lease.shape = o.leases) (tree : x.volume.tree = o.tree)
    (here : x.volume.here = o.here) (writer : x.shared.writer = o.writer) :
    Follows (Run.carry diskWorld tasks.length (x.among tasks (.finished result) due) moments)
      o := by
  obtain ⟨now, hcarry⟩ := x.carry_finished tasks result due moments
  rw [hcarry]
  exact follows_among hplain hfree answers leases tree here writer

theorem length_moments (clock : Nat → Instant) : limit ≤ (moments clock).length := by
  simp [moments]

theorem volume_standing (path : Path) :
    (Run.outline ⟨⟨s, tasks⟩, (transfer, volume), due⟩).volume.standing path =
      volume.standing path := by
  refine Volume.standing_congr ?_ ?_ path <;> rfl

/-! ## Leases that are acquired and given up -/

/-- Whoever goes without a lease has left it as it was. -/
theorem leases_left {leases : List Lease} {l : Lease} (hl : leases[id]? = some l)
    (hidle : l.state = .idle) :
    ((leases.modify id fun l => { l with state := .acquiring }).modify id fun l =>
      { l with state := .idle }) = leases := by
  rw [List.modify_modify_eq]
  refine LeaseOp.modify_eq_self fun l' hl' => ?_
  cases hl.symm.trans hl'
  obtain ⟨target, marker, state, held, timer⟩ := l
  cases hidle
  rfl

/-- Neither the store nor the deadline of a lease that was acquired shows in its shape. -/
theorem shape_won (leases : List Lease) (id : LeaseId) (backend : Backend)
    (place : FileGateway.Place) (deadline : Instant) :
    ((leases.modify id fun l => { l with state := .acquiring }).modify id fun l =>
        { l with
          held := some ⟨backend, .ofNames place⟩
          state := .active
          timer := l.timer.arm deadline }).map Lease.shape =
      (leases.map Lease.shape).modify id fun l =>
        { l with
          held := some ⟨default, .ofNames place⟩
          state := .active
          timer := l.timer.arm 0 } := by
  rw [List.modify_modify_eq]
  refine map_modify (fun l => ?_) _ _
  obtain ⟨target, marker, state, held, timer⟩ := l
  cases timer <;> rfl

theorem shape_givenUp (leases : List Lease) (id : LeaseId) (forced : Bool) :
    ((leases.modify id fun l =>
        { l with state := .released, timer := if forced then .fired else l.timer }).modify id
          fun l => { l with held := none, timer := if forced then l.timer else .cancelled }).map
            Lease.shape =
      (leases.map Lease.shape).modify id fun l =>
        { l with
          state := .released
          held := none
          timer := if forced then .fired else .cancelled } := by
  rw [List.modify_modify_eq]
  refine map_modify (fun l => ?_) leases id
  cases forced <;> rfl

/-- An acquisition as a task. -/
theorem next?_acquiring (a : Acquire) (s : Shared) (place : Acquire.Place) :
    (Task.acquiring a place).next? s = some ((a.next s.writer place).map fun move s =>
      Solo.taskOf (.acquiring a) (fun r s => (.acquired r, s)) (move s)) := by
  refine congrArg (fun go => some ((a.next s.writer place).map go)) ?_
  funext move s
  obtain ⟨step, s'⟩ := move s
  cases step <;> rfl

theorem follows_acquire (hplain : volume.tree.Plain) (hfree : s.guards.Free) (backend : Backend)
    (clock : Nat → Instant) (options : Options) (expiry : Duration) :
    Follows (run backend clock ⟨⟨s, tasks⟩, (transfer, volume), due⟩ (.acquire id options expiry))
      (outline (Run.outline ⟨⟨s, tasks⟩, (transfer, volume), due⟩)
        (.acquire id options expiry)) := by
  have hleases : (Run.outline ⟨⟨s, tasks⟩, (transfer, volume), due⟩).leases[id]? =
      (s.lease? id).map Lease.shape :=
    List.getElem?_map ..
  simp only [run, Gateway.acquire, Gateway.add, outline, hleases, volume_standing]
  cases hl : s.lease? id with
  | none =>
    simp only [Acquire.start, hl]
    exact follows_finished (x := ⟨s, transfer, volume⟩) hplain hfree _ rfl rfl rfl rfl rfl
  | some l =>
    simp only [Acquire.start, hl, Option.map_some, Option.getD_some]
    by_cases hidle : l.state = .idle
    · have hshape : l.shape.state = .idle := hidle
      rw [if_pos hidle, if_pos hshape]
      have hled := Acquire.leads (a := ⟨id, l.marker, backend, options, expiry⟩)
        (x := ⟨s.modifyLease id fun l => { l with state := .acquiring }, transfer, volume⟩)
        hplain hfree
      obtain ⟨r, y, now, hended, hcarry⟩ :=
        hled.carry (next?_acquiring _) tasks due (length_moments clock)
      refine hcarry.symm ▸ ?_
      have hleft := leases_left hl hidle
      cases hended with
      | failed now' guards f free standing =>
        have hstanding : volume.standing l.shape.marker = .barred := standing
        rw [hstanding]
        exact follows_among hplain free rfl (congrArg _ hleft) rfl rfl rfl
      | lost now' guards free standing =>
        have hstanding : volume.standing l.shape.marker = .taken := standing
        rw [hstanding]
        exact follows_among hplain free rfl (congrArg _ hleft) rfl rfl rfl
      | won now' deadline guards place streams free standing finds unbarred vacant =>
        have hstanding : volume.standing l.shape.marker = .vacant place := standing
        rw [hstanding]
        exact follows_among (hplain.put_file place _) free rfl
          (shape_won s.leases id backend place deadline) rfl rfl rfl
    · have hshape : ¬ l.shape.state = .idle := hidle
      rw [if_neg hidle, if_neg hshape]
      exact follows_finished (x := ⟨s, transfer, volume⟩) hplain hfree _ rfl rfl rfl rfl rfl

/-- A lease that has left the active stage is given up, whoever gives it up. -/
theorem follows_giveUp (hplain : volume.tree.Plain) (hfree : s.guards.Free) {l : Lease}
    (hl : s.lease? id = some l) (forced : Bool) {widen : Surrender.Place → Task}
    {result : Result Bool → TaskResult} {answer : Result Bool → Except ErrorCode Bool}
    (hnext : ∀ s place, (widen place).next? s =
      some ((Surrender.next ⟨id, forced⟩ place).map fun move s =>
        Solo.taskOf widen (fun r s => (result r, s)) (move s)))
    (hanswer : ∀ r, (result r).kind = some (answer r)) (clock : Nat → Instant) :
    Follows
      (Run.carry diskWorld tasks.length
        (Solo.among
          ⟨s.modifyLease id fun l =>
              { l with state := .released, timer := if forced then .fired else l.timer },
            transfer, volume⟩ tasks (widen .taking) due)
        (moments clock))
      ((Run.outline ⟨⟨s, tasks⟩, (transfer, volume), due⟩).giveUp id forced answer) := by
  have hled := Surrender.leads (r := ⟨id, forced⟩)
    (x := ⟨s.modifyLease id fun l =>
      { l with state := .released, timer := if forced then .fired else l.timer },
      transfer, volume⟩)
  obtain ⟨r, y, now, hended, hcarry⟩ :=
    (hled.mono (Nat.le_add_left 5 5)).carry hnext tasks due (length_moments clock)
  refine hcarry.symm ▸ ?_
  have hl' : s.leases[id]? = some l := hl
  have hlease : ((s.modifyLease id fun l =>
      { l with state := .released, timer := if forced then .fired else l.timer }).lease? id).bind
        Lease.held = l.held := by
    simp [Shared.lease?, Shared.modifyLease, hl']
  have hshape : ((s.leases.map Lease.shape)[id]?).bind Lease.held =
      l.held.map fun held => { held with backend := default } := by
    simp [hl', Lease.shape]
  have hkind : ∀ r, tasks.map Task.kind? ++ [(Task.finished (result r)).kind?] =
      tasks.map Task.kind? ++ [some (answer r)] :=
    fun r => congrArg (fun kind => tasks.map Task.kind? ++ [kind]) (hanswer r)
  cases hended with
  | nothing now' free =>
    have hheld : l.held = none := hlease.symm.trans free
    rw [hheld] at hshape
    simp only [Outline.giveUp, Run.outline, hshape, Option.map_none]
    refine follows_among hplain hfree (hkind _) ?_ rfl rfl rfl
    refine map_modify (fun l => ?_) s.leases id
    cases forced <;> rfl
  | removed now' held holds =>
    have hheld : l.held = some held := hlease.symm.trans holds
    rw [hheld] at hshape
    simp only [Outline.giveUp, Run.outline, hshape, Option.map_some]
    obtain ⟨hsame, htree⟩ := DiskStore.reply_delete_congr held.marker (v := volume)
      (w := .ofTree volume.tree volume.here) rfl rfl
    refine follows_among (DiskStore.reply_delete_plain hplain) hfree ?_ ?_ htree
      (DiskStore.reply_delete_here _ _) rfl
    · rw [hsame]
      exact hkind _
    · exact shape_givenUp s.leases id forced

/-- A release as a task. -/
theorem next?_releasing (id : LeaseId) (marker : Path) (strict : Bool) (s : Shared)
    (place : Surrender.Place) :
    (Task.releasing id marker strict place).next? s =
      some ((Surrender.next ⟨id, false⟩ place).map fun move s =>
        Solo.taskOf (.releasing id marker strict)
          (fun r s => (Task.releaseResult marker strict (Release.result marker r), s))
          (move s)) := by
  refine congrArg (fun go => some ((Surrender.next ⟨id, false⟩ place).map go)) ?_
  funext move s
  obtain ⟨step, s'⟩ := move s
  cases step <;> rfl

/-- What the timer does as a task. -/
theorem next?_expiring (id : LeaseId) (s : Shared) (place : Surrender.Place) :
    (Task.expiring id place).next? s =
      some ((Surrender.next ⟨id, true⟩ place).map fun move s =>
        Solo.taskOf (.expiring id) (fun r s => (.expired r, s)) (move s)) := by
  refine congrArg (fun go => some ((Surrender.next ⟨id, true⟩ place).map go)) ?_
  funext move s
  obtain ⟨step, s'⟩ := move s
  cases step <;> rfl

theorem follows_release (hplain : volume.tree.Plain) (hfree : s.guards.Free) (backend : Backend)
    (clock : Nat → Instant) (strict : Bool) :
    Follows (run backend clock ⟨⟨s, tasks⟩, (transfer, volume), due⟩ (.release id strict))
      (outline (Run.outline ⟨⟨s, tasks⟩, (transfer, volume), due⟩) (.release id strict)) := by
  have hleases : (Run.outline ⟨⟨s, tasks⟩, (transfer, volume), due⟩).leases[id]? =
      (s.lease? id).map Lease.shape :=
    List.getElem?_map ..
  have hidle : ∀ marker, (Task.releaseResult marker strict (.ok false)).kind =
      some (if strict then .error .lockReleaseFailed else .ok false) := by
    intro marker
    cases strict <;> rfl
  simp only [run, Gateway.release, Gateway.add, outline, hleases]
  cases hl : s.lease? id with
  | none =>
    simp only [Release.start, hl]
    refine follows_finished (x := ⟨s, transfer, volume⟩) hplain hfree _ ?_ rfl rfl rfl rfl
    exact congrArg (fun kind => tasks.map Task.kind? ++ [kind]) (hidle _)
  | some l =>
    simp only [Release.start, hl, Option.map_some, Option.getD_some]
    by_cases hactive : l.state = .active
    · have hshape : l.shape.state = .active := hactive
      rw [if_pos hactive, if_pos hshape]
      refine follows_giveUp hplain hfree hl false (next?_releasing id l.marker strict) ?_ clock
      intro r
      cases strict <;> cases r <;> rfl
    · have hshape : ¬ l.shape.state = .active := hactive
      rw [if_neg hactive, if_neg hshape]
      refine follows_finished (x := ⟨s, transfer, volume⟩) hplain hfree _ ?_ rfl rfl rfl rfl
      exact congrArg (fun kind => tasks.map Task.kind? ++ [kind]) (hidle _)

/-- A timer that gives nothing up starts no task. -/
theorem follows_still {o : Outline} (hplain : volume.tree.Plain) (hfree : s.guards.Free)
    (moments : List Instant)
    (houtline : Run.outline ⟨⟨s, tasks⟩, (transfer, volume), due⟩ = o) :
    Follows (Run.carry diskWorld tasks.length ⟨⟨s, tasks⟩, (transfer, volume), due⟩ moments) o := by
  have hnone : ∀ s', (Gateway.task? ⟨s, tasks⟩ tasks.length).bind (Task.next? s') = none := by
    simp [Gateway.task?]
  obtain ⟨now, hcarry⟩ : ∃ now, Run.carry diskWorld tasks.length
      ⟨⟨s, tasks⟩, (transfer, volume), due⟩ moments =
        ⟨⟨{ s with now := now }, tasks⟩, (transfer, volume), due⟩ :=
    Solo.carry_still _ _ _ hnone moments
  rw [hcarry]
  exact ⟨⟨hplain, hfree⟩, houtline⟩

/-- Running the timer of a lease, case by case. -/
theorem fire_eq {g : Gateway} {l : Lease} (hl : g.shared.lease? id = some l) :
    g.fire id =
      if Expiry.isDue l g.shared.now then
        if l.state = .active then
          ⟨g.shared.modifyLease id fun l => { l with state := .released, timer := .fired },
            g.tasks ++ [.expiring id .taking]⟩
        else ⟨g.shared.modifyLease id fun l => { l with timer := .fired }, g.tasks⟩
      else g := by
  simp only [Gateway.fire, Expiry.start, hl]
  split
  · by_cases hactive : l.state = .active
    · simp only [if_pos hactive]
      rfl
    · simp only [if_neg hactive]
  · rfl

/-- A timer that is due gives its lease up, if it is active. -/
theorem follows_fire (hplain : volume.tree.Plain) (hfree : s.guards.Free) {l : Lease}
    (hl : s.lease? id = some l) (hdue : Expiry.isDue l s.now = true) (clock : Nat → Instant) :
    Follows
      (Run.carry diskWorld tasks.length ⟨Gateway.fire ⟨s, tasks⟩ id, (transfer, volume), due⟩
        (moments clock))
      (if l.state = .active then
        (Run.outline ⟨⟨s, tasks⟩, (transfer, volume), due⟩).giveUp id true fun removed =>
          removed.mapError fun _ => .filesystemError
      else
        (Run.outline ⟨⟨s, tasks⟩, (transfer, volume), due⟩).modify id fun l =>
          { l with timer := .fired }) := by
  have hfire : Gateway.fire ⟨s, tasks⟩ id = _ := fire_eq hl
  rw [hfire, if_pos hdue]
  by_cases hactive : l.state = .active
  · rw [if_pos hactive, if_pos hactive]
    exact follows_giveUp hplain hfree hl true (next?_expiring id) (fun r => rfl) clock
  · rw [if_neg hactive, if_neg hactive]
    refine follows_still hplain ?_ _ ?_
    · exact hfree
    · have hfired : (s.leases.modify id fun l => { l with timer := .fired }).map Lease.shape =
          (s.leases.map Lease.shape).modify id fun l => { l with timer := .fired } := by
        refine map_modify (fun l => ?_) s.leases id
        rfl
      simp only [Run.outline, Outline.modify, Shared.modifyLease, hfired]

theorem follows_expire (hplain : volume.tree.Plain) (hfree : s.guards.Free) (backend : Backend)
    (clock : Nat → Instant) :
    Follows (run backend clock ⟨⟨s, tasks⟩, (transfer, volume), due⟩ (.expire id))
      (outline (Run.outline ⟨⟨s, tasks⟩, (transfer, volume), due⟩) (.expire id)) := by
  have hleases : (Run.outline ⟨⟨s, tasks⟩, (transfer, volume), due⟩).leases[id]? =
      (s.lease? id).map Lease.shape :=
    List.getElem?_map ..
  -- the clock does not show in an outline
  have hadvance : ∀ now, Run.outline ⟨⟨{ s with now := now }, tasks⟩, (transfer, volume), due⟩ =
      Run.outline ⟨⟨s, tasks⟩, (transfer, volume), due⟩ := fun now => rfl
  simp only [run, outline, hleases, Run.advanceTo, Gateway.advanceTo]
  cases hl : s.lease? id with
  | none =>
    have hfire : ∀ now, Gateway.fire ⟨{ s with now := now }, tasks⟩ id =
        ⟨{ s with now := now }, tasks⟩ := by
      intro now
      have hl' : Shared.lease? { s with now := now } id = none := hl
      simp only [Gateway.fire, hl']
    rw [hfire]
    refine follows_still ?_ ?_ _ (hadvance _)
    · exact hplain
    · exact hfree
  | some l =>
    simp only [Option.map_some]
    generalize hmoment : max s.now (deadline s id) = moment
    have hl' : Shared.lease? { s with now := moment } id = some l := hl
    by_cases harmed : l.shape.timer = .armed 0
    · have hdue : Expiry.isDue l moment = true := by
        cases htimer : l.timer with
        | armed due =>
          rw [deadline, hl, Option.bind_some, htimer] at hmoment
          rw [Expiry.isDue, htimer, ← hmoment]
          exact decide_eq_true (Nat.le_max_right _ _)
        | _ =>
          rw [Lease.shape, htimer] at harmed
          cases harmed
      rw [if_pos harmed]
      exact follows_fire (s := { s with now := moment }) hplain hfree hl' hdue clock
    · have hdue : ¬ Expiry.isDue l moment = true := by
        unfold Expiry.isDue
        split
        · next due htimer =>
          rw [Lease.shape, htimer] at harmed
          exact absurd rfl harmed
        · exact Bool.false_ne_true
      rw [fire_eq hl', if_neg hdue, if_neg harmed]
      refine follows_still ?_ ?_ _ (hadvance _)
      · exact hplain
      · exact hfree

theorem fresh_shape {target : Path} {l : Lease} (h : Lease.fresh target = .ok l) : l.shape = l := by
  unfold Lease.fresh at h
  split at h
  · cases h
    rfl
  · cases h

theorem follows_lease (hplain : volume.tree.Plain) (hfree : s.guards.Free) (backend : Backend)
    (clock : Nat → Instant) (target : Path) :
    Follows (run backend clock ⟨⟨s, tasks⟩, (transfer, volume), due⟩ (.lease target))
      (outline (Run.outline ⟨⟨s, tasks⟩, (transfer, volume), due⟩) (.lease target)) := by
  simp only [run, outline, Gateway.addLease]
  cases hl : Lease.fresh target with
  | error e => exact ⟨⟨hplain, hfree⟩, rfl⟩
  | ok l =>
    have hleases : (s.leases ++ [l]).map Lease.shape = s.leases.map Lease.shape ++ [l] := by
      rw [List.map_append, List.map_singleton, fresh_shape hl]
    exact ⟨⟨hplain, hfree⟩, congrArg (fun leases =>
      { Run.outline ⟨⟨s, tasks⟩, (transfer, volume), due⟩ with leases := leases }) hleases⟩

/-- Whatever event is run, and whichever way markers are created, a run follows its outline. -/
theorem outline_run {r : Run (Transfer × Volume)} (h : Sound r) (backend : Backend)
    (clock : Nat → Instant) (e : LeaseEvent) :
    Follows (run backend clock r e) (outline r.outline e) := by
  obtain ⟨⟨s, tasks⟩, ⟨transfer, volume⟩, due⟩ := r
  obtain ⟨hplain, hfree⟩ := h
  cases e with
  | lease target => exact follows_lease hplain hfree backend clock target
  | acquire id options expiry => exact follows_acquire hplain hfree backend clock options expiry
  | release id strict => exact follows_release hplain hfree backend clock strict
  | expire id => exact follows_expire hplain hfree backend clock
  | write place content => exact ⟨⟨hplain.put_file place content, hfree⟩, rfl⟩
  | delete place => exact ⟨⟨hplain.erase place, hfree⟩, rfl⟩

/-! ## Sequences of events -/

/-- Runs one event after the other, each with moments of its own. -/
def runAll (backend : Backend) (r : Run (Transfer × Volume))
    (events : List (LeaseEvent × (Nat → Instant))) : Run (Transfer × Volume) :=
  events.foldl (fun r e => run backend e.2 r e.1) r

theorem outline_runAll {r : Run (Transfer × Volume)} (h : Sound r) (backend : Backend)
    (events : List (LeaseEvent × (Nat → Instant))) :
    Follows (runAll backend r events) ((events.map Prod.fst).foldl outline r.outline) := by
  induction events generalizing r with
  | nil => exact ⟨h, rfl⟩
  | cons e events ih =>
    obtain ⟨hsound, houtline⟩ := outline_run h backend e.2 e.1
    have hrest := ih hsound
    rw [houtline] at hrest
    exact hrest

/-- Every call that an outline knows of was answered. -/
def Complete (o : Outline) : Prop :=
  ∀ answer ∈ o.answers, answer.isSome

theorem complete_answered {o : Outline} (h : Complete o) (answer : Except ErrorCode Bool) :
    Complete (o.answered answer) := by
  intro a ha
  rcases List.mem_append.1 ha with ha | ha
  · exact h a ha
  · rw [List.mem_singleton.1 ha]
    rfl

theorem complete_giveUp {o : Outline} (h : Complete o) (id : LeaseId) (forced : Bool)
    (answer : Result Bool → Except ErrorCode Bool) : Complete (o.giveUp id forced answer) := by
  unfold Outline.giveUp
  split
  · exact complete_answered h _
  · exact complete_answered h _

theorem complete_outline {o : Outline} (h : Complete o) (e : LeaseEvent) :
    Complete (outline o e) := by
  cases e with
  | lease target =>
    simp only [outline]
    split <;> exact h
  | acquire id options expiry =>
    simp only [outline]
    split
    · exact complete_answered h _
    · split
      · split
        · exact complete_answered h _
        · exact complete_answered h _
        · exact complete_answered h _
      · exact complete_answered h _
  | release id strict =>
    simp only [outline]
    split
    · exact complete_answered h _
    · split
      · exact complete_giveUp h id _ _
      · exact complete_answered h _
  | expire id =>
    simp only [outline]
    split
    · exact h
    · split
      · split
        · exact complete_giveUp h id _ _
        · exact h
      · exact h
  | write place content => exact h
  | delete place => exact h

theorem complete_foldl {o : Outline} (h : Complete o) (events : List LeaseEvent) :
    Complete (events.foldl outline o) := by
  induction events generalizing o with
  | nil => exact h
  | cons e events ih => exact ih (complete_outline h e)

/-- Two runs agree if all their calls were answered alike, their leases are in the same states, and
they have left the same files. -/
structure Agree (x y : Run (Transfer × Volume)) : Prop where
  answers : x.gateway.tasks.map Task.kind? = y.gateway.tasks.map Task.kind?
  answered : ∀ answer ∈ x.gateway.tasks.map Task.kind?, answer.isSome
  states : x.gateway.shared.leases.map Lease.state = y.gateway.shared.leases.map Lease.state
  files : x.world.2.tree = y.world.2.tree

/-- A disk that creates markers exclusively and a disk that looks for them first agree on every
sequence of events, however long each of their answers takes. -/
theorem agree_runAll {tree : FileTree} (hplain : tree.Plain) (here : Place) (writer : Diagnostics)
    (events : List (LeaseEvent × (Nat → Instant) × (Nat → Instant))) :
    Agree
      (runAll .disk (.start (.start writer) (.plain, .ofTree tree here))
        (events.map fun e => (e.1, e.2.1)))
      (runAll .diskChecking (.start (.start writer) (.plain, .ofTree tree here))
        (events.map fun e => (e.1, e.2.2))) := by
  have hsound : Sound (.start (.start writer) (.plain, .ofTree tree here)) :=
    ⟨hplain, Guards.free_empty⟩
  obtain ⟨-, hx⟩ := outline_runAll hsound .disk (events.map fun e => (e.1, e.2.1))
  obtain ⟨-, hy⟩ := outline_runAll hsound .diskChecking (events.map fun e => (e.1, e.2.2))
  rw [List.map_map] at hx hy
  have hsame := hx.trans hy.symm
  have hcomplete := complete_foldl (o := Run.outline (.start (.start writer)
    (.plain, .ofTree tree here))) (fun _ h => absurd h List.not_mem_nil) (events.map Prod.fst)
  have hstates : ∀ r : Run (Transfer × Volume),
      r.gateway.shared.leases.map Lease.state = r.outline.leases.map Lease.state := by
    intro r
    simp only [Run.outline, List.map_map]
    rfl
  constructor
  · exact congrArg Outline.answers hsame
  · intro answer hanswer
    exact hcomplete answer ((congrArg Outline.answers hx) ▸ hanswer)
  · rw [hstates, hstates, hsame]
  · exact congrArg Outline.tree hsame

/-- A lease is tried while somebody else's marker is there, and again when that is gone; then it
expires. One run takes twice as long as the other. -/
def retried : List (LeaseEvent × (Nat → Instant) × (Nat → Instant)) :=
  [lease ⟨"/a"⟩,
    acquire 0 .empty LockConfig.default.expiry,
    delete ["a.lock"],
    acquire 0 .empty LockConfig.default.expiry,
    expire 0].map fun e => (e, fun n => n, Nat.mul 2)

theorem agree_runAll_retried :
    (FileTree.empty.put ["a.lock"] (.file [])).Plain ∧
      Agree
        (runAll .disk
          (.start (.start ⟨"host", "address", 1⟩)
            (.plain, .ofTree (FileTree.empty.put ["a.lock"] (.file [])) []))
          (retried.map fun e => (e.1, e.2.1)))
        (runAll .diskChecking
          (.start (.start ⟨"host", "address", 1⟩)
            (.plain, .ofTree (FileTree.empty.put ["a.lock"] (.file [])) []))
          (retried.map fun e => (e.1, e.2.2))) := by
  have hplain : (FileTree.empty.put ["a.lock"] (.file [])).Plain :=
    FileTree.plain_empty.put_file _ _
  exact ⟨hplain, agree_runAll hplain [] ⟨"host", "address", 1⟩ retried⟩

end LeaseEvent

end FileGateway

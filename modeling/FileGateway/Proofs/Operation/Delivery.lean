import FileGateway.Proofs.Gateway.Bystanders
import FileGateway.Proofs.Operation.Write

/-!
# Delivering a stream

A write of what there is to be read from an open stream, on a disk where the leases of the gateway
are about: from the call over the lease and the copy to the end (`Delivery.Delivers`). When it ends
well, everything has arrived that was to be read when the target was opened (`Delivery.Arrived`);
whether the two are one file does not matter to that.
-/

namespace FileGateway

open CommandLine (Transfer)

/-- The next piece of an open stream. -/
theorem read_of_pull {transfer transfer' : Transfer} {v v' : Volume} {id : StreamId}
    {answer : Result Bytes} (hsupply : transfer.supply = .stream id)
    (h : diskWorld.answer 0 .pull (transfer, v) = (answer, transfer', v')) :
    transfer' = transfer ∧ ((∃ piece, answer = .ok piece ∧ v.read id = .ok (piece, v')) ∨
      (∃ f, answer = .error f) ∧ v' = v) := by
  simp only [diskWorld, CommandLine.answer, CommandLine.pull, hsupply, bind, StateT.bind,
    FileAccess.read, Volume.act] at h
  cases hcall : v.read id with
  | ok found =>
    rw [hcall] at h
    cases h
    exact ⟨rfl, Or.inl ⟨_, rfl, rfl⟩⟩
  | error e =>
    rw [hcall] at h
    cases h
    exact ⟨rfl, Or.inr ⟨⟨_, rfl⟩, rfl⟩⟩

/-- What is written where: an open stream to the file of a path. The `base` is the volume before
anything was done. -/
structure Delivery where
  base : Volume
  source : Place
  inlet : StreamId
  path : Path
  mode : WriteMode

namespace Delivery

variable {x : Delivery} {v v' : Volume} {transfer transfer' : Transfer}

/-- The two ends of a delivery are to be kept from others. -/
def keep (x : Delivery) (place : Place) : Prop :=
  place = x.source ∨ x.base.Reaches .create x.path place

/-- The passage to a place. -/
def passage (x : Delivery) (place : Place) : Passage :=
  .between x.base.tree x.source place x.mode.append

/-- The stream is open, and nothing has been done to either end. -/
structure Awaits (x : Delivery) (v : Volume) : Prop where
  inlet : v.streams[x.inlet]? = some ⟨x.source, 0, false⟩
  present : v.tree.node? x.source ≠ none
  agree : ∀ place, x.keep place → x.base.tree.AgreeAt v.tree place

/-- So many bytes have arrived, and that is all. -/
def Arrived (x : Delivery) (v : Volume) (count : Nat) : Prop :=
  ∃ place, x.base.Reaches .create x.path place ∧ (x.passage place).Arrived v count

/-- Whatever is done elsewhere, nothing is done to either end. -/
theorem Awaits.aside (h : x.Awaits v) (ha : v.Aside x.keep v') : x.Awaits v' where
  inlet := ha.stream h.inlet (Or.inl rfl)
  present := by
    rw [ha.node _ (Or.inl rfl)]
    exact h.present
  agree := fun place hplace =>
    (h.agree place hplace).trans (FileTree.agreeAt_of_eq (ha.node place hplace))

theorem Arrived.aside {count : Nat} (h : x.Arrived v count) (ha : v.Aside x.keep v') :
    x.Arrived v' count := by
  obtain ⟨place, hreaches, harrived⟩ := h
  exact ⟨place, hreaches, harrived.aside ha (Or.inl rfl) (Or.inr hreaches)⟩

/-! ## The copy -/

open Copy.Place in
/-- How far a copy has come. -/
inductive Copies (x : Delivery) (v : Volume) : Step Copy.Place (Result Nat) → Prop where
  | opening (awaits : x.Awaits v) : Copies x v (.paused opening)
  | pulling {place : Place} {stream : StreamId} {count : Nat}
      (reaches : x.base.Reaches .create x.path place)
      (goes : (x.passage place).Goes v x.inlet stream count []) :
      Copies x v (.paused (pulling stream count))
  | writing {place : Place} {stream : StreamId} {count : Nat} {piece : Bytes}
      (reaches : x.base.Reaches .create x.path place)
      (goes : (x.passage place).Goes v x.inlet stream count piece) :
      Copies x v (.paused (writing stream count piece))
  | finishing {stream : StreamId} {count : Nat} (arrived : x.Arrived v count) :
      Copies x v (.paused (finishing stream count))
  | done {result : Result Nat} (arrived : ∀ count, result = .ok count → x.Arrived v count) :
      Copies x v (.done result)

theorem Copies.aside {step : Step Copy.Place (Result Nat)} (h : x.Copies v step)
    (ha : v.Aside x.keep v') : x.Copies v' step := by
  cases h with
  | opening awaits => exact .opening (awaits.aside ha)
  | pulling reaches goes => exact .pulling reaches (goes.aside ha (Or.inl rfl) (Or.inr reaches))
  | writing reaches goes => exact .writing reaches (goes.aside ha (Or.inl rfl) (Or.inr reaches))
  | finishing arrived => exact .finishing (arrived.aside ha)
  | done arrived => exact .done fun count hcount => (arrived count hcount).aside ha

theorem Copies.arrived {result : Result Nat} (h : x.Copies v (.done result)) :
    ∀ count, result = .ok count → x.Arrived v count := by
  cases h with
  | done arrived => exact arrived

theorem copies_failed {f : Failure} : x.Copies v (.done (.error f)) :=
  .done fun _ hcount => by cases hcount

/-- The target is opened, and bytes begin to flow. -/
theorem Awaits.opened (h : x.Awaits v) (ha : x.base.Alike v) (hb : x.base.Rooted) {file : FileRef}
    (hfile : x.path.normal = .ok file.path) {id : StreamId}
    (hcall : v.openWrite file.path x.mode.append = .ok (id, v')) :
    x.Copies v' (.paused (.pulling id 0)) ∧ v.Alike v' := by
  obtain ⟨spot, hwalk, hopens⟩ := Volume.openWrite_ok ha hb hcall
  have hreaches : x.base.Reaches .create x.path spot.place := ⟨_, spot, hfile, hwalk, rfl⟩
  have hdistinct : x.inlet ≠ id := by
    rw [hopens.id]
    exact Nat.ne_of_lt (List.getElem?_eq_some_iff.1 h.inlet).1
  refine ⟨.pulling hreaches (Passage.begins (hopens.older h.inlet) hopens.stream hdistinct ?_ ?_),
    hopens.alike⟩
  · intro hne
    exact FileTree.bytes_of_agreeAt
      ((h.agree _ (Or.inl rfl)).trans (FileTree.agreeAt_of_eq (hopens.elsewhere hne)))
  · rw [hopens.node, Function.update_self, (h.agree _ (Or.inr hreaches)).opened]
    exact congrArg some (Passage.opened_eq_holding _ _ _ _)

/-- A copy makes a move. -/
theorem Copies.next {p : Copy.Place} (h : x.Copies v (.paused p)) (ha : x.base.Alike v)
    (hb : x.base.Rooted) {backend : Backend} {file : FileRef}
    (hfile : x.path.normal = .ok file.path) (hsupply : transfer.supply = .stream x.inlet)
    {reply : Reply} {step : Step Copy.Place (Result Nat)}
    (hm : Copy.Goes backend file x.mode.append p reply step)
    (hanswer : diskWorld.answer 0 reply.1 (transfer, v) = (reply.2, transfer', v')) :
    transfer' = transfer ∧ x.base.Alike v' ∧ x.Copies v' step := by
  cases hm with
  | opened id =>
    cases h with
    | opening awaits =>
      obtain ⟨rfl, hreply⟩ := reply_of_answer hanswer
      rcases DiskStore.openWrite_of_reply hreply with ⟨id', heq, hcall⟩ | ⟨⟨f, heq⟩, -⟩
      · cases heq
        obtain ⟨hcopies, halike⟩ := awaits.opened ha hb hfile hcall
        exact ⟨rfl, ha.trans halike, hcopies⟩
      · cases heq
  | unopened f =>
    obtain ⟨rfl, hreply⟩ := reply_of_answer hanswer
    rcases DiskStore.openWrite_of_reply hreply with ⟨id', heq, -⟩ | ⟨-, rfl⟩
    · cases heq
    · exact ⟨rfl, ha, copies_failed⟩
  | ended stream count =>
    cases h with
    | pulling reaches goes =>
      obtain ⟨rfl, ⟨piece, heq, hcall⟩ | ⟨⟨f, heq⟩, -⟩⟩ := read_of_pull hsupply hanswer
      · cases heq
        obtain ⟨-, harrived, halike⟩ := goes.read hcall
        exact ⟨rfl, ha.trans halike, .finishing ⟨_, reaches, harrived rfl⟩⟩
      · cases heq
  | pulled stream count byte rest =>
    cases h with
    | pulling reaches goes =>
      obtain ⟨rfl, ⟨piece, heq, hcall⟩ | ⟨⟨f, heq⟩, -⟩⟩ := read_of_pull hsupply hanswer
      · cases heq
        obtain ⟨hgoes, -, halike⟩ := goes.read hcall
        exact ⟨rfl, ha.trans halike, .writing reaches hgoes⟩
      · cases heq
  | unpulled stream count f =>
    obtain ⟨rfl, ⟨piece, heq, -⟩ | ⟨-, rfl⟩⟩ := read_of_pull hsupply hanswer
    · cases heq
    · exact ⟨rfl, ha, copies_failed⟩
  | written stream count piece =>
    cases h with
    | writing reaches goes =>
      obtain ⟨rfl, hreply⟩ := reply_of_answer hanswer
      rcases DiskStore.write_of_reply hreply with ⟨-, hcall⟩ | ⟨⟨f, heq⟩, -⟩
      · obtain ⟨hgoes, halike⟩ := goes.write hcall
        exact ⟨rfl, ha.trans halike, .pulling reaches hgoes⟩
      · cases heq
  | unwritten stream count piece f =>
    obtain ⟨rfl, hreply⟩ := reply_of_answer hanswer
    rcases DiskStore.write_of_reply hreply with ⟨heq, -⟩ | ⟨-, rfl⟩
    · cases heq
    · exact ⟨rfl, ha, copies_failed⟩
  | finished stream count =>
    cases h with
    | finishing arrived =>
      cases hanswer
      exact ⟨rfl, ha, .done fun _ hcount => by cases hcount; exact arrived⟩
  | unfinished stream count f => cases hanswer

/-! ## The write -/

/-- The target of a write is the file of the path. -/
structure Aims (x : Delivery) (t : Write.Target) : Prop where
  file : x.path.normal = .ok t.file.path
  append : t.append = x.mode.append

/-- How far the task of a write has come. -/
inductive Delivers (x : Delivery) : Task → Volume → Prop where
  | resolving {v : Volume} {id : HandleId} {r : Resolve} (awaits : x.Awaits v)
      (path : r.path = x.path) :
      Delivers x (.operating id (.resolving (.write x.mode) r)) v
  | locking {v : Volume} {id : HandleId} {t : Write.Target} {a : Acquire} {p : Acquire.Place}
      (awaits : x.Awaits v) (aims : x.Aims t)
      (spares : (LeaseOp.acquire a p).Spares x.base x.keep v) :
      Delivers x (.operating id (.writing t (.locking a p))) v
  | copying {v : Volume} {id : HandleId} {t : Write.Target} {lease : Option LeaseId}
      {p : Copy.Place} (aims : x.Aims t) (copies : x.Copies v (.paused p)) :
      Delivers x (.operating id (.writing t (.copying lease p))) v
  | unlocking {v : Volume} {id : HandleId} {t : Write.Target} {lease : LeaseId} {marker : Path}
      {p : Surrender.Place} {result : Result Nat}
      (spares : (LeaseOp.surrender ⟨lease, false⟩ p).Spares x.base x.keep v)
      (arrived : ∀ count, result = .ok count → x.Arrived v count) :
      Delivers x (.operating id (.writing t (.unlocking lease marker p result))) v
  | finished {v : Volume} {result : Except Error Effect}
      (arrived : ∀ effect, result = .ok effect →
        ∃ count, effect = .copied count ∧ x.Arrived v count) :
      Delivers x (.finished (.operated result)) v

theorem Delivers.aside {t : Task} (h : x.Delivers t v) (ha : v.Aside x.keep v') :
    x.Delivers t v' := by
  cases h with
  | resolving awaits path => exact .resolving (awaits.aside ha) path
  | locking awaits aims spares => exact .locking (awaits.aside ha) aims (spares.aside ha)
  | copying aims copies => exact .copying aims (copies.aside ha)
  | unlocking spares arrived =>
    exact .unlocking (spares.aside ha) fun count hcount => (arrived count hcount).aside ha
  | finished arrived =>
    refine .finished fun effect heffect => ?_
    obtain ⟨count, hcount, harrived⟩ := arrived effect heffect
    exact ⟨count, hcount, harrived.aside ha⟩

/-- A write that has ended well has delivered. -/
theorem Delivers.arrived {effect : Effect}
    (h : x.Delivers (.finished (.operated (.ok effect))) v) :
    ∃ count, effect = .copied count ∧ x.Arrived v count := by
  cases h with
  | finished arrived => exact arrived effect rfl

theorem delivers_failed {e : Error} : x.Delivers (.finished (.operated (.error e))) v :=
  .finished fun _ heffect => by cases heffect

/-- A write that has ended with the result of its copy, or not so well. -/
theorem delivers_done {id : HandleId} {t : Write.Target} {result : Result Nat}
    {ending : Except Error Nat} {s : Shared}
    (harrived : ∀ count, result = .ok count → x.Arrived v count)
    (hending : ∀ count, ending = .ok count → result = .ok count) :
    x.Delivers (Task.ofOperation id (Operation.writeStep t (.done ending)) s).1 v := by
  refine .finished fun effect heffect => ?_
  cases ending with
  | error e => cases heffect
  | ok count =>
    cases heffect
    exact ⟨count, rfl, harrived count (hending count rfl)⟩

theorem ok_of_outcome {t : Write.Target} {result : Result Nat} {count : Nat}
    (h : Write.outcome t result = .ok count) : result = .ok count := by
  cases result with
  | ok n => exact congrArg Except.ok (Except.ok.inj h)
  | error f => cases h

theorem ok_of_released {t : Write.Target} {result : Result Nat} {removed : Except Error Bool}
    {count : Nat} (h : Write.released t result removed = .ok count) : result = .ok count := by
  cases removed with
  | ok _ => exact ok_of_outcome h
  | error e =>
    cases result with
    | ok n => cases h
    | error f => cases h

/-- Whatever its operation comes to, a task changes nothing more of the leases. -/
theorem spares_ofOperation {base : Volume} {keep : Place → Prop} {s : Shared}
    (h : s.Spares base keep) (id : HandleId)
    (step : Step Operation.Place (Except Error Effect)) :
    (Task.ofOperation id step s).2.Spares base keep := by
  cases step with
  | paused place => exact h
  | done result => exact h.congr rfl

/-! ### Moves -/

/-- The disk, and a directory and a lock that a connection to it is configured with. -/
def grounds (dir : Path) (lock : LockConfig) : Backend × Path × LockConfig :=
  (.disk, dir, lock)

variable {s : Shared} {dir : Path} {lock : LockConfig}

/-- The lease of a write is made, and its acquisition begins. Its marker is not made at either end:
the source is there, and the target is elsewhere. -/
theorem Awaits.locks (h : x.Awaits v) {t : Write.Target}
    {a : Acquire} {l : Lease} (hfile : x.path.normal = .ok t.file.path)
    (hmarks : ¬ x.base.MarksItself x.path) (hfresh : Lease.fresh t.file.path = .ok l)
    (hmarker : a.marker = l.marker) (hbackend : a.backend.exclusiveCreate = true) :
    (LeaseOp.acquire a .resolving).Spares x.base x.keep v := by
  refine ⟨hbackend, fun file hnormal spot hwalk hkeep => ?_⟩
  have htarget : t.file.path.marker? = some a.marker := by
    rw [hmarker]
    exact Lease.marker?_of_fresh hfresh
  rcases hkeep with hsource | hreaches
  · rw [hsource]
    exact h.present
  · exact absurd ⟨t.file.path, a.marker, spot.place, hfile, htarget, ⟨_, spot, hnormal, hwalk, rfl⟩,
      hreaches⟩ hmarks

/-- The write of the resolved file begins: with its lease, or at once with the copy. -/
theorem Awaits.starts (h : x.Awaits v) (hs : s.Spares x.base x.keep) {t : Write.Target}
    (ht : x.Aims t) (hbackend : t.backend = .disk) {options : Options}
    (hmarks : lock.scheme = .marker → ¬ x.base.MarksItself x.path) (id : HandleId) :
    let started := Write.start t options lock s
    let task := Task.ofOperation id (Operation.writeStep t started.1) started.2
    task.2.Spares x.base x.keep ∧ x.Delivers task.1 v := by
  simp only [Write.start]
  cases hscheme : lock.scheme with
  | none => exact ⟨hs, .copying ht (.opening h)⟩
  | marker =>
    simp only
    cases hfresh : Lease.fresh t.file.path with
    | error e => exact ⟨hs.congr rfl, delivers_failed⟩
    | ok l =>
      simp only
      rw [Acquire.start_fresh hfresh rfl]
      refine ⟨(hs.add (Lease.state_fresh hfresh).2).modify _ fun _ => rfl, .locking h ht ?_⟩
      exact h.locks ht.file (hmarks hscheme) hfresh rfl (by rw [hbackend]; rfl)

/-- The path of the file is resolved, or not. -/
theorem Awaits.resolves (h : x.Awaits v) (ha : x.base.Alike v) (hs : s.Spares x.base x.keep)
    (hgrounds : ∀ y ∈ s.registry.built.map Handle.grounds, y = grounds dir lock)
    (hmarks : (x.mode.lock.getD lock).scheme = .marker → ¬ x.base.MarksItself x.path)
    {id : HandleId} {r : Resolve} (hpath : r.path = x.path)
    {p : Pending (Shared → Task × Shared)}
    (hp : (Task.operating id (.resolving (.write x.mode) r)).next? s = some p)
    {answer : p.request.Answer}
    (hanswer : diskWorld.answer 0 p.request (transfer, v) = (answer, transfer', v')) :
    transfer' = transfer ∧ x.base.Alike v' ∧ (p.resume answer s).2.Spares x.base x.keep ∧
      x.Delivers (p.resume answer s).1 v' := by
  cases hp
  obtain ⟨rfl, hreply⟩ := reply_of_answer hanswer
  obtain ⟨rfl, hfound⟩ := DiskStore.eq_of_reply_resolve hreply
  rcases answer with f | file
  · exact ⟨rfl, ha, hs.congr rfl, delivers_failed⟩
  · refine ⟨rfl, ha, ?_⟩
    have hfile := hfound file rfl
    rw [hpath] at hfile
    -- the handle is healthier now, and otherwise as it was
    simp only [Operation.next, Pending.map, Resolve.next, Resolve.succeed, Operation.resolveStep,
      Operation.resolved]
    have hlasts : (s.modifyHandle r.handle fun h => { h with policy := h.policy.succeed.2 }
        ).registry.built.map Handle.grounds = s.registry.built.map Handle.grounds :=
      Shared.lasting_grounds.handles s r.handle _ fun h => ⟨h.options, h.modified, _, rfl⟩
    rw [← hlasts] at hgrounds
    generalize hs' : (s.modifyHandle r.handle fun h => { h with policy := h.policy.succeed.2 }) = s'
      at hgrounds ⊢
    have hspares : s'.Spares x.base x.keep := hs.congr (by rw [← hs']; rfl)
    cases hhandle : s'.handle? id with
    | none => exact ⟨hspares.congr rfl, delivers_failed⟩
    | some handle =>
      have hmem : handle ∈ s'.registry.built := List.mem_of_getElem? hhandle
      have hbuilt := hgrounds _ (List.mem_map_of_mem hmem)
      have hbackend : handle.backend = .disk := congrArg Prod.fst hbuilt
      have hlock : handle.lock = lock := congrArg (fun y => y.2.2) hbuilt
      rw [← hlock] at hmarks
      exact h.starts hspares ⟨hfile, rfl⟩ hbackend hmarks id

/-- The task of a write makes a move: its lease is acquired, its copy goes on, or its lease is given
up. -/
theorem delivers_goes {id : HandleId} {t : Write.Target} {place : Write.Place}
    (h : x.Delivers (.operating id (.writing t place)) v) (ha : x.base.Alike v)
    (hb : x.base.Rooted) (hs : s.Spares x.base x.keep) (hsupply : transfer.supply = .stream x.inlet)
    {writer : Diagnostics} {reply : Reply} {step : Step Write.Place (Except Error Nat)}
    {s' : Shared} (hm : Write.Goes writer t s place reply step s')
    (hanswer : diskWorld.answer 0 reply.1 (transfer, v) = (reply.2, transfer', v')) :
    transfer' = transfer ∧ x.base.Alike v' ∧ s'.Spares x.base x.keep ∧
      x.Delivers (Task.ofOperation id (Operation.writeStep t step) s').1 v' := by
  cases h with
  | locking awaits aims spares =>
    cases hm with
    | locks a p p' reply s' move =>
      obtain ⟨rfl, haside⟩ := spares.moves hs ha hb move hanswer
      exact ⟨rfl, ha.trans haside.volume.alike, spares.shared hs move,
        .locking (awaits.aside haside.volume) aims (haside.leaseOp _ rfl)⟩
    | locked a s' move =>
      obtain ⟨rfl, haside⟩ := spares.moves hs ha hb move hanswer
      exact ⟨rfl, ha.trans haside.volume.alike, spares.shared hs move,
        .copying aims (.opening (awaits.aside haside.volume))⟩
    | refused a error s' move =>
      obtain ⟨rfl, haside⟩ := spares.moves hs ha hb move hanswer
      exact ⟨rfl, ha.trans haside.volume.alike, spares.shared hs move, delivers_failed⟩
  | copying aims copies =>
    have hcopy : ∀ {p : Copy.Place} {step : Step Copy.Place (Result Nat)},
        x.Copies v (.paused p) → Copy.Goes t.backend t.file t.append p reply step →
          transfer' = transfer ∧ x.base.Alike v' ∧ x.Copies v' step := by
      intro p step copies move
      rw [aims.append] at move
      exact copies.next ha hb aims.file hsupply move hanswer
    cases hm with
    | copies lease p p' reply move =>
      obtain ⟨rfl, ha', hcopies⟩ := hcopy copies move
      exact ⟨rfl, ha', hs, .copying aims hcopies⟩
    | copied p reply result move =>
      obtain ⟨rfl, ha', hcopies⟩ := hcopy copies move
      exact ⟨rfl, ha', hs, delivers_done hcopies.arrived fun _ => ok_of_outcome⟩
    | unlocks lease l p reply result move found active =>
      obtain ⟨rfl, ha', hcopies⟩ := hcopy copies move
      exact ⟨rfl, ha', hs.modify lease fun _ => rfl, .unlocking trivial hcopies.arrived⟩
    | lost lease p reply result move gone =>
      obtain ⟨rfl, ha', hcopies⟩ := hcopy copies move
      exact ⟨rfl, ha', hs, delivers_done hcopies.arrived fun _ => ok_of_released⟩
  | unlocking spares arrived =>
    cases hm with
    | unlocking lease marker p p' result reply s' move =>
      obtain ⟨rfl, haside⟩ := spares.moves hs ha hb move hanswer
      exact ⟨rfl, ha.trans haside.volume.alike, spares.shared hs move,
        .unlocking (haside.leaseOp _ rfl) fun count hcount =>
          (arrived count hcount).aside haside.volume⟩
    | unlocked lease marker p result removed reply s' move =>
      obtain ⟨rfl, haside⟩ := spares.moves hs ha hb move hanswer
      exact ⟨rfl, ha.trans haside.volume.alike, spares.shared hs move,
        delivers_done (fun count hcount => (arrived count hcount).aside haside.volume)
          fun _ => ok_of_released⟩

theorem Delivers.writes {id : HandleId} {t : Write.Target} {place : Write.Place}
    (h : x.Delivers (.operating id (.writing t place)) v) (ha : x.base.Alike v)
    (hb : x.base.Rooted) (hs : s.Spares x.base x.keep) (hsupply : transfer.supply = .stream x.inlet)
    {p : Pending (Shared → Task × Shared)}
    (hp : (Task.operating id (.writing t place)).next? s = some p) {answer : p.request.Answer}
    (hanswer : diskWorld.answer 0 p.request (transfer, v) = (answer, transfer', v')) :
    transfer' = transfer ∧ x.base.Alike v' ∧ (p.resume answer s).2.Spares x.base x.keep ∧
      x.Delivers (p.resume answer s).1 v' := by
  obtain ⟨step, s', hm, hresume⟩ := Task.goes_of_write hp answer
  obtain ⟨htransfer, ha', hs', hdelivers⟩ := delivers_goes h ha hb hs hsupply hm hanswer
  rw [hresume]
  exact ⟨htransfer, ha', spares_ofOperation hs' _ _, hdelivers⟩

/-- A write from an open stream is an undertaking, unless the file would be its own marker. -/
theorem undertaking (hb : x.base.Rooted)
    (hmarks : (x.mode.lock.getD lock).scheme = .marker → ¬ x.base.MarksItself x.path)
    (hsupply : transfer.supply = .stream x.inlet) :
    Undertaking x.base x.keep (grounds dir lock) transfer x.Delivers where
  aside := Delivers.aside
  next := by
    intro t v s p answer transfer' v' h ha hs hgrounds hp hanswer
    cases h with
    | resolving awaits path => exact awaits.resolves ha hs hgrounds hmarks path hp hanswer
    | locking awaits aims spares =>
      exact (Delivers.locking awaits aims spares).writes ha hb hs hsupply hp hanswer
    | copying aims copies =>
      exact (Delivers.copying aims copies).writes ha hb hs hsupply hp hanswer
    | unlocking spares arrived =>
      exact (Delivers.unlocking spares arrived).writes ha hb hs hsupply hp hanswer
    | finished arrived => cases hp

end Delivery

end FileGateway

import FileGateway.Proofs.Gateway.Bystanders

/-!
# Retrieving into a stream

A read of a file into an open stream, on a disk. The stream was opened, and what it writes to
emptied, before the file is opened (`Retrieval.Awaits`). When the read ends well, everything has
arrived that was to be read then (`Retrieval.Arrived`): the whole file, unless it is the one that
was emptied.
-/

namespace FileGateway

open CommandLine (Transfer)

/-- A piece is written to an open stream. -/
theorem write_of_push {transfer transfer' : Transfer} {v v' : Volume} {id : StreamId}
    {piece : Bytes} {answer : Result Unit} (htarget : transfer.target = .stream id)
    (h : diskWorld.answer 0 (.push piece) (transfer, v) = (answer, transfer', v')) :
    transfer' = transfer ∧ (answer = .ok () ∧ v.write id piece = .ok v' ∨
      (∃ f, answer = .error f) ∧ v' = v) := by
  simp only [diskWorld, CommandLine.answer, CommandLine.push, htarget, bind, StateT.bind,
    FileAccess.write, Volume.act] at h
  cases hcall : v.write id piece with
  | ok written =>
    rw [hcall] at h
    cases h
    exact ⟨rfl, Or.inl ⟨rfl, rfl⟩⟩
  | error e =>
    rw [hcall] at h
    cases h
    exact ⟨rfl, Or.inr ⟨⟨_, rfl⟩, rfl⟩⟩

/-- What is read where to: the file of a path into an open stream. The `base` is the volume before
anything was done. -/
structure Retrieval where
  base : Volume
  sink : Place
  outlet : StreamId
  path : Path

namespace Retrieval

variable {x : Retrieval} {v v' : Volume} {transfer transfer' : Transfer}

/-- The two ends of a retrieval are to be kept from others. -/
def keep (x : Retrieval) (place : Place) : Prop :=
  place = x.sink ∨ x.base.Reaches .follow x.path place

/-- The passage from a place. -/
def passage (x : Retrieval) (place : Place) : Passage :=
  .between x.base.tree place x.sink false

/-- The stream is open, and nothing else has been done to either end. -/
structure Awaits (x : Retrieval) (v : Volume) : Prop where
  outlet : v.streams[x.outlet]? = some ⟨x.sink, 0, false⟩
  sink : v.tree.node? x.sink = some (.opened false (x.base.tree.node? x.sink))
  agree : ∀ place, x.keep place → place ≠ x.sink → x.base.tree.AgreeAt v.tree place

/-- So many bytes have arrived, and that is all. -/
def Arrived (x : Retrieval) (v : Volume) (count : Nat) : Prop :=
  ∃ place, x.base.Reaches .follow x.path place ∧ (x.passage place).Arrived v count

/-- Whatever is done elsewhere, nothing is done to either end. -/
theorem Awaits.aside (h : x.Awaits v) (ha : v.Aside x.keep v') : x.Awaits v' where
  outlet := ha.stream h.outlet (Or.inl rfl)
  sink := (ha.node _ (Or.inl rfl)).trans h.sink
  agree := fun place hplace hne =>
    (h.agree place hplace hne).trans (FileTree.agreeAt_of_eq (ha.node place hplace))

theorem Arrived.aside {count : Nat} (h : x.Arrived v count) (ha : v.Aside x.keep v') :
    x.Arrived v' count := by
  obtain ⟨place, hreaches, harrived⟩ := h
  exact ⟨place, hreaches, harrived.aside ha (Or.inr hreaches) (Or.inl rfl)⟩

/-! ## The copy -/

open Read.Place in
/-- How far the read of a file has come. -/
inductive Copies (x : Retrieval) (v : Volume) : Step Read.Place (Result Nat) → Prop where
  | opening (awaits : x.Awaits v) : Copies x v (.paused opening)
  | reading {place : Place} {stream : StreamId} {count : Nat}
      (reaches : x.base.Reaches .follow x.path place)
      (goes : (x.passage place).Goes v stream x.outlet count []) :
      Copies x v (.paused (reading stream count))
  | pushing {place : Place} {stream : StreamId} {count : Nat} {piece : Bytes}
      (reaches : x.base.Reaches .follow x.path place)
      (goes : (x.passage place).Goes v stream x.outlet count piece) :
      Copies x v (.paused (pushing stream count piece))
  | flushing {count : Nat} (arrived : x.Arrived v count) : Copies x v (.paused (flushing count))
  | done {result : Result Nat} (arrived : ∀ count, result = .ok count → x.Arrived v count) :
      Copies x v (.done result)

theorem Copies.aside {step : Step Read.Place (Result Nat)} (h : x.Copies v step)
    (ha : v.Aside x.keep v') : x.Copies v' step := by
  cases h with
  | opening awaits => exact .opening (awaits.aside ha)
  | reading reaches goes => exact .reading reaches (goes.aside ha (Or.inr reaches) (Or.inl rfl))
  | pushing reaches goes => exact .pushing reaches (goes.aside ha (Or.inr reaches) (Or.inl rfl))
  | flushing arrived => exact .flushing (arrived.aside ha)
  | done arrived => exact .done fun count hcount => (arrived count hcount).aside ha

theorem copies_failed {f : Failure} : x.Copies v (.done (.error f)) :=
  .done fun _ hcount => by cases hcount

/-- The file is opened, and bytes begin to flow. -/
theorem Awaits.opened (h : x.Awaits v) (ha : x.base.Alike v) (hb : x.base.Rooted) {file : FileRef}
    (hfile : x.path.normal = .ok file.path) {id : StreamId}
    (hcall : v.openRead file.path = .ok (id, v')) :
    x.Copies v' (.paused (.reading id 0)) ∧ v.Alike v' := by
  obtain ⟨spot, hwalk, -, rfl, rfl⟩ := Volume.openRead_ok ha hb hcall
  have hreaches : x.base.Reaches .follow x.path spot.place := ⟨_, spot, hfile, hwalk, rfl⟩
  have hless : x.outlet < v.streams.length := (List.getElem?_eq_some_iff.1 h.outlet).1
  refine ⟨.reading hreaches (Passage.begins List.getElem?_concat_length ?_ (Nat.ne_of_gt hless)
    ?_ ?_), ⟨rfl, .refl _⟩⟩
  · exact (List.getElem?_append_left hless).trans h.outlet
  · exact fun hne => FileTree.bytes_of_agreeAt (h.agree _ (Or.inr hreaches) hne)
  · rw [h.sink]
    exact congrArg some (Passage.opened_eq_holding _ _ _ _)

/-- The read of a file makes a move. -/
theorem Copies.next {p : Read.Place} (h : x.Copies v (.paused p)) (ha : x.base.Alike v)
    (hb : x.base.Rooted) {backend : Backend} {file : FileRef}
    (hfile : x.path.normal = .ok file.path) (htarget : transfer.target = .stream x.outlet)
    {answer : (Read.next backend file p).request.Answer}
    (hanswer : diskWorld.answer 0 (Read.next backend file p).request (transfer, v) =
      (answer, transfer', v')) :
    transfer' = transfer ∧ x.base.Alike v' ∧
      x.Copies v' ((Read.next backend file p).resume answer) := by
  cases h with
  | opening awaits =>
    obtain ⟨rfl, hreply⟩ := reply_of_answer hanswer
    rcases DiskStore.openRead_of_reply hreply with ⟨id, rfl, hcall⟩ | ⟨⟨f, rfl⟩, rfl⟩
    · obtain ⟨hcopies, halike⟩ := awaits.opened ha hb hfile hcall
      exact ⟨rfl, ha.trans halike, hcopies⟩
    · exact ⟨rfl, ha, copies_failed⟩
  | reading reaches goes =>
    obtain ⟨rfl, hreply⟩ := reply_of_answer hanswer
    rcases DiskStore.read_of_reply hreply with ⟨piece, rfl, hcall⟩ | ⟨⟨f, rfl⟩, rfl⟩
    · obtain ⟨hgoes, harrived, halike⟩ := goes.read hcall
      refine ⟨rfl, ha.trans halike, ?_⟩
      cases piece with
      | nil => exact .flushing ⟨_, reaches, harrived rfl⟩
      | cons first rest => exact .pushing reaches hgoes
    · exact ⟨rfl, ha, copies_failed⟩
  | pushing reaches goes =>
    obtain ⟨rfl, ⟨rfl, hcall⟩ | ⟨⟨f, rfl⟩, rfl⟩⟩ := write_of_push htarget hanswer
    · obtain ⟨hgoes, halike⟩ := goes.write hcall
      exact ⟨rfl, ha.trans halike, .reading reaches hgoes⟩
    · exact ⟨rfl, ha, copies_failed⟩
  | flushing arrived =>
    cases hanswer
    exact ⟨rfl, ha, .done fun _ hcount => by cases hcount; exact arrived⟩

/-! ## The operation -/

/-- How far the task of a read has come. -/
inductive Retrieves (x : Retrieval) : Task → Volume → Prop where
  | resolving {v : Volume} {id : HandleId} {r : Resolve} (awaits : x.Awaits v)
      (path : r.path = x.path) : Retrieves x (.operating id (.resolving .read r)) v
  | reading {v : Volume} {id : HandleId} {backend : Backend} {file : FileRef} {p : Read.Place}
      (normal : x.path.normal = .ok file.path) (copies : x.Copies v (.paused p)) :
      Retrieves x (.operating id (.reading backend file p)) v
  | finished {v : Volume} {result : Except Error Effect}
      (arrived : ∀ effect, result = .ok effect →
        ∃ count, effect = .copied count ∧ x.Arrived v count) :
      Retrieves x (.finished (.operated result)) v

theorem Retrieves.aside {t : Task} (h : x.Retrieves t v) (ha : v.Aside x.keep v') :
    x.Retrieves t v' := by
  cases h with
  | resolving awaits path => exact .resolving (awaits.aside ha) path
  | reading normal copies => exact .reading normal (copies.aside ha)
  | finished arrived =>
    refine .finished fun effect heffect => ?_
    obtain ⟨count, hcount, harrived⟩ := arrived effect heffect
    exact ⟨count, hcount, harrived.aside ha⟩

/-- A read that has ended well has retrieved. -/
theorem Retrieves.arrived {effect : Effect}
    (h : x.Retrieves (.finished (.operated (.ok effect))) v) :
    ∃ count, effect = .copied count ∧ x.Arrived v count := by
  cases h with
  | finished arrived => exact arrived effect rfl

theorem retrieves_failed {e : Error} : x.Retrieves (.finished (.operated (.error e))) v :=
  .finished fun _ heffect => by cases heffect

variable {s : Shared}

/-- The path of the file is resolved, or not. -/
theorem Awaits.resolves (h : x.Awaits v) (ha : x.base.Alike v) (hs : s.Spares x.base x.keep)
    {id : HandleId} {r : Resolve} (hpath : r.path = x.path)
    {p : Pending (Shared → Task × Shared)}
    (hp : (Task.operating id (.resolving .read r)).next? s = some p) {answer : p.request.Answer}
    (hanswer : diskWorld.answer 0 p.request (transfer, v) = (answer, transfer', v')) :
    transfer' = transfer ∧ x.base.Alike v' ∧ (p.resume answer s).2.Spares x.base x.keep ∧
      x.Retrieves (p.resume answer s).1 v' := by
  cases hp
  obtain ⟨rfl, hreply⟩ := reply_of_answer hanswer
  obtain ⟨rfl, hfound⟩ := DiskStore.eq_of_reply_resolve hreply
  rcases answer with f | file
  · exact ⟨rfl, ha, hs.congr rfl, retrieves_failed⟩
  · refine ⟨rfl, ha, ?_⟩
    have hfile := hfound file rfl
    rw [hpath] at hfile
    simp only [Operation.next, Pending.map, Resolve.next, Resolve.succeed, Operation.resolveStep,
      Operation.resolved]
    cases (s.modifyHandle r.handle _).handle? id with
    | none => exact ⟨hs.congr rfl, retrieves_failed⟩
    | some handle => exact ⟨hs.congr rfl, .reading hfile (.opening h)⟩

/-- A read goes on, or it has ended. -/
theorem Copies.reads {p : Read.Place} (h : x.Copies v (.paused p)) (ha : x.base.Alike v)
    (hb : x.base.Rooted) (hs : s.Spares x.base x.keep) {id : HandleId} {backend : Backend}
    {file : FileRef} (hfile : x.path.normal = .ok file.path)
    (htarget : transfer.target = .stream x.outlet) {q : Pending (Shared → Task × Shared)}
    (hq : (Task.operating id (.reading backend file p)).next? s = some q)
    {answer : q.request.Answer}
    (hanswer : diskWorld.answer 0 q.request (transfer, v) = (answer, transfer', v')) :
    transfer' = transfer ∧ x.base.Alike v' ∧ (q.resume answer s).2.Spares x.base x.keep ∧
      x.Retrieves (q.resume answer s).1 v' := by
  cases hq
  have hnext := h.next ha hb hfile htarget hanswer
  simp only [Operation.next, Pending.map]
  generalize (Read.next backend file p).resume answer = step at hnext ⊢
  obtain ⟨htransfer, ha', hcopies⟩ := hnext
  refine ⟨htransfer, ha', ?_⟩
  cases hcopies with
  | done arrived =>
    refine ⟨hs.congr rfl, .finished fun effect heffect => ?_⟩
    rename_i result
    cases result with
    | error f => cases heffect
    | ok count =>
      cases heffect
      exact ⟨count, rfl, arrived count rfl⟩
  | opening awaits => exact ⟨hs, .reading hfile (.opening awaits)⟩
  | reading reaches goes => exact ⟨hs, .reading hfile (.reading reaches goes)⟩
  | pushing reaches goes => exact ⟨hs, .reading hfile (.pushing reaches goes)⟩
  | flushing arrived => exact ⟨hs, .reading hfile (.flushing arrived)⟩

/-- A read into an open stream is an undertaking. -/
theorem undertaking (hb : x.base.Rooted) (grounds : Backend × Path × LockConfig)
    (htarget : transfer.target = .stream x.outlet) :
    Undertaking x.base x.keep grounds transfer x.Retrieves where
  aside := Retrieves.aside
  next := by
    intro t v s p answer transfer' v' h ha hs hgrounds hp hanswer
    cases h with
    | resolving awaits path => exact awaits.resolves ha hs path hp hanswer
    | reading normal copies => exact copies.reads ha hb hs normal htarget hp hanswer
    | finished arrived => cases hp

end Retrieval

end FileGateway

import FileGateway.Proofs.Gateway.Pursuit
import FileGateway.Proofs.Operation.Delivery
import FileGateway.Proofs.Operation.Draining
import FileGateway.Proofs.Operation.Retrieval

/-!
# Reads that come to an end

A read ends if there is an end to the file, whether the caller collects what is read or has it
written to an open stream (`Fetch`). What is written is not read again: if the stream is open to the
file that is read, the file was emptied. Operations that move no bytes end anyway (`Task.IsBrief`).
-/

namespace FileGateway

open CommandLine (Transfer Target)

/-- The stream that a target writes to, if it does not collect. -/
def CommandLine.Target.outlet? : Target → Option StreamId
  | .collected _ => none
  | .stream id => some id

/-- The target goes on with a piece that it has taken. -/
theorem outlet_of_push {transfer transfer' : Transfer} {v v' : Volume} {piece : Bytes}
    {answer : Result Unit}
    (h : diskWorld.answer 0 (.push piece) (transfer, v) = (answer, transfer', v')) :
    transfer'.target.outlet? = transfer.target.outlet? ∧
      (v' = v ∧ (answer = .ok () → transfer.target.outlet? = none) ∨
        ∃ outlet, transfer.target.outlet? = some outlet ∧ v.write outlet piece = .ok v') := by
  cases htarget : transfer.target with
  | collected bytes =>
    simp only [diskWorld, CommandLine.answer, CommandLine.push, htarget] at h
    cases h
    exact ⟨rfl, Or.inl ⟨rfl, fun _ => rfl⟩⟩
  | stream id =>
    obtain ⟨rfl, ⟨rfl, hwrite⟩ | ⟨⟨f, rfl⟩, rfl⟩⟩ := write_of_push htarget h
    · exact ⟨by rw [htarget], Or.inr ⟨id, rfl, hwrite⟩⟩
    · refine ⟨by rw [htarget], Or.inl ⟨rfl, fun hok => ?_⟩⟩
      cases hok

/-- What is read of which there is an end, of no more than `size` bytes: the file of a path, into a
stream if there is one. The `base` is the volume before anything was done. If the path leads
nowhere, the source may be any place. -/
structure Fetch where
  base : Volume
  path : Path
  source : Place
  size : Nat
  outlet? : Option StreamId
  reached : ∀ place, base.Reaches .follow path place → place = source

namespace Fetch

variable {x : Fetch} {v v' : Volume} {transfer transfer' : Transfer} {guards : Guards}

/-- Where others are to leave things alone. -/
def keep (x : Fetch) (place : Place) : Prop :=
  place = x.source

/-- Nothing was read yet. -/
structure Awaits (x : Fetch) (transfer : Transfer) (v : Volume) : Prop where
  target : transfer.target.outlet? = x.outlet?
  bounded : x.base.Reaches .follow x.path x.source → v.Bounded x.size x.source
  apart : x.base.Reaches .follow x.path x.source → ∀ outlet, x.outlet? = some outlet →
    v.Elsewhere (· = x.source) outlet ∨ v.tree.content? x.source = some []

/-- The file is open, and so many bytes were read. -/
def Flows (x : Fetch) (transfer : Transfer) (v : Volume) (stream : StreamId) (count : Nat) : Prop :=
  transfer.target.outlet? = x.outlet? ∧ v.Drains x.source x.size x.outlet? stream count

/-- How far the read of a file has come. -/
def Reads (x : Fetch) (transfer : Transfer) (v : Volume) : Read.Place → Prop
  | .opening => x.Awaits transfer v
  | .reading stream count => x.Flows transfer v stream count
  | .pushing stream count piece => 0 < piece.length ∧
    x.Flows transfer v stream (count + piece.length)
  | .flushing _ => True

/-- How far the task of a read has come. -/
def Takes (x : Fetch) : Task → Guards → Transfer → Volume → Prop
  | .operating _ (.resolving action r), _, transfer, v =>
    action = .read ∧ r.path = x.path ∧ x.Awaits transfer v
  | .operating _ (.reading _ file place), _, transfer, v =>
    x.path.normal = .ok file.path ∧ x.Reads transfer v place
  | .finished _, _, _, _ => True
  | _, _, _, _ => False

theorem Awaits.aside (h : x.Awaits transfer v) (ha : v.Aside x.keep v') :
    x.Awaits transfer v' where
  target := h.target
  bounded := fun hreaches => (h.bounded hreaches).congr (ha.node _ rfl)
  apart := by
    intro hreaches outlet houtlet
    rw [FileTree.content?_congr (ha.node x.source rfl)]
    exact (h.apart hreaches outlet houtlet).imp_left fun helsewhere => helsewhere.aside ha

theorem Takes.aside {t : Task} (h : x.Takes t guards transfer v) (ha : v.Aside x.keep v') :
    x.Takes t guards transfer v' := by
  cases t with
  | operating id place =>
    cases place with
    | resolving action r => exact ⟨h.1, h.2.1, h.2.2.aside ha⟩
    | reading backend file place =>
      refine ⟨h.1, ?_⟩
      cases place with
      | opening => exact Awaits.aside h.2 ha
      | reading stream count => exact ⟨h.2.1, h.2.2.aside ha rfl⟩
      | pushing stream count piece => exact ⟨h.2.1, h.2.2.1, h.2.2.2.aside ha rfl⟩
      | flushing count => trivial
    | _ => exact h
  | _ => exact h

/-- The file is opened. -/
theorem Awaits.opened (h : x.Awaits transfer v) (ha : x.base.Alike v) (hb : x.base.Rooted)
    {file : Path} (hfile : x.path.normal = .ok file) {id : StreamId}
    (hcall : v.openRead file = .ok (id, v')) : v.Alike v' ∧ x.Flows transfer v' id 0 := by
  obtain ⟨spot, hwalk, -, rfl, rfl⟩ := Volume.openRead_ok ha hb hcall
  have hspot : x.base.Reaches .follow x.path spot.place := ⟨file, spot, hfile, hwalk, rfl⟩
  have hsource : spot.place = x.source := x.reached _ hspot
  have hreaches : x.base.Reaches .follow x.path x.source := hsource ▸ hspot
  refine ⟨⟨rfl, .refl _⟩, h.target, ?_, Nat.zero_le _, h.bounded hreaches, fun outlet houtlet => ?_⟩
  · rw [hsource]
    exact List.getElem?_concat_length
  · rcases h.apart hreaches outlet houtlet with ⟨stream, hs, hplace⟩ | hempty
    · refine Or.inl ⟨stream, ?_, hplace⟩
      exact (List.getElem?_append_left (List.getElem?_eq_some_iff.1 hs).1).trans hs
    · exact Or.inr ⟨hempty, rfl⟩

/-- The read of a file makes a move. -/
theorem reads_next {place : Read.Place} (h : x.Reads transfer v place) (ha : x.base.Alike v)
    (hb : x.base.Rooted) {backend : Backend} {file : FileRef}
    (hfile : x.path.normal = .ok file.path)
    {answer : (Read.next backend file place).request.Answer}
    (hanswer : diskWorld.answer 0 (Read.next backend file place).request (transfer, v) =
      (answer, transfer', v')) :
    x.base.Alike v' ∧ ∀ place', (Read.next backend file place).resume answer = .paused place' →
      x.Reads transfer' v' place' := by
  cases place with
  | opening =>
    obtain ⟨rfl, hreply⟩ := reply_of_answer hanswer
    rcases DiskStore.openRead_of_reply hreply with ⟨id, rfl, hcall⟩ | ⟨⟨f, rfl⟩, rfl⟩
    · obtain ⟨halike, hflows⟩ := Awaits.opened h ha hb hfile hcall
      refine ⟨ha.trans halike, fun place' hplace' => ?_⟩
      cases hplace'
      exact hflows
    · exact ⟨ha, nofun⟩
  | reading stream count =>
    obtain ⟨rfl, hreply⟩ := reply_of_answer hanswer
    rcases DiskStore.read_of_reply hreply with ⟨piece, rfl, hcall⟩ | ⟨⟨f, rfl⟩, rfl⟩
    · refine ⟨ha.trans ((Volume.streamed_read hcall).alike), fun place' hplace' => ?_⟩
      cases piece with
      | nil =>
        cases hplace'
        trivial
      | cons first rest =>
        cases hplace'
        exact ⟨Nat.succ_pos _, h.1, h.2.read hcall⟩
    · exact ⟨ha, nofun⟩
  | pushing stream count piece =>
    obtain ⟨hpos, htarget, hdrains⟩ := h
    obtain ⟨hsame, ⟨rfl, -⟩ | ⟨outlet, houtlet, hwrite⟩⟩ := outlet_of_push hanswer
    · refine ⟨ha, fun place' hplace' => ?_⟩
      rcases answer with f | _
      · cases hplace'
      · cases hplace'
        exact ⟨hsame.trans htarget, hdrains⟩
    · refine ⟨ha.trans (Volume.alike_of_write hwrite), fun place' hplace' => ?_⟩
      rcases answer with f | _
      · cases hplace'
      · cases hplace'
        exact ⟨hsame.trans htarget,
          hdrains.write (htarget.symm.trans houtlet) (Nat.lt_add_left _ hpos) hwrite⟩
  | flushing count =>
    cases hanswer
    exact ⟨ha, nofun⟩

variable {s : Shared}

/-- The path of the file is resolved, or not. -/
theorem takes_resolved {id : HandleId} {r : Resolve} (hpath : r.path = x.path)
    (h : x.Awaits transfer v) (ha : x.base.Alike v) (hs : s.Spares x.base x.keep)
    {p : Pending (Shared → Task × Shared)}
    (hp : (Task.operating id (.resolving .read r)).next? s = some p) {answer : p.request.Answer}
    (hanswer : diskWorld.answer 0 p.request (transfer, v) = (answer, transfer', v')) :
    x.base.Alike v' ∧ (p.resume answer s).2.Spares x.base x.keep ∧
      x.Takes (p.resume answer s).1 (p.resume answer s).2.guards transfer' v' := by
  cases hp
  obtain ⟨rfl, hreply⟩ := reply_of_answer hanswer
  obtain ⟨rfl, hfound⟩ := DiskStore.eq_of_reply_resolve hreply
  rcases answer with f | file
  · exact ⟨ha, hs.congr rfl, trivial⟩
  · refine ⟨ha, ?_⟩
    have hfile := hfound file rfl
    rw [hpath] at hfile
    simp only [Operation.next, Pending.map, Resolve.next, Resolve.succeed, Operation.resolveStep,
      Operation.resolved]
    cases (s.modifyHandle r.handle _).handle? id with
    | none => exact ⟨hs.congr rfl, trivial⟩
    | some handle => exact ⟨hs.congr rfl, hfile, h⟩

theorem Takes.within {t : Task} (h : x.Takes t guards transfer v) : t.Within x.size := by
  cases t with
  | operating id place =>
    cases place with
    | reading backend file place =>
      cases place with
      | pushing stream count piece => exact h.2.2.2.within
      | _ => trivial
    | writing t place => exact h.elim
    | _ => trivial
  | _ => trivial

/-- Whatever a read asks for is answered. -/
theorem Takes.opens {t : Task} (h : x.Takes t s.guards transfer v)
    {p : Pending (Shared → Task × Shared)} (hp : t.next? s = some p) :
    Gateway.isOpen s p.request = true := by
  cases t with
  | operating id place =>
    cases hp
    cases place with
    | reading backend file place => cases place <;> rfl
    | writing t place => exact h.elim
    | _ => rfl
  | finished result => cases hp
  | _ => exact h.elim

/-- A read of what there is an end to is pursued to its end. -/
theorem pursuit (x : Fetch) (hb : x.base.Rooted) (grounds : Backend × Path × LockConfig) :
    Pursuit x.base x.keep grounds x.size x.Takes where
  aside := Takes.aside
  within := Takes.within
  opens := fun h hp => h.opens hp
  next := by
    intro t v s p answer transfer transfer' v' h ha hs hgrounds hp hanswer
    cases t with
    | operating id place =>
      cases place with
      | resolving action r =>
        obtain ⟨rfl, hpath, hawaits⟩ := h
        exact takes_resolved hpath hawaits ha hs hp hanswer
      | reading backend file place =>
        obtain ⟨hfile, hreads⟩ := h
        cases hp
        have hnext := reads_next hreads ha hb hfile hanswer
        simp only [Operation.next, Pending.map]
        generalize (Read.next backend file place).resume answer = step at hnext ⊢
        obtain ⟨ha', hreads'⟩ := hnext
        cases step with
        | paused place' => exact ⟨ha', hs, hfile, hreads' place' rfl⟩
        | done result => exact ⟨ha', hs.congr rfl, trivial⟩
      | _ => exact h.elim
    | finished result => cases hp
    | _ => exact h.elim

end Fetch

/-! ## Operations that move no bytes -/

/-- A task that is over, gives a lease up, or is an operation that moves no bytes. -/
def Task.IsBrief : Task → Prop
  | .operating _ (.resolving action _) => action = .probe ∨ action = .delete
  | .operating _ (.probing _ _) | .operating _ (.deleting _ _) | .expiring _ _ | .finished _ => True
  | _ => False

namespace Task

theorem IsBrief.of_isIdle {t : Task} (h : t.IsIdle) : t.IsBrief := by
  cases t with
  | expiring lease place => trivial
  | finished result => trivial
  | _ => exact h.elim

theorem abiding_isBrief (grounds : Backend × Path × LockConfig) : Abiding grounds IsBrief := by
  refine ⟨fun lease => trivial, ?_⟩
  intro t s p ht hgrounds hp answer
  cases t with
  | operating id place =>
    cases place with
    | resolving action r =>
      cases hp
      rcases answer with f | file
      · trivial
      · simp only [Operation.next, Pending.map, Resolve.next, Resolve.succeed,
          Operation.resolveStep, Operation.resolved]
        cases (s.modifyHandle r.handle _).handle? id with
        | none => trivial
        | some handle => rcases ht with rfl | rfl <;> trivial
    | probing backend file =>
      cases hp
      trivial
    | deleting backend file =>
      cases hp
      trivial
    | _ => exact ht.elim
  | expiring lease place =>
    exact .of_isIdle (IsIdle.next? (t := .expiring lease place) trivial hp answer)
  | finished result => cases hp
  | _ => exact ht.elim

theorem IsBrief.within {t : Task} (h : t.IsBrief) (size : Nat) : t.Within size := by
  cases t with
  | operating id place =>
    cases place with
    | reading backend file place => exact h.elim
    | writing t place => exact h.elim
    | _ => trivial
  | _ => trivial

/-- Whatever such a task asks for is answered. -/
theorem IsBrief.opens {t : Task} {s : Shared} (h : t.IsBrief)
    {p : Pending (Shared → Task × Shared)} (hp : t.next? s = some p) :
    Gateway.isOpen s p.request = true := by
  cases t with
  | operating id place =>
    cases hp
    cases place with
    | reading backend file place => exact h.elim
    | writing t place => exact h.elim
    | _ => rfl
  | expiring lease place =>
    cases hp
    cases place <;> rfl
  | finished result => cases hp
  | _ => exact h.elim

end Task

end FileGateway

import FileGateway.Proofs.Gateway.Pursuit
import FileGateway.Proofs.Lease.Alone
import FileGateway.Proofs.Operation.Delivery
import FileGateway.Proofs.Operation.Draining

/-!
# Writes that come to an end

A write ends if there is an end to what it takes in. An `Intake` is that: a text, or a stream that
is drained after so many bytes (`Intake.text`, `Intake.stream`). While it lasts, a write goes on
from its resolve over its lease and its copy to the end (`Intake.Takes`), whatever of its requests
are answered with failures.
-/

namespace FileGateway

open CommandLine (Transfer)

/-- What a write takes in of which there is an end, before its file is opened and while it is
copied: no more than `size` bytes.

While it `Awaits`, nothing was taken in and the file of the path is not open; when it `Flows`, the
file is open and so many bytes were taken in. Others are to leave things alone where `keep` says
so. -/
structure Intake (base : Volume) (path : Path) (append : Bool) where
  size : Nat
  keep : Place → Prop
  Awaits : Transfer → Volume → Prop
  Flows : Transfer → Volume → StreamId → Nat → Prop
  present : ∀ {transfer v place}, Awaits transfer v → keep place → v.tree.node? place ≠ none
  awaits_aside : ∀ {transfer v v'}, Awaits transfer v → v.Aside keep v' → Awaits transfer v'
  flows_aside : ∀ {transfer v v' stream count}, Flows transfer v stream count →
    v.Aside keep v' → Flows transfer v' stream count
  opened : ∀ {transfer v v' file stream}, Awaits transfer v → base.Alike v →
    path.normal = .ok file → v.openWrite file append = .ok (stream, v') →
    Flows transfer v' stream 0
  drawn : ∀ {transfer transfer' v v' stream count piece}, Flows transfer v stream count →
    diskWorld.answer 0 .pull (transfer, v) = (.ok piece, transfer', v') →
    Flows transfer' v' stream (count + piece.length)
  written : ∀ {transfer v v' stream count piece}, Flows transfer v stream count → 0 < count →
    v.write stream piece = .ok v' → Flows transfer v' stream count
  within : ∀ {transfer v stream count}, Flows transfer v stream count → count ≤ size

/-- The next piece of a text. -/
theorem text_of_pull {transfer transfer' : Transfer} {v v' : Volume} {rest : Bytes}
    {answer : Result Bytes} (hsupply : transfer.supply = .text rest)
    (h : diskWorld.answer 0 .pull (transfer, v) = (answer, transfer', v')) :
    v' = v ∧ transfer'.supply = .text (rest.drop FileAccess.pieceSize) ∧
      answer = .ok (rest.take FileAccess.pieceSize) := by
  simp only [diskWorld, CommandLine.answer, CommandLine.pull, hsupply] at h
  cases h
  exact ⟨rfl, rfl, rfl⟩

theorem alike_of_pull {transfer transfer' : Transfer} {v v' : Volume} {answer : Result Bytes}
    (h : diskWorld.answer 0 .pull (transfer, v) = (answer, transfer', v')) : v.Alike v' := by
  cases hsupply : transfer.supply with
  | text rest =>
    obtain ⟨rfl, -, -⟩ := text_of_pull hsupply h
    exact .refl _
  | stream id =>
    obtain ⟨-, ⟨piece, -, hread⟩ | ⟨-, rfl⟩⟩ := read_of_pull hsupply h
    · exact (Volume.streamed_read hread).alike
    · exact .refl _

/-- Whoever is to come to a guard has it at once. -/
def Acquire.Place.HasTurn (guards : Guards) : Acquire.Place → Prop
  | resolving => guards.Free
  | queued bid => guards.holds bid.ticket = true
  | _ => True

namespace Intake

/-! ## Texts and streams -/

/-- A text is taken in. -/
def text (base : Volume) (path : Path) (append : Bool) (data : Bytes) :
    Intake base path append where
  size := data.length
  keep := fun _ => False
  Awaits := fun transfer _ => transfer.supply = .text data
  Flows := fun transfer _ _ count => ∃ rest, transfer.supply = .text rest ∧
    count + rest.length = data.length
  present := fun _ hkeep => hkeep.elim
  awaits_aside := fun h _ => h
  flows_aside := fun h _ => h
  opened := fun h _ _ _ => ⟨data, h, Nat.zero_add _⟩
  drawn := by
    rintro transfer transfer' v v' stream count piece ⟨rest, hsupply, hlength⟩ hanswer
    obtain ⟨-, hsupply', hpiece⟩ := text_of_pull hsupply hanswer
    cases hpiece
    refine ⟨_, hsupply', ?_⟩
    rw [Nat.add_assoc, length_piece, hlength]
  written := fun h _ _ => h
  within := by
    rintro transfer v stream count ⟨rest, -, hlength⟩
    exact Nat.le.intro hlength

/-- A stream is taken in that is open to some place. There is an end to it, and the file of the path
is not appended to by what it holds itself. -/
def stream {base : Volume} (hb : base.Rooted) (path : Path) (append : Bool) (source : Place)
    (inlet : StreamId) (hfull : base.tree.node? source ≠ some (.device .full))
    (hself : append = true → base.Reaches .create path source → base.tree.bytes source = []) :
    Intake base path append where
  size := (base.tree.bytes source).length
  keep := (· = source)
  Awaits := fun transfer v => transfer.supply = .stream inlet ∧
    v.streams[inlet]? = some ⟨source, 0, false⟩ ∧ v.tree.node? source ≠ none ∧
    base.tree.AgreeAt v.tree source
  Flows := fun transfer v outlet count => transfer.supply = .stream inlet ∧
    v.Drains source (base.tree.bytes source).length (some outlet) inlet count
  present := fun h hplace => hplace ▸ h.2.2.1
  awaits_aside := by
    rintro transfer v v' ⟨hsupply, hreads, hpresent, hagree⟩ ha
    have hnode := ha.node source rfl
    exact ⟨hsupply, ha.stream hreads rfl, hnode ▸ hpresent,
      hagree.trans (FileTree.agreeAt_of_eq hnode)⟩
  flows_aside := fun h ha => ⟨h.1, h.2.aside ha rfl⟩
  opened := by
    rintro transfer v v' file outlet ⟨hsupply, hreads, -, hagree⟩ ha hfile hcall
    obtain ⟨spot, hwalk, hopens⟩ := Volume.openWrite_ok ha hb hcall
    obtain ⟨hbounded, hapart⟩ := hopens.bounded (Volume.bounded_of_agreeAt hagree hfull)
      fun htarget happend => by
        rw [FileTree.bytes_of_agreeAt hagree]
        exact hself happend ⟨file, spot, hfile, hwalk, htarget⟩
    refine ⟨hsupply, hopens.older hreads, Nat.zero_le _, hbounded, ?_⟩
    intro other hother
    cases hother
    exact hapart.imp_right fun hempty => ⟨hempty, rfl⟩
  drawn := by
    rintro transfer transfer' v v' outlet count piece ⟨hsupply, hdrains⟩ hanswer
    obtain ⟨rfl, ⟨piece', hpiece, hread⟩ | ⟨⟨f, hfailed⟩, -⟩⟩ := read_of_pull hsupply hanswer
    · cases hpiece
      exact ⟨hsupply, hdrains.read hread⟩
    · cases hfailed
  written := fun h hcount hwrite => ⟨h.1, h.2.write rfl hcount hwrite⟩
  within := fun h => h.2.within

/-! ## Writes -/

variable {base v v' : Volume} {path : Path} {mode : WriteMode} {transfer transfer' : Transfer}
  {guards : Guards}

/-- How far the copy of a write has come. -/
def Copies (x : Intake base path mode.append) (transfer : Transfer) (v : Volume) :
    Copy.Place → Prop
  | .opening => x.Awaits transfer v
  | .pulling stream count => x.Flows transfer v stream count
  | .writing stream count piece => 0 < piece.length ∧
    x.Flows transfer v stream (count + piece.length)
  | .finishing _ _ => True

/-- How far a write of a resolved file has come. -/
def Writes (x : Intake base path mode.append) (guards : Guards) (transfer : Transfer)
    (v : Volume) : Write.Place → Prop
  | .locking a place => x.Awaits transfer v ∧ (LeaseOp.acquire a place).Spares base x.keep v ∧
    place.HasTurn guards
  | .copying _ place => x.Copies transfer v place
  | .unlocking lease _ place _ => (LeaseOp.surrender ⟨lease, false⟩ place).Spares base x.keep v

/-- How far the task of a write has come. -/
def Takes (x : Intake base path mode.append) : Task → Guards → Transfer → Volume → Prop
  | .operating _ (.resolving action r), guards, transfer, v =>
    action = .write mode ∧ r.path = path ∧ guards.Free ∧ x.Awaits transfer v
  | .operating _ (.writing t place), guards, transfer, v =>
    path.normal = .ok t.file.path ∧ t.append = mode.append ∧ x.Writes guards transfer v place
  | .finished _, _, _, _ => True
  | _, _, _, _ => False

variable {x : Intake base path mode.append}

theorem Copies.aside {place : Copy.Place} (h : x.Copies transfer v place)
    (ha : v.Aside x.keep v') : x.Copies transfer v' place := by
  cases place with
  | opening => exact x.awaits_aside h ha
  | pulling stream count => exact x.flows_aside h ha
  | writing stream count piece => exact ⟨h.1, x.flows_aside h.2 ha⟩
  | finishing stream count => trivial

theorem Takes.aside {t : Task} (h : x.Takes t guards transfer v) (ha : v.Aside x.keep v') :
    x.Takes t guards transfer v' := by
  cases t with
  | operating id place =>
    cases place with
    | resolving action r =>
      obtain ⟨haction, hpath, hfree, hawaits⟩ := h
      exact ⟨haction, hpath, hfree, x.awaits_aside hawaits ha⟩
    | writing t place =>
      obtain ⟨hfile, happend, hwrites⟩ := h
      refine ⟨hfile, happend, ?_⟩
      cases place with
      | locking a place =>
        obtain ⟨hawaits, hspares, hturn⟩ := hwrites
        exact ⟨x.awaits_aside hawaits ha, hspares.aside ha, hturn⟩
      | copying lease place => exact Copies.aside hwrites ha
      | unlocking lease marker place copied => exact LeaseOp.Spares.aside hwrites ha
    | _ => exact h
  | _ => exact h

/-- A copy makes a move. -/
theorem Copies.next {place : Copy.Place} (h : x.Copies transfer v place) (ha : base.Alike v)
    (hb : base.Rooted) {backend : Backend} {file : FileRef} (hfile : path.normal = .ok file.path)
    {reply : Reply} {step : Step Copy.Place (Result Nat)}
    (hm : Copy.Goes backend file mode.append place reply step)
    (hanswer : diskWorld.answer 0 reply.1 (transfer, v) = (reply.2, transfer', v')) :
    base.Alike v' ∧ ∀ place', step = .paused place' → x.Copies transfer' v' place' := by
  cases hm with
  | opened stream =>
    obtain ⟨rfl, hreply⟩ := reply_of_answer hanswer
    rcases DiskStore.openWrite_of_reply hreply with ⟨id, heq, hcall⟩ | ⟨⟨f, heq⟩, -⟩
    · cases heq
      obtain ⟨spot, -, hopens⟩ := Volume.openWrite_ok ha hb hcall
      refine ⟨ha.trans hopens.alike, fun _ hstep => ?_⟩
      cases hstep
      exact x.opened h ha hfile hcall
    · cases heq
  | unopened f =>
    obtain ⟨rfl, hreply⟩ := reply_of_answer hanswer
    rcases DiskStore.openWrite_of_reply hreply with ⟨id, heq, -⟩ | ⟨-, rfl⟩
    · cases heq
    · exact ⟨ha, nofun⟩
  | ended stream count =>
    refine ⟨ha.trans (alike_of_pull hanswer), fun _ hstep => ?_⟩
    cases hstep
    trivial
  | pulled stream count byte rest =>
    refine ⟨ha.trans (alike_of_pull hanswer), fun _ hstep => ?_⟩
    cases hstep
    exact ⟨Nat.succ_pos _, x.drawn h hanswer⟩
  | unpulled stream count f => exact ⟨ha.trans (alike_of_pull hanswer), nofun⟩
  | written stream count piece =>
    obtain ⟨rfl, hreply⟩ := reply_of_answer hanswer
    rcases DiskStore.write_of_reply hreply with ⟨-, hcall⟩ | ⟨⟨f, heq⟩, -⟩
    · refine ⟨ha.trans (Volume.alike_of_write hcall), fun _ hstep => ?_⟩
      cases hstep
      exact x.written h.2 (Nat.lt_add_left _ h.1) hcall
    · cases heq
  | unwritten stream count piece f =>
    obtain ⟨rfl, hreply⟩ := reply_of_answer hanswer
    rcases DiskStore.write_of_reply hreply with ⟨heq, -⟩ | ⟨-, rfl⟩
    · cases heq
    · exact ⟨ha, nofun⟩
  | finished stream count =>
    cases hanswer
    exact ⟨ha, nofun⟩
  | unfinished stream count f => cases hanswer

/-! ### Moves -/

variable {s : Shared} {dir : Path} {lock : LockConfig}

/-- The write of the resolved file begins: with its lease, or at once with the copy. -/
theorem takes_start {t : Write.Target} (hawaits : x.Awaits transfer v)
    (hs : s.Spares base x.keep) (hfree : s.guards.Free) (hfile : path.normal = .ok t.file.path)
    (happend : t.append = mode.append) (hbackend : t.backend = .disk) (options : Options)
    (id : HandleId) :
    let started := Write.start t options lock s
    let task := Task.ofOperation id (Operation.writeStep t started.1) started.2
    task.2.Spares base x.keep ∧ x.Takes task.1 task.2.guards transfer v := by
  simp only [Write.start]
  cases lock.scheme with
  | none => exact ⟨hs, hfile, happend, hawaits⟩
  | marker =>
    simp only
    cases hfresh : Lease.fresh t.file.path with
    | error e => exact ⟨hs.congr rfl, trivial⟩
    | ok l =>
      simp only
      rw [Acquire.start_fresh hfresh rfl]
      refine ⟨(hs.add (Lease.state_fresh hfresh).2).modify _ fun _ => rfl, hfile, happend, hawaits,
        ⟨?_, fun file _ spot _ hkeep => x.present hawaits hkeep⟩, hfree⟩
      rw [hbackend]
      rfl

/-- The path of the file is resolved, or not. -/
theorem takes_resolved {id : HandleId} {r : Resolve} (hpath : r.path = path)
    (hfree : s.guards.Free) (hawaits : x.Awaits transfer v) (ha : base.Alike v)
    (hs : s.Spares base x.keep)
    (hgrounds : ∀ y ∈ s.registry.built.map Handle.grounds, y = Delivery.grounds dir lock)
    {p : Pending (Shared → Task × Shared)}
    (hp : (Task.operating id (.resolving (.write mode) r)).next? s = some p)
    {answer : p.request.Answer}
    (hanswer : diskWorld.answer 0 p.request (transfer, v) = (answer, transfer', v')) :
    base.Alike v' ∧ (p.resume answer s).2.Spares base x.keep ∧
      x.Takes (p.resume answer s).1 (p.resume answer s).2.guards transfer' v' := by
  cases hp
  obtain ⟨rfl, hreply⟩ := reply_of_answer hanswer
  obtain ⟨rfl, hfound⟩ := DiskStore.eq_of_reply_resolve hreply
  rcases answer with f | file
  · exact ⟨ha, hs.congr rfl, trivial⟩
  · refine ⟨ha, ?_⟩
    have hfile := hfound file rfl
    rw [hpath] at hfile
    -- the handle is healthier now, and otherwise as it was
    simp only [Operation.next, Pending.map, Resolve.next, Resolve.succeed, Operation.resolveStep,
      Operation.resolved]
    have hlasts : (s.modifyHandle r.handle fun h => { h with policy := h.policy.succeed.2 }
        ).registry.built.map Handle.grounds = s.registry.built.map Handle.grounds :=
      Shared.lasting_grounds.handles s r.handle _ fun h => ⟨h.options, h.modified, _, rfl⟩
    rw [← hlasts] at hgrounds
    generalize hs' : (s.modifyHandle r.handle fun h => { h with policy := h.policy.succeed.2 }) = s'
      at hgrounds ⊢
    have hspares : s'.Spares base x.keep := hs.congr (by rw [← hs']; rfl)
    have hfree' : s'.guards.Free := by
      rw [← hs']
      exact hfree
    cases hhandle : s'.handle? id with
    | none => exact ⟨hspares.congr rfl, trivial⟩
    | some handle =>
      have hbuilt := hgrounds _ (List.mem_map_of_mem (List.mem_of_getElem? hhandle))
      exact takes_start hawaits hspares hfree' hfile rfl (congrArg Prod.fst hbuilt) _ id

/-- Whoever goes on with an acquisition has its turn. -/
theorem hasTurn_moves {writer : Diagnostics} {s' : Shared} {a : Acquire}
    {place place' : Acquire.Place} {reply : Reply}
    (hm : (LeaseOp.acquire a place).Moves writer s reply (.paused (.acquire a place')) s')
    (h : place.HasTurn s.guards) : place'.HasTurn s'.guards := by
  cases hm with
  | resolved _ marker => exact h.holds_arrive _
  | granted _ bid => cases a.backend.exclusiveCreate <;> trivial
  | _ => trivial

/-- The task of a write makes a move: its lease is acquired, its copy goes on, or its lease is given
up. -/
theorem takes_goes (id : HandleId) {t : Write.Target} {place : Write.Place}
    (hfile : path.normal = .ok t.file.path) (happend : t.append = mode.append)
    (h : x.Writes s.guards transfer v place) (ha : base.Alike v) (hb : base.Rooted)
    (hs : s.Spares base x.keep) {writer : Diagnostics} {reply : Reply}
    {step : Step Write.Place (Except Error Nat)} {s' : Shared}
    (hm : Write.Goes writer t s place reply step s')
    (hanswer : diskWorld.answer 0 reply.1 (transfer, v) = (reply.2, transfer', v')) :
    base.Alike v' ∧ s'.Spares base x.keep ∧ x.Takes
      (Task.ofOperation id (Operation.writeStep t step) s').1 s'.guards transfer' v' := by
  cases place with
  | locking a p =>
    obtain ⟨hawaits, hspares, hturn⟩ := h
    cases hm with
    | locks a p p' reply s' move =>
      obtain ⟨rfl, haside⟩ := hspares.moves hs ha hb move hanswer
      exact ⟨ha.trans haside.volume.alike, hspares.shared hs move, hfile, happend,
        x.awaits_aside hawaits haside.volume, haside.leaseOp _ rfl, hasTurn_moves move hturn⟩
    | locked a s' move =>
      obtain ⟨rfl, haside⟩ := hspares.moves hs ha hb move hanswer
      exact ⟨ha.trans haside.volume.alike, hspares.shared hs move, hfile, happend,
        x.awaits_aside hawaits haside.volume⟩
    | refused a error s' move =>
      obtain ⟨rfl, haside⟩ := hspares.moves hs ha hb move hanswer
      exact ⟨ha.trans haside.volume.alike, hspares.shared hs move, trivial⟩
  | copying lease p =>
    have hcopy : ∀ {step : Step Copy.Place (Result Nat)},
        Copy.Goes t.backend t.file t.append p reply step →
          base.Alike v' ∧ ∀ p', step = .paused p' → x.Copies transfer' v' p' := by
      intro step move
      rw [happend] at move
      exact Copies.next h ha hb hfile move hanswer
    cases hm with
    | copies lease p p' reply move =>
      obtain ⟨ha', hcopies⟩ := hcopy move
      exact ⟨ha', hs, hfile, happend, hcopies p' rfl⟩
    | copied p reply result move => exact ⟨(hcopy move).1, hs, trivial⟩
    | unlocks lease l p reply result move found active =>
      exact ⟨(hcopy move).1, hs.modify lease fun _ => rfl, hfile, happend, trivial⟩
    | lost lease p reply result move gone => exact ⟨(hcopy move).1, hs, trivial⟩
  | unlocking lease marker p result =>
    have hspares : (LeaseOp.surrender ⟨lease, false⟩ p).Spares base x.keep v := h
    cases hm with
    | unlocking lease marker p p' result reply s' move =>
      obtain ⟨rfl, haside⟩ := hspares.moves hs ha hb move hanswer
      exact ⟨ha.trans haside.volume.alike, hspares.shared hs move, hfile, happend,
        haside.leaseOp _ rfl⟩
    | unlocked lease marker p result removed reply s' move =>
      obtain ⟨rfl, haside⟩ := hspares.moves hs ha hb move hanswer
      exact ⟨ha.trans haside.volume.alike, hspares.shared hs move, trivial⟩

/-- Whatever a write asks for is answered. -/
theorem Takes.opens {t : Task} (h : x.Takes t s.guards transfer v)
    {p : Pending (Shared → Task × Shared)} (hp : t.next? s = some p) :
    Gateway.isOpen s p.request = true := by
  cases t with
  | operating id place =>
    cases hp
    cases place with
    | writing t place =>
      cases place with
      | locking a place =>
        cases place with
        | queued bid => exact h.2.2.2.2
        | _ => rfl
      | copying lease place => cases place <;> rfl
      | unlocking lease marker place copied => cases place <;> rfl
    | reading backend file place => exact h.elim
    | _ => rfl
  | finished result => cases hp
  | _ => exact h.elim

theorem Takes.within {t : Task} (h : x.Takes t guards transfer v) : t.Within x.size := by
  cases t with
  | operating id place =>
    cases place with
    | writing t place =>
      cases place with
      | copying lease place =>
        cases place with
        | writing stream count piece => exact x.within h.2.2.2
        | _ => trivial
      | _ => trivial
    | reading backend file place => exact h.elim
    | _ => trivial
  | _ => trivial

/-- A write of what there is an end to is pursued to its end. -/
theorem pursuit (x : Intake base path mode.append) (hb : base.Rooted) (dir : Path)
    (lock : LockConfig) : Pursuit base x.keep (Delivery.grounds dir lock) x.size x.Takes where
  aside := Takes.aside
  within := Takes.within
  opens := fun h hp => h.opens hp
  next := by
    intro t v s p answer transfer transfer' v' h ha hs hgrounds hp hanswer
    cases t with
    | operating id place =>
      cases place with
      | resolving action r =>
        obtain ⟨rfl, hpath, hfree, hawaits⟩ := h
        exact takes_resolved hpath hfree hawaits ha hs hgrounds hp hanswer
      | writing t place =>
        obtain ⟨hfile, happend, hwrites⟩ := h
        obtain ⟨step, s', hm, hresume⟩ := Task.goes_of_write hp answer
        obtain ⟨ha', hs', htakes⟩ := takes_goes id hfile happend hwrites ha hb hs hm hanswer
        rw [hresume]
        refine ⟨ha', Delivery.spares_ofOperation hs' _ _, ?_⟩
        rw [(Task.agrees_ofOperation id (Operation.writeStep t step) s').guards]
        exact htakes
      | _ => exact h.elim
    | finished result => cases hp
    | _ => exact h.elim

end Intake

end FileGateway

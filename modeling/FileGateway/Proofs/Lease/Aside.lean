import FileGateway.Proofs.Disk.Passage
import FileGateway.Proofs.Gateway.Solo
import FileGateway.Proofs.Lease.Lifecycle

/-!
# What leases leave alone

Whoever acquires a lease or gives it up makes, writes and removes markers on the disk, and touches
nothing else: everything that is to be kept stays as it is, and so do the streams that are open to
it (`Volume.Aside`). All it takes is that no marker is made where something to be kept may be
(`LeaseOp.Spares`); that goes along with every move of a lease operation (`LeaseOp.Spares.moves`).
-/

namespace FileGateway

open CommandLine (Transfer)

/-! ## Volumes -/

/-- Some places, and the streams that are open to them, are left alone. -/
structure Volume.Aside (keep : Place → Prop) (v v' : Volume) : Prop where
  alike : v.Alike v'
  node : ∀ place, keep place → v'.tree.node? place = v.tree.node? place
  streams : ∀ (id : StreamId) (stream : OpenFile), v.streams[id]? = some stream →
    ∃ stream' : OpenFile, v'.streams[id]? = some stream' ∧ stream'.place = stream.place ∧
      (keep stream.place → stream' = stream)

namespace Volume

variable {keep : Place → Prop} {v v' : Volume} {place : Place} {id : StreamId}

theorem Aside.refl (keep : Place → Prop) (v : Volume) : v.Aside keep v :=
  ⟨.refl v, fun _ _ => rfl, fun _ stream hs => ⟨stream, hs, rfl, fun _ => rfl⟩⟩

/-- Something is changed where nothing is kept. -/
theorem aside_of_update {node : Option Node} (hkeep : ¬ keep place) (halike : v.Alike v')
    (hnode : v'.tree.node? = Function.update v.tree.node? place node)
    (hstreams : ∀ (id : StreamId) (stream : OpenFile), v.streams[id]? = some stream →
      v'.streams[id]? = some stream) :
    v.Aside keep v' where
  alike := halike
  node := by
    intro other hother
    have hne : other ≠ place := fun heq => hkeep (heq ▸ hother)
    rw [hnode, Function.update_of_ne hne]
  streams := fun id stream hs => ⟨stream, hstreams id stream hs, rfl, fun _ => rfl⟩

theorem aside_put (hkeep : ¬ keep place) (hguide : v.tree.guide? place = none) (content : Bytes) :
    v.Aside keep { v with tree := v.tree.put place (.file content) } :=
  aside_of_update hkeep ⟨rfl, FileTree.alike_put hguide content⟩
    (v.tree.node?_put (FileTree.ne_nil_of_guide? hguide) _) fun _ _ hs => hs

theorem aside_erase (hkeep : ¬ keep place) (hguide : v.tree.guide? place = none) :
    v.Aside keep { v with tree := v.tree.erase place } :=
  aside_of_update hkeep ⟨rfl, FileTree.alike_erase hguide⟩
    (v.tree.node?_erase (FileTree.ne_nil_of_guide? hguide)) fun _ _ hs => hs

theorem Opens.aside {append : Bool} (h : v.Opens v' place append id) (hkeep : ¬ keep place) :
    v.Aside keep v' :=
  aside_of_update hkeep h.alike h.node fun _ _ hs => h.older hs

/-- A stream to something that is kept stays as it is. -/
theorem Aside.stream (ha : v.Aside keep v') {stream : OpenFile}
    (hs : v.streams[id]? = some stream) (hkeep : keep stream.place) :
    v'.streams[id]? = some stream := by
  obtain ⟨stream', hs', -, hsame⟩ := ha.streams id stream hs
  rw [← hsame hkeep]
  exact hs'

/-- A stream is open to something that is not to be kept. -/
def Elsewhere (keep : Place → Prop) (v : Volume) (id : StreamId) : Prop :=
  ∃ stream, v.streams[id]? = some stream ∧ ¬ keep stream.place

theorem Elsewhere.aside (h : v.Elsewhere keep id) (ha : v.Aside keep v') :
    v'.Elsewhere keep id := by
  obtain ⟨stream, hs, hkeep⟩ := h
  obtain ⟨stream', hs', hplace, -⟩ := ha.streams id stream hs
  exact ⟨stream', hs', hplace ▸ hkeep⟩

theorem aside_write {piece : Bytes} (h : v.Elsewhere keep id) (hwrite : v.write id piece = .ok v') :
    v.Aside keep v' := by
  obtain ⟨stream, hs, hkeep⟩ := h
  by_cases hnode : ∃ content, v.tree.node? stream.place = some (.file content)
  · obtain ⟨content, hfile⟩ := hnode
    obtain ⟨new, offset, -, hok⟩ := write_file hs hfile piece
    rw [hok] at hwrite
    cases hwrite
    obtain ⟨hput, halike⟩ := Passage.put_file hfile new
    refine ⟨⟨rfl, halike⟩, fun place hplace => ?_, fun other old hold => ?_⟩
    · have hne : place ≠ stream.place := fun heq => hkeep (heq ▸ hplace)
      exact (congrFun hput place).trans (Function.update_of_ne hne _ _)
    · by_cases hother : id = other
      · subst hother
        rw [hs] at hold
        cases hold
        exact ⟨_, stream_set hs _, rfl, fun hkept => absurd hkept hkeep⟩
      · exact ⟨old, (List.getElem?_set_ne hother).trans hold, rfl, fun _ => rfl⟩
  · have hsame : v' = v := write_elsewhere hs (fun c hc => hnode ⟨c, hc⟩) hwrite
    subst hsame
    exact .refl keep v'

/-! ## Markers -/

variable {base : Volume} {file : FileRef}

/-- If a file can be made, it is not where something is to be kept. -/
def Clear (base : Volume) (keep : Place → Prop) (v : Volume) (file : FileRef) : Prop :=
  ∀ spot, base.walk .stay file.path = .ok spot → keep spot.place → v.tree.node? spot.place ≠ none

/-- A file is not where something is to be kept, nor where walks pass. -/
def Apart (base : Volume) (keep : Place → Prop) (file : FileRef) : Prop :=
  ∃ spot, base.walk .stay file.path = .ok spot ∧ ¬ keep spot.place ∧
    base.tree.guide? spot.place = none

theorem Clear.aside (h : base.Clear keep v file) (ha : v.Aside keep v') :
    base.Clear keep v' file := by
  intro spot hwalk hkeep
  rw [ha.node _ hkeep]
  exact h spot hwalk hkeep

theorem Clear.created (h : base.Clear keep v file) (ha : base.Alike v) (hb : base.Rooted)
    (hcall : v.createNew file.path = .ok v') : base.Apart keep file ∧ v.Aside keep v' := by
  obtain ⟨spot, hwalk, hvacant, rfl⟩ := createNew_ok ha hb hcall
  have hkeep : ¬ keep spot.place := fun hkeep => h spot hwalk hkeep hvacant
  have hguide : v.tree.guide? spot.place = none := by
    rw [FileTree.guide?, hvacant]
    rfl
  exact ⟨⟨spot, hwalk, hkeep, (ha.tree spot.place).symm.trans hguide⟩,
    aside_put hkeep hguide []⟩

theorem Apart.opened (h : base.Apart keep file) (ha : base.Alike v) (hb : base.Rooted)
    (hcall : v.openWrite file.path false = .ok (id, v')) :
    v.Aside keep v' ∧ v'.Elsewhere keep id := by
  obtain ⟨spot, hstay, hkeep, hguide⟩ := h
  obtain ⟨spot', hcreate, hopens⟩ := openWrite_ok ha hb hcall
  -- there is no link, so the file is opened where it was made
  have hlink : ∀ target, spot.node ≠ some (.link target) := by
    intro target hnode
    rw [FileTree.told_walk hb.tree hb.here hstay] at hnode
    rw [FileTree.guide?, hnode] at hguide
    cases hguide
  have hspot : spot' = spot := FileTree.walk_create hstay hlink hcreate
  subst hspot
  exact ⟨hopens.aside hkeep, _, hopens.stream, hkeep⟩

theorem Apart.removed (h : base.Apart keep file) (ha : base.Alike v) (hb : base.Rooted)
    (hcall : v.remove file.path = .ok v') : v.Aside keep v' := by
  obtain ⟨spot, hstay, hkeep, hguide⟩ := h
  obtain ⟨spot', hstay', rfl⟩ := remove_ok ha hb hcall
  rw [hstay] at hstay'
  cases hstay'
  exact aside_erase hkeep ((ha.tree spot.place).trans hguide)

end Volume

/-! ## Passages

Bytes that are on their way from one place to another are not disturbed if both places are kept.
-/

namespace Passage

variable {keep : Place → Prop} {x : Passage} {v v' : Volume} {inlet outlet : StreamId} {count : Nat}
  {piece : Bytes}

theorem Flows.aside (h : x.Flows v inlet outlet count piece) (ha : v.Aside keep v')
    (hsource : keep x.source) (htarget : keep x.target) : x.Flows v' inlet outlet count piece where
  reads := ha.stream h.reads hsource
  writes := by
    obtain ⟨offset, hs, hoffset⟩ := h.writes
    refine ⟨offset, ha.stream hs htarget, ?_⟩
    rw [ha.node _ htarget]
    exact hoffset
  content := (FileTree.content?_congr (ha.node _ hsource)).trans h.content
  holds := (ha.node _ htarget).trans h.holds
  next := h.next
  bound := h.bound
  apart := h.apart
  distinct := h.distinct

theorem Endless.aside (h : x.Endless v inlet outlet piece) (ha : v.Aside keep v')
    (hsource : keep x.source) (htarget : keep x.target) : x.Endless v' inlet outlet piece where
  reads := by
    obtain ⟨offset, hs, hreads⟩ := h.reads
    refine ⟨offset, ha.stream hs hsource, ?_⟩
    rw [FileTree.content?_congr (ha.node _ hsource), ha.node _ hsource]
    exact hreads
  writes := by
    obtain ⟨offset, hs⟩ := h.writes
    exact ⟨offset, ha.stream hs htarget⟩
  distinct := h.distinct

theorem Goes.aside (h : x.Goes v inlet outlet count piece) (ha : v.Aside keep v')
    (hsource : keep x.source) (htarget : keep x.target) : x.Goes v' inlet outlet count piece :=
  h.imp (fun hflows => hflows.aside ha hsource htarget)
    fun hendless => hendless.aside ha hsource htarget

theorem Arrived.aside (h : x.Arrived v count) (ha : v.Aside keep v')
    (hsource : keep x.source) (htarget : keep x.target) : x.Arrived v' count where
  count := h.count
  content := (FileTree.content?_congr (ha.node _ hsource)).trans h.content
  holds := (ha.node _ htarget).trans h.holds

end Passage

/-! ## Lease operations -/

/-- A call to a store is answered by the disk. -/
theorem reply_of_answer {backend : Backend} {call : StoreCall} {answer : call.Answer}
    {transfer transfer' : Transfer} {v v' : Volume}
    (h : diskWorld.answer 0 (.store backend call) (transfer, v) = (answer, transfer', v')) :
    transfer' = transfer ∧ DiskStore.reply call v = (answer, v') := by
  have heq : diskWorld.answer 0 (.store backend call) (transfer, v) =
      ((DiskStore.reply call v).1, transfer, (DiskStore.reply call v).2) := rfl
  rw [heq] at h
  injection h with hanswer hrest
  injection hrest with htransfer hvolume
  exact ⟨htransfer.symm, Prod.ext hanswer hvolume⟩

section

variable {base v v' : Volume} {keep : Place → Prop} {writer : Diagnostics} {s s' : Shared}
  {d : LeaseOp} {reply : Reply} {step : Step LeaseOp LeaseOp.Ending} {transfer transfer' : Transfer}

open Acquire.Place Surrender.Place in
/-- A lease operation has to do with markers that are not where something is to be kept. -/
def LeaseOp.Spares (base : Volume) (keep : Place → Prop) (v : Volume) : LeaseOp → Prop
  | acquire a resolving => a.backend.exclusiveCreate = true ∧
    ∀ file : FileRef, a.marker.normal = .ok file.path → base.Clear keep v file
  | acquire a (queued bid) | acquire a (creating bid) => a.backend.exclusiveCreate = true ∧
    base.Clear keep v bid.marker
  | acquire _ (probing _) | acquire _ (filling _) => False
  | acquire _ (opening bid) | acquire _ (cleaning bid _) | acquire _ (holding bid)
  | acquire _ (activating bid) => base.Apart keep bid.marker
  | acquire _ (writing bid stream) | acquire _ (finishing bid stream) =>
    base.Apart keep bid.marker ∧ v.Elsewhere keep stream
  | acquire _ arming | acquire _ (retreating _) => True
  | surrender _ taking => True
  | surrender _ (cancelling held) => base.Apart keep held.marker
  | surrender _ (removing removal) => base.Apart keep removal.marker

/-- What leases hold is not where something is to be kept. -/
def Shared.Spares (base : Volume) (keep : Place → Prop) (s : Shared) : Prop :=
  ∀ id l held, s.lease? id = some l → l.held = some held → base.Apart keep held.marker

theorem LeaseOp.Spares.aside (h : d.Spares base keep v) (ha : v.Aside keep v') :
    d.Spares base keep v' := by
  cases d with
  | acquire a place =>
    cases place with
    | resolving => exact ⟨h.1, fun file hfile => (h.2 file hfile).aside ha⟩
    | queued bid => exact ⟨h.1, h.2.aside ha⟩
    | creating bid => exact ⟨h.1, h.2.aside ha⟩
    | writing bid stream => exact ⟨h.1, h.2.aside ha⟩
    | finishing bid stream => exact ⟨h.1, h.2.aside ha⟩
    | _ => exact h
  | surrender r place => cases place <;> exact h

/-- What a lease operation that surrenders a lease has to do with is settled. -/
theorem LeaseOp.Spares.surrender {r : Surrender} {place : Surrender.Place}
    (h : (LeaseOp.surrender r place).Spares base keep v) :
    (LeaseOp.surrender r place).Spares base keep v' := by
  cases place <;> exact h

/-- What a lease holds after a move is what it held before, or the marker that was just made. -/
theorem LeaseOp.Spares.change (h : d.Spares base keep v) {now : Instant} {l : Lease} {held : Held}
    (hheld : (d.change now l).held = some held) :
    l.held = some held ∨ base.Apart keep held.marker := by
  cases d with
  | acquire a place =>
    cases place with
    | holding bid =>
      cases hheld
      exact Or.inr h
    | _ => exact Or.inl hheld
  | surrender r place =>
    cases place with
    | taking => cases hheld
    | _ => exact Or.inl hheld

theorem LeaseOp.Spares.shared (h : d.Spares base keep v) (hs : s.Spares base keep)
    (hm : d.Moves writer s reply step s') : s'.Spares base keep := by
  intro id l' held hl' hheld
  rw [hm.lease? rfl] at hl'
  split at hl'
  · obtain ⟨l, hl, rfl⟩ := Option.map_eq_some_iff.1 hl'
    rcases h.change hheld with hold | hnew
    · exact hs id l held hl hold
    · exact hnew
  · exact hs id l' held hl' hheld

/-- What a move of a lease operation makes of the disk, and where the lease operation stands
then. -/
structure LeaseOp.Aside (base : Volume) (keep : Place → Prop) (v v' : Volume)
    (step : Step LeaseOp LeaseOp.Ending) : Prop where
  volume : v.Aside keep v'
  leaseOp : ∀ d, step = .paused d → d.Spares base keep v'

/-- Nothing was done, and the lease operation goes on. -/
theorem LeaseOp.Aside.paused (h : d.Spares base keep v) :
    LeaseOp.Aside base keep v v (.paused d) := by
  refine ⟨.refl keep v, fun d' hd' => ?_⟩
  cases hd'
  exact h

theorem LeaseOp.Aside.done {ending : LeaseOp.Ending} (h : v.Aside keep v') :
    LeaseOp.Aside base keep v v' (.done ending) :=
  ⟨h, fun d' hd' => by cases hd'⟩

/-- A marker is removed, if it can be. -/
theorem aside_of_reply {file : FileRef} (h : base.Apart keep file) (ha : base.Alike v)
    (hb : base.Rooted) {answer : Result Bool}
    (hreply : DiskStore.reply (.delete file) v = (answer, v')) : v.Aside keep v' := by
  rcases DiskStore.remove_of_reply hreply with hcall | rfl
  · exact h.removed ha hb hcall
  · exact .refl keep _

theorem LeaseOp.Spares.surrenders {r : Surrender} {place : Surrender.Place}
    (h : (LeaseOp.surrender r place).Spares base keep v) (hs : s.Spares base keep)
    (ha : base.Alike v) (hb : base.Rooted)
    (hm : (LeaseOp.surrender r place).Moves writer s reply step s')
    (hanswer : diskWorld.answer 0 reply.1 (transfer, v) = (reply.2, transfer', v')) :
    transfer' = transfer ∧ LeaseOp.Aside base keep v v' step := by
  cases hm with
  | empty =>
    cases hanswer
    exact ⟨rfl, .done (.refl keep v)⟩
  | taken _ held hheld =>
    cases hanswer
    obtain ⟨l, hl, hheld⟩ := Option.bind_eq_some_iff.1 hheld
    have hapart := hs _ l held hl hheld
    refine ⟨rfl, .paused ?_⟩
    split <;> exact hapart
  | cancelled =>
    cases hanswer
    exact ⟨rfl, .paused h⟩
  | removed _ removal deleted =>
    obtain ⟨rfl, hreply⟩ := reply_of_answer hanswer
    exact ⟨rfl, .done (aside_of_reply h ha hb hreply)⟩
  | retried _ removal f =>
    obtain ⟨rfl, hreply⟩ := reply_of_answer hanswer
    refine ⟨rfl, aside_of_reply h ha hb hreply, fun d' hd' => ?_⟩
    cases hd'
    exact h
  | abandoned _ removal f =>
    obtain ⟨rfl, hreply⟩ := reply_of_answer hanswer
    exact ⟨rfl, .done (aside_of_reply h ha hb hreply)⟩

theorem LeaseOp.Spares.acquires {a : Acquire} {place : Acquire.Place}
    (h : (LeaseOp.acquire a place).Spares base keep v) (ha : base.Alike v) (hb : base.Rooted)
    (hm : (LeaseOp.acquire a place).Moves writer s reply step s')
    (hanswer : diskWorld.answer 0 reply.1 (transfer, v) = (reply.2, transfer', v')) :
    transfer' = transfer ∧ LeaseOp.Aside base keep v v' step := by
  cases hm with
  | resolved _ marker =>
    obtain ⟨rfl, hreply⟩ := reply_of_answer hanswer
    obtain ⟨rfl, hfound⟩ := DiskStore.eq_of_reply_resolve hreply
    exact ⟨rfl, .paused ⟨h.1, h.2 marker (hfound marker rfl)⟩⟩
  | unresolved _ f =>
    obtain ⟨rfl, hreply⟩ := reply_of_answer hanswer
    obtain ⟨rfl, -⟩ := DiskStore.eq_of_reply_resolve hreply
    exact ⟨rfl, .paused trivial⟩
  | granted _ bid =>
    cases hanswer
    rw [if_pos h.1]
    exact ⟨rfl, .paused h⟩
  | created _ bid =>
    obtain ⟨rfl, hreply⟩ := reply_of_answer hanswer
    rcases DiskStore.createNew_of_reply hreply with ⟨-, hcall⟩ | ⟨hne, -⟩
    · obtain ⟨hapart, haside⟩ := h.2.created ha hb hcall
      refine ⟨rfl, haside, fun d' hd' => ?_⟩
      cases hd'
      exact hapart
    · exact absurd rfl hne
  | beaten _ bid =>
    obtain ⟨rfl, hreply⟩ := reply_of_answer hanswer
    rcases DiskStore.createNew_of_reply hreply with ⟨heq, -⟩ | ⟨-, rfl⟩
    · cases heq
    · exact ⟨rfl, .paused trivial⟩
  | uncreated _ bid f =>
    obtain ⟨rfl, hreply⟩ := reply_of_answer hanswer
    rcases DiskStore.createNew_of_reply hreply with ⟨heq, -⟩ | ⟨-, rfl⟩
    · cases heq
    · exact ⟨rfl, .paused trivial⟩
  | found => exact h.elim
  | missed => exact h.elim
  | unprobed => exact h.elim
  | filled => exact h.elim
  | unfilled => exact h.elim
  | opened _ bid stream =>
    obtain ⟨rfl, hreply⟩ := reply_of_answer hanswer
    rcases DiskStore.openWrite_of_reply hreply with ⟨id, heq, hcall⟩ | ⟨⟨f, heq⟩, -⟩
    · cases heq
      obtain ⟨haside, helsewhere⟩ := Volume.Apart.opened h ha hb hcall
      refine ⟨rfl, haside, fun d' hd' => ?_⟩
      cases hd'
      exact ⟨h, helsewhere⟩
    · cases heq
  | unopened _ bid f =>
    obtain ⟨rfl, hreply⟩ := reply_of_answer hanswer
    rcases DiskStore.openWrite_of_reply hreply with ⟨id, heq, -⟩ | ⟨-, rfl⟩
    · cases heq
    · exact ⟨rfl, .paused h⟩
  | written _ bid stream =>
    obtain ⟨rfl, hreply⟩ := reply_of_answer hanswer
    rcases DiskStore.write_of_reply hreply with ⟨-, hcall⟩ | ⟨⟨f, heq⟩, -⟩
    · have haside := Volume.aside_write h.2 hcall
      refine ⟨rfl, haside, fun d' hd' => ?_⟩
      cases hd'
      exact ⟨h.1, h.2.aside haside⟩
    · cases heq
  | unwritten _ bid stream f =>
    obtain ⟨rfl, hreply⟩ := reply_of_answer hanswer
    rcases DiskStore.write_of_reply hreply with ⟨heq, -⟩ | ⟨-, rfl⟩
    · cases heq
    · exact ⟨rfl, .paused h.1⟩
  | finished _ bid stream =>
    cases hanswer
    exact ⟨rfl, .paused h.1⟩
  | unfinished _ bid stream f => cases hanswer
  | cleaned _ bid f answer =>
    obtain ⟨rfl, hreply⟩ := reply_of_answer hanswer
    refine ⟨rfl, aside_of_reply h ha hb hreply, fun d' hd' => ?_⟩
    cases hd'
    exact trivial
  | held _ bid =>
    cases hanswer
    exact ⟨rfl, .paused h⟩
  | activated _ bid =>
    cases hanswer
    exact ⟨rfl, .paused trivial⟩
  | armed =>
    cases hanswer
    exact ⟨rfl, .done (.refl keep v)⟩
  | retreated _ error =>
    cases hanswer
    exact ⟨rfl, .done (.refl keep v)⟩

/-- Whatever is about a lease, it leaves alone what is to be kept. -/
theorem LeaseOp.Spares.moves (h : d.Spares base keep v) (hs : s.Spares base keep)
    (ha : base.Alike v) (hb : base.Rooted) (hm : d.Moves writer s reply step s')
    (hanswer : diskWorld.answer 0 reply.1 (transfer, v) = (reply.2, transfer', v')) :
    transfer' = transfer ∧ LeaseOp.Aside base keep v v' step := by
  cases d with
  | acquire a place => exact h.acquires ha hb hm hanswer
  | surrender r place => exact h.surrenders hs ha hb hm hanswer

end

end FileGateway

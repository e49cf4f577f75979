import FileGateway.Proofs.Gateway.Solo
import FileGateway.Proofs.Lease.Guards

/-!
# A lease alone on the disk

What acquiring and giving up a lease come to while nobody else is about and the store is the local
disk. How the volume stands to the path of a marker (`Volume.standing`) decides what comes of an
acquisition, and it is the same whichever way markers are created: `Acquire.leads` has one result
for both. Giving a lease up removes what it held, in as many attempts as it takes
(`Surrender.leads`).
-/

namespace FileGateway

open CommandLine (Transfer)

/-! ## Guards that nobody holds -/

/-- Whether nobody holds a guard or waits for one. -/
def Guards.Free (g : Guards) : Prop :=
  ∀ n, g.queue n = []

theorem Guards.free_empty : Guards.empty.Free :=
  fun _ => rfl

namespace Guards.Free

variable {g : Guards}

/-- Whoever comes to a guard that nobody holds has it at once. -/
theorem holds_arrive (h : g.Free) (key : String) :
    (g.arrive key).2.holds (g.arrive key).1 = true := by
  rw [holds_iff, queue_arrive, if_pos rfl, h]
  rfl

theorem leave_arrive (h : g.Free) (key : String) :
    ((g.arrive key).2.leave (g.arrive key).1).Free := by
  intro n
  rw [queue_leave, queue_arrive, h]
  split
  · simp
  · rfl

end Guards.Free

/-! ## Places beside each other -/

namespace FileTree.Open

variable {t : FileTree} {place other : Place}

theorem put (h : t.Open [] place) (hother : t.node? other ≠ some .directory) (node : Node) :
    (t.put other node).Open [] place := by
  have hne : other ≠ [] := fun heq => hother (heq ▸ rfl)
  intro front rest heq hrest
  have hfront := h front rest heq hrest
  rw [node?_put t hne, List.nil_append, Function.update_of_ne]
  · exact hfront
  · rintro rfl
    exact hother hfront

end FileTree.Open

namespace Volume.Finds

variable {v : Volume} {place other : Place}

/-- A file that is put where no directory is takes no place away. -/
theorem put (h : v.Finds place) (hother : v.tree.node? other ≠ some .directory) (content : Bytes)
    (streams : List OpenFile) :
    Volume.Finds ⟨v.tree.put other (.file content), v.here, streams⟩ place :=
  ⟨h.plain.put_file other content, h.nonempty, h.names, h.way.put hother _⟩

end Volume.Finds

/-! ## The volume and the path of a marker -/

/-- How a volume stands to a path: the path cannot be resolved or nothing can be done there, or
there is something, or there is nothing yet and a file can be created. -/
inductive Standing where
  | barred
  | taken
  | vacant (place : Place)

namespace Volume

/-- How a volume stands to a path. -/
def standing (v : Volume) (path : Path) : Standing :=
  match ((DiskStore.resolve path : StateM Volume (Result FileRef)) v).1 with
  | .error _ => .barred
  | .ok _ =>
    let place := path.stack?.getD []
    if (FileTree.barred? place).isSome then .barred
    else if (v.tree.node? place).isSome then .taken
    else .vacant place

/-- The streams that are open have nothing to do with it. -/
theorem standing_congr {v w : Volume} (htree : v.tree = w.tree) (hhere : v.here = w.here)
    (path : Path) : v.standing path = w.standing path := by
  rw [standing, standing, DiskStore.resolve_congr htree hhere, htree]

/-- A file can be created only where the path leads. -/
theorem eq_of_standing {v : Volume} {path : Path} {place : Place}
    (h : v.standing path = .vacant place) : path.stack?.getD [] = place := by
  unfold standing at h
  split at h
  · cases h
  · dsimp only at h
    split at h
    · cases h
    · split at h
      · cases h
      · exact Standing.vacant.inj h

end Volume

theorem splice_nil (piece : Bytes) : splice [] piece 0 = piece := by
  simp [splice]

/-! ## Acquisitions -/

namespace Acquire

/-- What an acquisition comes to that is alone. -/
inductive Ended (a : Acquire) (x : Solo) : Except Error Bool → Solo → Prop where
  | failed (now : Instant) (guards : Guards) (f : Failure) (free : guards.Free)
      (standing : x.volume.standing a.marker = .barred) :
      Ended a x (.error (.filesystem a.marker f))
        ⟨{ x.shared with
            now := now
            guards := guards
            leases := x.shared.leases.modify a.lease fun l => { l with state := .idle } },
          x.transfer, x.volume⟩
  | lost (now : Instant) (guards : Guards) (free : guards.Free)
      (standing : x.volume.standing a.marker = .taken) :
      Ended a x (.ok false)
        ⟨{ x.shared with
            now := now
            guards := guards
            leases := x.shared.leases.modify a.lease fun l => { l with state := .idle } },
          x.transfer, x.volume⟩
  | won (now deadline : Instant) (guards : Guards) (place : FileGateway.Place)
      (streams : List OpenFile) (free : guards.Free)
      (standing : x.volume.standing a.marker = .vacant place) (finds : x.volume.Finds place)
      (unbarred : FileTree.barred? place = none)
      (vacant : x.volume.tree.node? place = none) :
      Ended a x (.ok true)
        ⟨{ x.shared with
            now := now
            guards := guards
            leases := x.shared.leases.modify a.lease fun l =>
              { l with
                held := some ⟨a.backend, .ofNames place⟩
                state := .active
                timer := l.timer.arm deadline }
            timers := x.shared.timers ++ [a.lease] },
          x.transfer,
          { x.volume with
            tree := x.volume.tree.put place (.file x.shared.writer.text.toUTF8.toList)
            streams := streams }⟩

variable {a : Acquire} {x : Solo} {Q : Except Error Bool → Solo → Prop} {n : Nat}

/-- An acquisition that retreats makes its lease idle. -/
theorem leads_retreating {error : Option Error}
    (h : ∀ now, Q (error.elim (.ok false) .error)
      ⟨{ x.shared with
          now := now
          leases := x.shared.leases.modify a.lease fun l => { l with state := .idle } },
        x.transfer, x.volume⟩) :
    Solo.Leads a.next Q 1 (.paused (.retreating error)) x :=
  .answered rfl rfl rfl fun now => .done (h now)

/-- The lease of a marker that is complete notes what it holds, becomes active and starts its
timer. -/
theorem leads_holding {bid : Bid}
    (h : ∀ now deadline, Q (.ok true)
      ⟨{ x.shared with
          now := now
          leases := x.shared.leases.modify a.lease fun l =>
            { l with
              held := some ⟨a.backend, bid.marker⟩
              state := .active
              timer := l.timer.arm deadline }
          timers := x.shared.timers ++ [a.lease] },
        x.transfer, x.volume⟩) :
    Solo.Leads a.next Q 3 (.paused (.holding bid)) x := by
  refine .answered rfl rfl rfl fun held => ?_
  refine .answered rfl rfl rfl fun active => ?_
  refine .answered rfl rfl rfl fun armed => .done ?_
  have hleases : (((x.shared.leases.modify a.lease fun l =>
      { l with held := some ⟨a.backend, bid.marker⟩ }).modify a.lease fun l =>
        { l with state := .active }).modify a.lease fun l =>
          { l with timer := l.timer.arm (armed + a.expiry.nanos) }) =
      x.shared.leases.modify a.lease fun l =>
        { l with
          held := some ⟨a.backend, bid.marker⟩
          state := .active
          timer := l.timer.arm (armed + a.expiry.nanos) } := by
    rw [List.modify_modify_eq, List.modify_modify_eq]
    rfl
  have hwon := h armed (armed + a.expiry.nanos)
  rw [← hleases] at hwon
  exact hwon

/-- A marker that was created is written. -/
theorem leads_opening {bid : Bid} {place : FileGateway.Place}
    (hmarker : bid.marker = .ofNames place) (hfinds : x.volume.Finds place)
    (hfree : FileTree.barred? place = none)
    (hnode : x.volume.tree.node? place = some (.file []))
    (h : ∀ now streams, Solo.Leads a.next Q n (.paused (.holding bid))
      ⟨{ x.shared with now := now, guards := x.shared.guards.leave bid.ticket },
        x.transfer,
        { x.volume with
          tree := x.volume.tree.put place (.file x.shared.writer.text.toUTF8.toList)
          streams := streams }⟩) :
    Solo.Leads a.next Q (n + 3) (.paused (.opening bid)) x := by
  have hopen := DiskStore.openWrite_file hfinds hfree hnode false
  rw [← hmarker] at hopen
  refine .store rfl hopen fun now => ?_
  have hstream : (x.volume.opened place [] false).streams[x.volume.streams.length]? =
      some ⟨place, 0, false⟩ := by
    simp [Volume.opened]
  have hopened : (x.volume.opened place [] false).tree.node? place = some (.file []) := by
    rw [Volume.opened, FileTree.node?_put _ hfinds.nonempty, Function.update_self]
  obtain ⟨offset, rfl, hwrite⟩ := DiskStore.write_file hstream hopened
    x.shared.writer.text.toUTF8.toList
  refine .store rfl hwrite fun now => ?_
  refine .store rfl rfl fun now => ?_
  have htree : (x.volume.opened place [] false).tree.put place
      (.file (splice [] x.shared.writer.text.toUTF8.toList 0)) =
        x.volume.tree.put place (.file x.shared.writer.text.toUTF8.toList) := by
    rw [Volume.opened, FileTree.put_put, splice_nil]
  have hfinished := h now ((x.volume.opened place [] false).streams.set x.volume.streams.length
    ⟨place, 0 + x.shared.writer.text.toUTF8.toList.length, false⟩)
  rw [← htree] at hfinished
  exact hfinished

section Creation

variable {bid : Bid} {place : FileGateway.Place} (hmarker : bid.marker = .ofNames place)
  (hfinds : x.volume.Finds place)
  (hbarred : ∀ e, FileTree.barred? place = some e → ∀ now f,
    Solo.Leads a.next Q n (.paused (.retreating (some (.filesystem a.marker f))))
      ⟨{ x.shared with now := now, guards := x.shared.guards.leave bid.ticket }, x.transfer,
        x.volume⟩)
  (htaken : ∀ node, FileTree.barred? place = none → x.volume.tree.node? place = some node →
    ∀ now, Solo.Leads a.next Q n (.paused (.retreating none))
      ⟨{ x.shared with now := now, guards := x.shared.guards.leave bid.ticket }, x.transfer,
        x.volume⟩)
  (hvacant : FileTree.barred? place = none → x.volume.tree.node? place = none →
    ∀ now streams, Solo.Leads a.next Q n (.paused (.opening bid))
      ⟨{ x.shared with now := now }, x.transfer,
        { x.volume with tree := x.volume.tree.put place (.file []), streams := streams }⟩)

include hmarker hfinds hbarred htaken hvacant

/-- The marker is created if there is none. -/
theorem leads_creating : Solo.Leads a.next Q (n + 1) (.paused (.creating bid)) x := by
  cases hfree : FileTree.barred? place with
  | some e =>
    obtain ⟨f, hcreate⟩ := DiskStore.createExclusive_barred hfinds hfree
    rw [← hmarker] at hcreate
    exact .store rfl hcreate fun now => hbarred e hfree now f
  | none =>
    cases hnode : x.volume.tree.node? place with
    | some node =>
      have hcreate := DiskStore.createExclusive_taken hfinds hfree hnode
      rw [← hmarker] at hcreate
      exact .store rfl hcreate fun now => htaken node hfree hnode now
    | none =>
      have hcreate := DiskStore.createExclusive_vacant hfinds hfree hnode
      rw [← hmarker] at hcreate
      exact .store rfl hcreate fun now => hvacant hfree hnode now _

/-- The marker is looked for, and created if it is not there. -/
theorem leads_probing : Solo.Leads a.next Q (n + 2) (.paused (.probing bid)) x := by
  cases hfree : FileTree.barred? place with
  | some e =>
    obtain ⟨f, hprobe⟩ := DiskStore.probe_barred hfinds hfree
    rw [← hmarker] at hprobe
    exact .store rfl hprobe fun now => (hbarred e hfree now f).mono (Nat.le_succ _)
  | none =>
    cases hnode : x.volume.tree.node? place with
    | some node =>
      have hprobe := DiskStore.probe_taken hfinds hfree hnode
      rw [← hmarker] at hprobe
      exact .store rfl hprobe fun now => (htaken node hfree hnode now).mono (Nat.le_succ _)
    | none =>
      have hprobe := DiskStore.probe_vacant hfinds hfree hnode
      have hcreate := DiskStore.createFile_vacant hfinds hfree hnode
      rw [← hmarker] at hprobe hcreate
      exact .store rfl hprobe fun _ => .store rfl hcreate fun now => hvacant hfree hnode now _

/-- Whichever way a marker is created, it comes to the same. -/
theorem leads_queued (hholds : x.shared.guards.holds bid.ticket = true) :
    Solo.Leads a.next Q (n + 3) (.paused (.queued bid)) x := by
  refine .answered rfl hholds rfl fun now => ?_
  change Solo.Leads a.next Q (n + 2)
    (.paused (if a.backend.exclusiveCreate then .creating bid else .probing bid)) _
  cases a.backend.exclusiveCreate with
  | true =>
    exact (leads_creating (x := x.atTime now) hmarker hfinds hbarred htaken hvacant).mono
      (Nat.le_succ _)
  | false => exact leads_probing (x := x.atTime now) hmarker hfinds hbarred htaken hvacant

end Creation

/-- An acquisition that is alone comes to what the standing of the volume says. -/
theorem leads (hplain : x.volume.tree.Plain) (hguards : x.shared.guards.Free) :
    Solo.Leads a.next (Ended a x) 10 (.paused .resolving) x := by
  have hresolve := DiskStore.reply_resolve a.marker a.options x.volume
  cases hr : ((DiskStore.resolve a.marker : StateM Volume (Result FileRef)) x.volume).1 with
  | error f =>
    have hbarred : x.volume.standing a.marker = .barred := by
      simp only [Volume.standing, hr]
    rw [hr] at hresolve
    refine .store rfl hresolve fun _ => (leads_retreating fun now => ?_).mono (Nat.le_add_left 1 8)
    exact .failed now _ f hguards hbarred
  | ok file =>
    obtain ⟨place, hfinds, rfl, -, hstack⟩ := DiskStore.finds_of_resolve hplain hr
    have hstanding : x.volume.standing a.marker =
        if (FileTree.barred? place).isSome then .barred
        else if (x.volume.tree.node? place).isSome then .taken else .vacant place := by
      simp only [Volume.standing, hr, hstack, Option.getD_some]
    have hleft := hguards.leave_arrive (a.guardKey (.ofNames place))
    rw [hr] at hresolve
    refine .store rfl hresolve fun _ => ?_
    refine leads_queued (n := 6) rfl hfinds ?_ ?_ ?_ (hguards.holds_arrive _)
    · intro e he now f
      rw [he] at hstanding
      refine (leads_retreating fun now => ?_).mono (Nat.le_add_left 1 5)
      exact .failed now _ f hleft hstanding
    · intro node hfree hnode now
      rw [hfree, hnode] at hstanding
      refine (leads_retreating fun now => ?_).mono (Nat.le_add_left 1 5)
      exact .lost now _ hleft hstanding
    · intro hfree hnode now streams
      rw [hfree, hnode] at hstanding
      have hput : x.volume.tree.node? place ≠ some .directory := by
        simp [hnode]
      refine leads_opening (n := 3) rfl (hfinds.put hput [] streams) hfree ?_ fun now streams => ?_
      · exact (congrFun (FileTree.node?_put _ hfinds.nonempty _) place).trans
          (Function.update_self ..)
      · refine leads_holding fun now deadline => ?_
        have hwon := Ended.won now deadline _ place streams hleft hstanding hfinds hfree hnode
        rw [← FileTree.put_put _ _ (.file [])] at hwon
        exact hwon

end Acquire

/-! ## Giving a lease up -/

namespace Surrender

/-- What giving a lease up comes to. What it held is taken from it, and the marker is removed; a
release also cancels the timer. -/
inductive Ended (r : Surrender) (x : Solo) : Result Bool → Solo → Prop where
  | nothing (now : Instant) (free : (x.shared.lease? r.lease).bind Lease.held = none) :
      Ended r x (.ok true) (x.atTime now)
  | removed (now : Instant) (held : Held)
      (holds : (x.shared.lease? r.lease).bind Lease.held = some held) :
      Ended r x (DiskStore.reply (.delete held.marker) x.volume).1
        ⟨{ x.shared with
            now := now
            leases := x.shared.leases.modify r.lease fun l =>
              { l with held := none, timer := if r.forced then l.timer else .cancelled } },
          x.transfer, (DiskStore.reply (.delete held.marker) x.volume).2⟩

variable {r : Surrender} {x : Solo} {Q : Result Bool → Solo → Prop} {held : Held}

/-- The removal of a marker is tried until it succeeds, or the attempts are used up. -/
theorem leads_removing
    (h : ∀ now, Q (DiskStore.reply (.delete held.marker) x.volume).1
      ⟨{ x.shared with now := now }, x.transfer,
        (DiskStore.reply (.delete held.marker) x.volume).2⟩) :
    Solo.Leads (fun _ => r.next) Q 3 (.paused (.removing (.ofHeld held))) x := by
  cases hdelete : (DiskStore.reply (.delete held.marker) x.volume).1 with
  | ok deleted =>
    have hreply : DiskStore.reply (.delete held.marker) x.volume = (.ok deleted, _) :=
      Prod.ext hdelete rfl
    refine Solo.Leads.mono (n := 1) ?_ (Nat.le_add_left 1 2)
    refine .store rfl hreply fun now => .done ?_
    rw [hdelete] at h
    exact h now
  | error f =>
    have hreply := DiskStore.reply_delete_error hdelete
    refine .store rfl hreply fun _ => .store rfl hreply fun _ => .store rfl hreply fun now =>
      .done ?_
    rw [hreply] at h
    exact h now

/-- A lease is given up for good, whatever comes of its marker. -/
theorem leads : Solo.Leads (fun _ => r.next) (Ended r x) 5 (.paused .taking) x := by
  obtain ⟨lease, forced⟩ := r
  cases hheld : (x.shared.lease? lease).bind Lease.held with
  | none =>
    refine .answered rfl rfl rfl fun now => ?_
    have htake : take ⟨lease, forced⟩ (x.atTime now).shared =
        (.done (.ok true), (x.atTime now).shared) := by
      have hheld' : ((x.atTime now).shared.lease? lease).bind Lease.held = none := hheld
      simp only [take, hheld']
    rw [htake]
    exact .done (.nothing now hheld)
  | some held =>
    refine .answered rfl rfl rfl fun now => ?_
    have htake : take ⟨lease, forced⟩ (x.atTime now).shared =
        (.paused (if forced then .removing (.ofHeld held) else .cancelling held),
          (x.atTime now).shared.modifyLease lease fun l => { l with held := none }) := by
      have hheld' : ((x.atTime now).shared.lease? lease).bind Lease.held = some held := hheld
      simp only [take, hheld']
    rw [htake]
    cases forced with
    | true =>
      refine Solo.Leads.mono (n := 3) (leads_removing fun now => ?_) (Nat.le_succ 3)
      exact .removed now held hheld
    | false =>
      refine .answered rfl rfl rfl fun now => leads_removing fun now => ?_
      have hremoved : Ended ⟨lease, false⟩ x (DiskStore.reply (.delete held.marker) x.volume).1
          ⟨{ x.shared with
              now := now
              leases := x.shared.leases.modify lease fun l =>
                { l with held := none, timer := .cancelled } },
            x.transfer, (DiskStore.reply (.delete held.marker) x.volume).2⟩ :=
        .removed now held hheld
      have hleases : ((x.shared.leases.modify lease fun l => { l with held := none }).modify lease
          fun l => { l with timer := .cancelled }) =
            x.shared.leases.modify lease fun l =>
              { l with held := none, timer := .cancelled } := by
        rw [List.modify_modify_eq]
        rfl
      rw [← hleases] at hremoved
      exact hremoved

end Surrender

end FileGateway

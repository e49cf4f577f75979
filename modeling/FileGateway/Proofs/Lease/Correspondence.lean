import FileGateway.Proofs.Gateway.Writer
import FileGateway.Proofs.Lease.Contents
import FileGateway.Proofs.Lease.Diagnostics
import FileGateway.Proofs.Lease.MarkerOwners

/-!
# Markers and leases

In a reliable archive there is a marker at a site just if a lease on it is active, or has given up
on it. This is so in every quiet moment, that is, whenever nobody is acquiring or giving up a lease
there, after any run that starts without a marker and in which nothing but leases touches the site.
While a lease is active its marker holds the diagnostics of the process, and can be read. Once a
lease has given up, nobody gets a lease there any more.

`Scene.Watched` puts the invariants of the other modules together, and `Scene.corresponding_run` is
what follows from them. `Task.Barred` is the invariant of an acquisition that comes too late.
-/

namespace FileGateway

variable {ε : Type}

/-- The site of the marker that a lease operation is about, as far as it is known. -/
def LeaseOp.site? (s : Shared) : LeaseOp → Option Site
  | acquire a place => place.marker?.map a.backend.site
  | surrender r .taking => ((s.lease? r.lease).bind Lease.held).map Held.site
  | surrender _ (.cancelling held) => some held.site
  | surrender _ (.removing removal) => some removal.site

namespace Scene

variable {w : Archive ε} {c c' : Scene ε} {σ : Site} {text : Bytes}

/-- Nobody is acquiring or giving up a lease on the marker at a site. -/
def Quiet (σ : Site) (c : Scene ε) : Prop :=
  ∀ i d, c.gateway.leaseOps i = some d → d.site? c.gateway.shared ≠ some σ

/-- A lease is active and holds the marker at a site. -/
def Active (σ : Site) (c : Scene ε) (n : LeaseId) : Prop :=
  c.gateway.shared.Grips n (some σ)

/-! ## The invariants together -/

/-- Whoever is about to be told where a path leads will be told so truly. -/
def Told (w : Archive ε) (c : Scene ε) : Prop :=
  ∀ i b path options file, c.inbox i = some ⟨.store b (.resolve path options), .ok file⟩ →
    file = w.locate b.identity path

theorem Told.changes (h : Told w c) (hc : Changes w.toWorld c c') : Told w c' := by
  cases hc with
  | nothing => exact h
  | starts d g starts grows => exact h
  | serves id t p task pending inbox =>
    intro i b path options file hin
    by_cases hi : i = id
    · simp only [hi, Function.update_self] at hin
      exact w.located_of_reply (Option.some.inj hin)
    · simp only [Function.update_of_ne hi] at hin
      exact h i b path options file hin
  | resumes id t p answer task pending inbox =>
    intro i b path options file hin
    by_cases hi : i = id
    · simp only [hi, Function.update_self] at hin
      cases hin
    · simp only [Function.update_of_ne hi] at hin
      exact h i b path options file hin

/-- What is known of the leases and the marker at a site that is left alone. -/
structure Watched (w : Archive ε) (σ : Site) (text : Bytes) (c : Scene ε) : Prop where
  order : c.InOrder
  told : Told w c
  attended : Attended c.gateway.shared c.gateway.leaseOps
  tracked : Tracked σ c
  staked : Staked w.toRealm c σ
  forsaken : Forsaken w.toRealm σ c
  markerOwned : MarkerOwned w.toRealm σ c
  led : Led w σ c
  inscribed : Inscribed w σ text c

theorem watched_start (writer : Diagnostics) {world : ε} (h : w.present world σ = false) :
    Watched w σ text (start writer world) where
  order := inOrder_start writer world
  told := fun i b path options file hin => by cases hin
  attended := .start writer
  tracked := tracked_start writer world
  staked := staked_start writer world
  forsaken := forsaken_start writer world
  markerOwned := markerOwned_start writer h
  led := led_start writer world
  inscribed := inscribed_start writer world

theorem attended_changes (h : Attended c.gateway.shared c.gateway.leaseOps) (ho : c.InOrder)
    (hc : Changes w.toWorld c c') : Attended c'.gateway.shared c'.gateway.leaseOps := by
  cases hc with
  | nothing => exact h
  | serves id t p task pending inbox => exact h
  | starts d g starts grows =>
    change Attended g.shared g.leaseOps
    rw [starts.leaseOps]
    exact h.begins starts.idle starts.begins
  | resumes id t p answer task pending inbox =>
    change Attended (p.resume answer).shared (p.resume answer).leaseOps
    cases hd : c.gateway.leaseOps id with
    | none =>
      obtain ⟨d, starts⟩ := Gateway.starts_resume hd pending answer
      rw [starts.leaseOps]
      exact h.begins starts.idle starts.begins
    | some d =>
      obtain ⟨step, s, hm, ha, hleaseOps⟩ := (Gateway.goes_resume hd pending answer).moves
      rw [hleaseOps]
      exact h.moves ho.leases hd hm ha.leases

theorem Watched.changes (h : Watched w σ text c) (hw : w.Reliable)
    (htext : c.gateway.shared.writer.text.toUTF8.toList = text) (hc : Changes w.toWorld c c')
    (halone : LeftAlone σ c'.history) : Watched w σ text c' where
  order := h.order.changes hc
  told := h.told.changes hc
  attended := attended_changes h.attended h.order hc
  tracked := h.tracked.changes (w := w.toRealm) h.order hc
  staked := h.staked.changes h.order hc halone
  forsaken := h.forsaken.changes h.tracked h.staked h.order hc halone
  markerOwned := h.markerOwned.changes hw.toReliable h.tracked h.order hc halone
  led := h.led.changes hc halone
  inscribed := h.inscribed.changes hw h.led h.staked h.order htext hc halone

/-- The marker at a site that is left alone is watched at all times. -/
theorem watched_run (hw : w.Reliable) (writer : Diagnostics) {world : ε}
    (hvacant : w.present world σ = false) (events : List Event)
    (halone : LeftAlone σ ((start writer world).run w.toWorld events).history) :
    Watched w σ writer.text.toUTF8.toList ((start writer world).run w.toWorld events) := by
  refine (run_induction_writer (w := w.toWorld)
    (P := fun c => c.gateway.shared.writer = writer ∧
      (LeftAlone σ c.history → Watched w σ writer.text.toUTF8.toList c))
    ⟨rfl, fun _ => watched_start writer hvacant⟩ ?_ events).2 halone
  intro c c' h hwriter hc
  refine ⟨hwriter.trans h.1, fun ha => ?_⟩
  exact (h.2 (LeftAlone.of_changes (w := w.toRealm) hc ha)).changes hw (by rw [h.1]) hc ha

/-! ## Quiet moments -/

/-- A lease operation owns the marker that it is about. -/
theorem site_of_owned {s : Shared} {d : LeaseOp} {inbox : Option Reply}
    (h : d.owned? inbox = some σ) : d.site? s = some σ := by
  unfold LeaseOp.owned? at h
  split at h
  all_goals first | exact h | cases h

/-- Whoever attends to a lease is about the marker that the lease holds. -/
theorem site_of_attends {s : Shared} {d : LeaseOp} {l : Lease} {held : Held} (h : d.Attends)
    (hl : s.lease? d.lease = some l) (hfits : d.Fits l) (hh : l.held = some held) :
    d.site? s = some held.site := by
  cases d with
  | acquire a place =>
    cases place with
    | activating bid =>
      rw [hfits.2] at hh
      cases hh
      rfl
    | _ => cases h
  | surrender r place =>
    cases place with
    | taking =>
      have hbind : (s.lease? r.lease).bind Lease.held = some held :=
        (congrArg (Option.bind · Lease.held) hl).trans hh
      exact congrArg (Option.map Held.site) hbind
    | _ => cases h

theorem Watched.owns_of_active (h : Watched w σ text c) {n : LeaseId} (hn : c.Active σ n) :
    c.Owns w.toRealm σ n := by
  obtain ⟨l, held, hl, -, hh, hσ⟩ := hn
  exact h.staked.held n l held hl hh (Option.some.inj hσ).symm

/-- In a quiet moment a marker is that of an active lease, or was left behind. -/
theorem Watched.active_or_gaveUp (h : Watched w σ text c) (hq : c.Quiet σ)
    (hpresent : w.present c.world σ = true) :
    (∃ n, c.Active σ n) ∨ ∃ n, GaveUp σ n c.history := by
  rcases h.markerOwned hpresent with ⟨n, l, held, hl, hh, hσ⟩ | ⟨i, d, hd, howned⟩ | hgaveUp
  · have hsome : l.held ≠ none := by
      rw [hh]
      exact Option.some_ne_none held
    rcases h.attended n l hl hsome with hactive | ⟨i, d, hd, rfl, hattends⟩
    · exact Or.inl ⟨n, l, held, hl, hactive, hh, congrArg some hσ.symm⟩
    · obtain ⟨l', hl', hfits⟩ := h.order.leases.fits i d hd
      rw [hl] at hl'
      cases hl'
      exact absurd ((site_of_attends hattends hl hfits hh).trans (congrArg some hσ)) (hq i d hd)
  · exact absurd (site_of_owned howned) (hq i d hd)
  · exact Or.inr hgaveUp

/-! ## Acquisitions that come too late -/

end Scene

/-- An acquisition of a marker at a site that does not have its lease and never gets it. -/
inductive Task.Barred (w : Archive ε) (σ : Site) : Task → Prop where
  | acquiring (a : Acquire) (place : Acquire.Place)
      (path : a.backend.site (w.locate a.backend.identity a.marker) = σ)
      (marker : ∀ file, place.marker? = some file → a.backend.site file = σ)
      (early : place ≠ .arming) : Barred w σ (.acquiring a place)
  | finished (result : Except Error Bool) (vain : result ≠ .ok true) :
    Barred w σ (.finished (.acquired result))

/-- Only an acquisition that arms its timer ends with the lease. -/
theorem LeaseOp.arming_of_moves {writer : Diagnostics} {s s' : Shared} {a : Acquire}
    {place : Acquire.Place} {reply : Reply}
    (h : (acquire a place).Moves writer s reply (.done (.acquired (.ok true))) s') :
    place = .arming := by
  generalize hstep : (Step.done (.acquired (.ok true)) : Step LeaseOp LeaseOp.Ending) = step at h
  cases h with
  | armed => rfl
  | retreated _ error => cases error <;> cases hstep
  | _ => cases hstep

namespace Scene

variable {w : Archive ε} {c c' : Scene ε} {σ : Site}

/-- Where nobody owns the file, an acquisition goes on in vain. -/
theorem Orphaned.barred (h : Orphaned w.toRealm σ c) (ho : c.InOrder) (htold : Told w c)
    {id : TaskId} {t : Task} {p : Pending (Shared → Task × Shared)} {answer : p.request.Answer}
    (task : c.gateway.task? id = some t) (hp : t.next? c.gateway.shared = some p)
    (inbox : c.inbox id = some ⟨p.request, answer⟩) (hbarred : t.Barred w σ) :
    (p.resume answer c.gateway.shared).1.Barred w σ := by
  cases hbarred with
  | finished result vain => cases hp
  | acquiring a place path marker early =>
    have hd : c.gateway.leaseOps id = some (.acquire a place) := Gateway.leaseOps_eq task
    obtain ⟨l, hl, hfits⟩ := ho.leases.fits id _ hd
    obtain ⟨step, hm, hfollows⟩ := Task.follows_next? (d := .acquire a place) rfl hp answer
    generalize (p.resume answer c.gateway.shared).1 = t' at hfollows ⊢
    cases hfollows with
    | acquiring a place place' =>
      refine .acquiring a place' path (fun file hfile => ?_) fun harming => ?_
      · rcases Write.marker_of_moves hm hfile with hbefore | hresolved
        · exact marker file hbefore
        · rw [hresolved] at inbox
          rw [htold id _ _ _ file inbox]
          exact path
      · -- a lease that becomes active would hold the file
        subst harming
        obtain ⟨bid, rfl⟩ := Write.activating_of_moves hm
        exact h.unheld a.lease l _ hl hfits.2 (marker bid.marker rfl)
    | acquired a place result =>
      refine .finished result fun hresult => ?_
      subst hresult
      exact early (LeaseOp.arming_of_moves hm)

/-- A task that is barred stays so as long as the file is nobody's. -/
theorem Orphaned.still_barred (h : Orphaned w.toRealm σ c) (ho : c.InOrder) (htold : Told w c)
    (hc : Changes w.toWorld c c') {id : TaskId}
    (hbarred : ∃ t, c.gateway.task? id = some t ∧ t.Barred w σ) :
    ∃ t, c'.gateway.task? id = some t ∧ t.Barred w σ := by
  obtain ⟨t, ht, hb⟩ := hbarred
  cases hc with
  | nothing => exact ⟨t, ht, hb⟩
  | serves => exact ⟨t, ht, hb⟩
  | starts d g starts grows => exact ⟨t, grows.task ht, hb⟩
  | resumes id' t' p answer task pending inbox =>
    obtain ⟨t₀, q, ht₀, hq, -, rfl⟩ := Gateway.pending?_eq pending
    have htasks := Gateway.task?_set ht₀ (q.resume answer c.gateway.shared).1
      (q.resume answer c.gateway.shared).2
    by_cases hid : id = id'
    · subst hid
      rw [ht] at ht₀
      cases ht₀
      exact ⟨_, (congrFun htasks id).trans (Function.update_self _ _ _),
        h.barred ho htold ht hq inbox hb⟩
    · exact ⟨t, (congrFun htasks id).trans ((Function.update_of_ne hid _ _).trans ht), hb⟩

/-- An acquisition that is called begins at the path of its marker, or is refused at once. -/
theorem barred_of_call {lease : LeaseId} {l : Lease} {backend : Backend} (options : Options)
    (expiry : Duration) (hl : c.gateway.shared.lease? lease = some l)
    (hpath : backend.site (w.locate backend.identity l.marker) = σ) :
    ∃ t, (c.gateway.call (.acquire lease backend options expiry)).task? c.gateway.tasks.length =
      some t ∧ t.Barred w σ := by
  have hlast : ∀ (t : Task) s, (c.gateway.add t s).2.task? c.gateway.tasks.length = some t := by
    intro t s
    rw [Gateway.task?_concat rfl, Function.update_self]
  simp only [Gateway.call, Gateway.acquire, Acquire.start, hl]
  refine ⟨_, hlast _ _, ?_⟩
  split
  · exact .acquiring _ .resolving hpath (fun file hfile => by cases hfile) fun h => by cases h
  · exact .finished _ fun h => by cases h

/-- Where a lease has given up, whoever comes to acquire one does not get it. -/
theorem Watched.refuses {text : Bytes} (h : Watched w σ text c) {n : LeaseId}
    (hn : GaveUp σ n c.history) {lease : LeaseId} {l : Lease} {backend : Backend}
    (options : Options) (expiry : Duration) (hl : c.gateway.shared.lease? lease = some l)
    (hpath : backend.site (w.locate backend.identity l.marker) = σ) (later : List Event)
    (halone : LeftAlone σ (((c.step w.toWorld (.call (.acquire lease backend options expiry))).run
      w.toWorld later).history)) :
    ∃ t, ((c.step w.toWorld (.call (.acquire lease backend options expiry))).run w.toWorld
      later).gateway.task? c.gateway.tasks.length = some t ∧ t.Barred w σ := by
  have hstep := step_changes w.toWorld c (.call (.acquire lease backend options expiry))
  -- as long as the site is left alone, the file is nobody's and the task is barred
  refine ((run_induction (w := w.toWorld) (P := fun c' => c'.InOrder ∧ Told w c' ∧
    (LeftAlone σ c'.history → Staked w.toRealm c' σ ∧ Orphaned w.toRealm σ c' ∧
      ∃ t, c'.gateway.task? c.gateway.tasks.length = some t ∧ t.Barred w σ))
    ⟨h.order.changes hstep, h.told.changes hstep, fun ha => ?_⟩ ?_
    later).2.2 halone).2.2
  · exact ⟨h.staked.changes h.order hstep ha, (h.forsaken n hn).changes h.staked hstep ha,
      barred_of_call options expiry hl hpath⟩
  · intro c₁ c₂ ⟨ho, htold, hrest⟩ hc
    refine ⟨ho.changes hc, htold.changes hc, fun ha => ?_⟩
    obtain ⟨hs, horphaned, hbarred⟩ := hrest (LeftAlone.of_changes (w := w.toRealm) hc ha)
    exact ⟨hs.changes ho hc ha, horphaned.changes hs hc ha,
      horphaned.still_barred ho htold hc hbarred⟩

/-! ## The correspondence -/

/-- How the marker at a site and the leases on it correspond.

* `present`: in a quiet moment there is a marker just if exactly one lease is active, or a lease
  has given up on it;
* `content`, `readable`: the marker of an active lease holds the diagnostics of this process and
  nothing else. They can be read back if the host's name has no line feed; its address, which is
  that of a network interface, never has one;
* `abandoned`, `refused`: where a lease has given up, no lease is active, and whoever comes to
  acquire one is told that the marker is taken, or of an error. -/
structure Corresponding (w : Archive ε) (σ : Site) (writer : Diagnostics) (c : Scene ε) : Prop where
  present : c.Quiet σ →
    (w.present c.world σ = true ↔ (∃! n, c.Active σ n) ∨ ∃ n, GaveUp σ n c.history)
  content : ∀ n, c.Active σ n → w.content c.world σ = writer.text.toUTF8.toList
  readable : '\n' ∉ writer.hostName.toList → '\n' ∉ writer.hostAddress.toList →
    Diagnostics.parse? writer.text = some writer.chomped
  abandoned : ∀ n m, GaveUp σ n c.history → ¬ c.Active σ m
  refused : ∀ n lease l backend options expiry later, GaveUp σ n c.history →
    c.gateway.shared.lease? lease = some l →
    backend.site (w.locate backend.identity l.marker) = σ →
    let c' := (c.step w.toWorld (.call (.acquire lease backend options expiry))).run w.toWorld later
    LeftAlone σ c'.history → ∀ result, c'.gateway.result? c.gateway.tasks.length = some result →
      result = .acquired (.ok false) ∨ ∃ e, result = .acquired (.error e)

theorem corresponding_run (w : Archive ε) (hw : w.Reliable) (writer : Diagnostics) (world : ε)
    (σ : Site) (hvacant : w.present world σ = false) (events : List Event)
    (halone : LeftAlone σ ((start writer world).run w.toWorld events).history) :
    Corresponding w σ writer ((start writer world).run w.toWorld events) := by
  have hwatched := watched_run hw writer hvacant events halone
  constructor
  · intro hquiet
    constructor
    · intro hpresent
      rcases hwatched.active_or_gaveUp hquiet hpresent with ⟨n, hn⟩ | hgaveUp
      · -- two active leases would both have created the file
        refine Or.inl ⟨n, hn, fun m hm => ?_⟩
        exact (hwatched.owns_of_active hm).unique (hwatched.owns_of_active hn)
      · exact Or.inr hgaveUp
    · rintro (⟨n, hn, -⟩ | ⟨n, hn⟩)
      · exact (hwatched.owns_of_active hn).1
      · exact (hwatched.forsaken n hn).present
  · rintro n ⟨l, held, hl, -, hh, hσ⟩
    exact hwatched.inscribed.held n l held hl hh (Option.some.inj hσ).symm
  · exact writer.parse?_text
  · rintro n m hn ⟨l, held, hl, -, hh, hσ⟩
    exact (hwatched.forsaken n hn).unheld m l held hl hh (Option.some.inj hσ).symm
  · intro n lease l backend options expiry later hn hl hpath c' halone' result hresult
    obtain ⟨t, ht, hbarred⟩ := hwatched.refuses hn options expiry hl hpath later halone'
    have hfinished := Gateway.result?_eq.1 hresult
    rw [ht] at hfinished
    cases hfinished
    cases hbarred with
    | finished result vain =>
      rcases result with e | (_ | _)
      · exact Or.inr ⟨e, rfl⟩
      · exact Or.inl rfl
      · exact absurd rfl vain

/-- Two leases on one target: the first one is acquired and released. Where no deletion succeeds, it
gives up on its marker. -/
def outlasted : List Event :=
  let goOn (id : TaskId) (times : Nat) : List Event :=
    (List.replicate times [.serve id, .deliver id]).flatten
  [.call (.addLease ⟨"/out"⟩), .call (.addLease ⟨"/out"⟩),
    .call (.acquire 0 ⟨0, "file://", true⟩ .empty .zero)] ++
    goOn 0 9 ++ [.call (.release 0 false)] ++ goOn 1 5

theorem corresponding_run_outlasted :
    LeftAlone ⟨"file://", ⟨⟨"/out.lock"⟩⟩⟩
      ((start ⟨"host", "10.0.0.1", 7⟩ (Memory.empty fun _ => [])).run
        Memory.archive.stubborn.toWorld outlasted).history ∧
    GaveUp ⟨"file://", ⟨⟨"/out.lock"⟩⟩⟩ 0
      ((start ⟨"host", "10.0.0.1", 7⟩ (Memory.empty fun _ => [])).run
        Memory.archive.stubborn.toWorld outlasted).history ∧
    Corresponding Memory.archive.stubborn ⟨"file://", ⟨⟨"/out.lock"⟩⟩⟩ ⟨"host", "10.0.0.1", 7⟩
      ((start ⟨"host", "10.0.0.1", 7⟩ (Memory.empty fun _ => [])).run
        Memory.archive.stubborn.toWorld outlasted) :=
  ⟨by decide +kernel, by decide +kernel,
    corresponding_run Memory.archive.stubborn Memory.reliable_archive.stubborn _ _ _ rfl outlasted
      (by decide +kernel)⟩

end Scene

end FileGateway

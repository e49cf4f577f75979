import FileGateway.Proofs.Gateway.Memory
import FileGateway.Proofs.Lease.Entitlement
import FileGateway.Proofs.Lease.Idle
import FileGateway.Proofs.Operation.Return

/-!
# A failed acquisition leaves no trace

An acquisition can fail in many places, and what it has done by then it takes back: the lease is as
it was before, nobody waits for the guard because of it, and the file at the site of the marker is
what it was before. The one exception is a marker that the acquisition has created, could neither
write nor remove, and leaves behind (`Acquire.Stranded`).

* A `Depot` is a world of which it can be told what is at each site, with what an acquisition relies
  on and nothing else;
* `Acquire.Footprint` is what an acquisition has made of the site of its marker. What the stores do
  for it keeps the footprint (`Acquire.Footprint.acts`), and so does what it is told
  (`Acquire.Footprint.moves`);
* `Scene.traceless_run` is what holds when the call has returned.
-/

namespace FileGateway

variable {ε : Type}

/-! ## Depots -/

/-- A world of which it can be told what is at each site, if there is a file, and whose stores do
what they tell where leases rely on it. -/
structure Depot (ε : Type) extends World ε where
  file? : ε → Site → Option Bytes
  -- whoever only asks changes nothing, and whoever is told that there is no file is told the truth
  quiet : ∀ i r e σ, r.isQuiet = true → file? (answer i r e).2 σ = file? e σ
  missed : ∀ i b file e, (answer i (.store b (.probe file)) e).1 = .ok false →
    file? e (b.site file) = none
  vacant : ∀ i b file e, (answer i (.store b (.createExclusive file)) e).1 = .ok true →
    file? e (b.site file) = none
  -- a creation that has not succeeded leaves the file alone, or makes none
  spared : ∀ i b file e, (answer i (.store b (.createExclusive file)) e).1 ≠ .ok true →
    file? (answer i (.store b (.createExclusive file)) e).2 (b.site file) = file? e (b.site file)
  unfilled : ∀ i b file e f, (answer i (.store b (.createFile file)) e).1 = .error f →
    file? e (b.site file) = none →
      file? (answer i (.store b (.createFile file)) e).2 (b.site file) = none
  -- what was deleted is gone
  removed : ∀ i b file e existed, (answer i (.store b (.delete file)) e).1 = .ok existed →
    file? (answer i (.store b (.delete file)) e).2 (b.site file) = none

/-- A request that leaves all files alone touches none. -/
theorem Request.untouched_of_quiet {r : Request} (h : r.isQuiet = true)
    (site? : StreamId → Option Site) : r.altered? = none ∧ r.touched? site? = none := by
  unfold isQuiet at h
  split at h
  · exact ⟨rfl, rfl⟩
  · exact ⟨rfl, rfl⟩
  · exact ⟨rfl, rfl⟩
  · exact ⟨rfl, rfl⟩
  · cases h

/-- A reliable archive as a depot. -/
def Archive.depot (w : Archive ε) (h : w.Reliable) : Depot ε where
  toWorld := w.toWorld
  file? e σ := if w.present e σ = true then some (w.content e σ) else none
  quiet := by
    intro i r e σ hr
    obtain ⟨haltered, htouched⟩ := Request.untouched_of_quiet hr (w.site? e)
    have hcontent := (w.apart i r e σ (by rw [htouched]; exact nofun)).1
    simp only [w.untouched i r e σ (by rw [haltered]; exact nofun), hcontent]
  missed := by
    intro i b file e hmissed
    exact if_neg (Bool.eq_false_iff.1 (w.probed i b file e false hmissed).symm)
  vacant := by
    intro i b file e hcreated
    exact if_neg (Bool.eq_false_iff.1 (w.vacant i b file e hcreated))
  spared := by
    intro i b file e hbeaten
    cases hpresent : w.present e (b.site file) with
    | false =>
      rw [h.beaten i b file e hbeaten hpresent]
      rfl
    | true =>
      rw [w.kept i (.store b (.createExclusive file)) e (b.site file) nofun hpresent,
        h.spared i b file e hpresent]
  unfilled := by
    intro i b file e f hfailed hnone
    refine if_neg (Bool.eq_false_iff.1 (h.uncreated i b file e f hfailed ?_))
    by_contra hpresent
    rw [if_pos (Bool.not_eq_false _ ▸ hpresent)] at hnone
    cases hnone
  removed := by
    intro i b file e existed hdeleted
    exact if_neg (Bool.eq_false_iff.1 (h.deleted i b file e existed hdeleted))

/-- Memory as a depot. -/
def Memory.depot : Depot Memory :=
  Memory.archive.depot Memory.reliable_archive

/-! ## Footprints -/

namespace Acquire

/-- Whether an acquisition has its marker for good, and its lease holds it. -/
def Place.isWon : Place → Bool
  | activating _ | arming => true
  | _ => false

/-- An acquisition has created a marker where there was none, could not write into it, and could not
remove it. -/
structure Stranded (a : Acquire) (told : List Reply) (σ : Site) (before : Option Bytes) : Prop where
  vacant : before = none
  unwritten : ∃ reply ∈ told, ∃ f, reply.unwritten? = some f
  undeleted : ∃ marker f, a.backend.site marker = σ ∧
    ⟨.store a.backend (.delete marker), .error f⟩ ∈ told

/-- What an acquisition has made of the file at the site of its marker: whoever owns the file or is
about to create it has found none, and all others have left it alone, or have left theirs there. -/
structure Footprint (a : Acquire) (told : List Reply) (σ : Site) (before now : Option Bytes)
    (place : Place) (inbox : Option Reply) : Prop where
  owned : (LeaseOp.acquire a place).owned? inbox = some σ → before = none
  awaited : (LeaseOp.acquire a place).awaited? inbox = some σ → before = none ∧ now = none
  aside : (LeaseOp.acquire a place).owned? inbox = none →
    (LeaseOp.acquire a place).awaited? inbox = none → place.isWon = false →
      now = before ∨ a.Stranded told σ before

variable {a a' : Acquire} {told told' : List Reply} {σ : Site} {before now : Option Bytes}
  {place place' : Place} {inbox : Option Reply}

theorem Stranded.mono (h : a.Stranded told σ before) (hsub : told ⊆ told') :
    a.Stranded told' σ before :=
  let ⟨reply, hreply, hf⟩ := h.unwritten
  let ⟨marker, f, hsite, hmem⟩ := h.undeleted
  ⟨h.vacant, ⟨reply, hsub hreply, hf⟩, ⟨marker, f, hsite, hsub hmem⟩⟩

namespace Footprint

/-- Whoever has not found anything else knows that there was no file, if there is none now. -/
theorem vacant (h : a.Footprint told σ before now place inbox)
    (howned : (LeaseOp.acquire a place).owned? inbox = none)
    (hawaited : (LeaseOp.acquire a place).awaited? inbox = none) (hwon : place.isWon = false)
    (hnow : now = none) : before = none := by
  rcases h.aside howned hawaited hwon with hsame | hstranded
  · rw [← hsame, hnow]
  · exact hstranded.vacant

/-- A request that leaves all files alone, and after which the acquisition stands as before. -/
theorem of_quiet {w : Depot ε} {e : ε} (i : TaskId) (request : Request)
    (h : a.Footprint told σ before (w.file? e σ) place none) (hquiet : request.isQuiet = true)
    (howned : (LeaseOp.acquire a place).owned? (some ⟨request, (w.answer i request e).1⟩) =
      (LeaseOp.acquire a place).owned? none)
    (hawaited : (LeaseOp.acquire a place).awaited? (some ⟨request, (w.answer i request e).1⟩) =
      (LeaseOp.acquire a place).awaited? none) :
    a.Footprint (⟨request, (w.answer i request e).1⟩ :: told) σ before
      (w.file? (w.answer i request e).2 σ) place (some ⟨request, (w.answer i request e).1⟩) := by
  have hfile := w.quiet i request e σ hquiet
  constructor
  · rw [howned]
    exact h.owned
  · rw [hawaited, hfile]
    exact h.awaited
  · rw [howned, hawaited, hfile]
    intro ho ha hwon
    exact (h.aside ho ha hwon).imp_right fun hs => hs.mono (List.subset_cons_self _ _)

/-- Whoever owns the file has found none before. -/
theorem of_owned {told : List Reply} {now : Option Bytes} (hnone : before = none)
    (howned : (LeaseOp.acquire a place).owned? inbox ≠ none)
    (hawaited : (LeaseOp.acquire a place).awaited? inbox = none) :
    a.Footprint told σ before now place inbox := by
  refine ⟨fun _ => hnone, fun h => ?_, fun h => absurd h howned⟩
  rw [hawaited] at h
  cases h

/-- Whoever has nothing to do with the file any more has left it as it was. -/
theorem of_aside {told : List Reply} {now : Option Bytes}
    (howned : (LeaseOp.acquire a place).owned? inbox = none)
    (hawaited : (LeaseOp.acquire a place).awaited? inbox = none)
    (hleft : place.isWon = false → now = before ∨ a.Stranded told σ before) :
    a.Footprint told σ before now place inbox := by
  refine ⟨fun h => ?_, fun h => ?_, fun _ _ => hleft⟩
  · rw [howned] at h
    cases h
  · rw [hawaited] at h
    cases h

variable {w : Depot ε} {e : ε} {i : TaskId}

theorem acts_probing {bid : Bid} (hσ : a.site bid = σ)
    (h : a.Footprint told σ before (w.file? e σ) (.probing bid) none) :
    a.Footprint (⟨.store a.backend (.probe bid.marker),
        (w.answer i (.store a.backend (.probe bid.marker)) e).1⟩ :: told) σ before
      (w.file? (w.answer i (.store a.backend (.probe bid.marker)) e).2 σ) (.probing bid)
      (some ⟨.store a.backend (.probe bid.marker),
        (w.answer i (.store a.backend (.probe bid.marker)) e).1⟩) := by
  subst hσ
  have hquiet := h.of_quiet i (.store a.backend (.probe bid.marker)) rfl rfl
  have hfile := w.quiet i (.store a.backend (.probe bid.marker)) e (a.site bid) rfl
  have hmissed := w.missed i a.backend bid.marker e
  generalize w.answer i (.store a.backend (.probe bid.marker)) e = result at *
  obtain ⟨f | (_ | _), e'⟩ := result
  · exact hquiet rfl
  · -- there is no file, so the acquisition may create one
    have hnone : w.file? e (a.site bid) = none := hmissed rfl
    have hbefore := h.vacant rfl rfl rfl hnone
    refine ⟨fun ho => ?_, fun _ => ⟨hbefore, hfile.trans hnone⟩, fun _ ha => ?_⟩
    · cases ho
    · cases ha
  · exact hquiet rfl

theorem acts_creating {bid : Bid} (hσ : a.site bid = σ)
    (h : a.Footprint told σ before (w.file? e σ) (.creating bid) none) :
    a.Footprint (⟨.store a.backend (.createExclusive bid.marker),
        (w.answer i (.store a.backend (.createExclusive bid.marker)) e).1⟩ :: told) σ before
      (w.file? (w.answer i (.store a.backend (.createExclusive bid.marker)) e).2 σ) (.creating bid)
      (some ⟨.store a.backend (.createExclusive bid.marker),
        (w.answer i (.store a.backend (.createExclusive bid.marker)) e).1⟩) := by
  subst hσ
  have hvacant := w.vacant i a.backend bid.marker e
  have hspared := w.spared i a.backend bid.marker e
  have hleft := h.aside rfl rfl rfl
  generalize w.answer i (.store a.backend (.createExclusive bid.marker)) e = result at *
  obtain ⟨answer, e'⟩ := result
  -- whoever has not created the marker has left alone what is there
  have haside : answer ≠ .ok true → w.file? e' (a.site bid) = before ∨
      a.Stranded (⟨.store a.backend (.createExclusive bid.marker), answer⟩ :: told) (a.site bid)
        before := by
    intro hbeaten
    exact hleft.imp (hspared hbeaten).trans fun hs => hs.mono (List.subset_cons_self _ _)
  rcases answer with f | (_ | _)
  · exact of_aside rfl rfl fun _ => haside nofun
  · exact of_aside rfl rfl fun _ => haside nofun
  · exact of_owned (h.vacant rfl rfl rfl (hvacant rfl)) nofun rfl

theorem acts_filling {bid : Bid} (hσ : a.site bid = σ)
    (h : a.Footprint told σ before (w.file? e σ) (.filling bid) none) :
    a.Footprint (⟨.store a.backend (.createFile bid.marker),
        (w.answer i (.store a.backend (.createFile bid.marker)) e).1⟩ :: told) σ before
      (w.file? (w.answer i (.store a.backend (.createFile bid.marker)) e).2 σ) (.filling bid)
      (some ⟨.store a.backend (.createFile bid.marker),
        (w.answer i (.store a.backend (.createFile bid.marker)) e).1⟩) := by
  subst hσ
  have hunfilled := w.unfilled i a.backend bid.marker e
  obtain ⟨hbefore, hnow⟩ := h.awaited rfl
  generalize w.answer i (.store a.backend (.createFile bid.marker)) e = result at *
  obtain ⟨f | _, e'⟩ := result
  · exact of_aside rfl rfl fun _ => .inl ((hunfilled f rfl hnow).trans hbefore.symm)
  · exact of_owned hbefore nofun rfl

theorem acts_cleaning {bid : Bid} {failure : Failure} (hσ : a.site bid = σ)
    (h : a.Footprint told σ before (w.file? e σ) (.cleaning bid failure) none)
    (hunwritten : ∃ reply ∈ told, reply.unwritten? = some failure) :
    a.Footprint (⟨.store a.backend (.delete bid.marker),
        (w.answer i (.store a.backend (.delete bid.marker)) e).1⟩ :: told) σ before
      (w.file? (w.answer i (.store a.backend (.delete bid.marker)) e).2 σ) (.cleaning bid failure)
      (some ⟨.store a.backend (.delete bid.marker),
        (w.answer i (.store a.backend (.delete bid.marker)) e).1⟩) := by
  subst hσ
  have hremoved := w.removed i a.backend bid.marker e
  have hbefore := h.owned rfl
  obtain ⟨reply, hmem, hreply⟩ := hunwritten
  generalize w.answer i (.store a.backend (.delete bid.marker)) e = result at *
  obtain ⟨f | existed, e'⟩ := result
  · -- the only way in which something is left behind
    exact of_aside rfl rfl fun _ => .inr ⟨hbefore, ⟨reply, List.mem_cons_of_mem _ hmem, _, hreply⟩,
      bid.marker, f, rfl, List.mem_cons_self⟩
  · exact of_aside rfl rfl fun _ => .inl ((hremoved existed rfl).trans hbefore.symm)

/-- What the stores do for an acquisition keeps its footprint. -/
theorem acts (h : a.Footprint told σ before (w.file? e σ) place none) (htold : a.Told told place)
    (hσ : ∀ bid, place.bid? = some bid → a.site bid = σ) {writer : Diagnostics} {request : Request}
    (hrequest : request = (a.next writer place).request) :
    a.Footprint (⟨request, (w.answer i request e).1⟩ :: told) σ before
      (w.file? (w.answer i request e).2 σ) place (some ⟨request, (w.answer i request e).1⟩) := by
  subst hrequest
  cases place with
  | creating bid => exact h.acts_creating (hσ bid rfl)
  | probing bid => exact h.acts_probing (hσ bid rfl)
  | filling bid => exact h.acts_filling (hσ bid rfl)
  | cleaning bid failure => exact h.acts_cleaning (hσ bid rfl) htold.2.2
  | opening bid => exact of_owned (h.owned (congrArg some (hσ bid rfl))) nofun rfl
  | writing bid s => exact of_owned (h.owned (congrArg some (hσ bid rfl))) nofun rfl
  | finishing bid s => exact of_owned (h.owned (congrArg some (hσ bid rfl))) nofun rfl
  | resolving => exact h.of_quiet i _ rfl rfl rfl
  | queued bid => exact h.of_quiet i _ rfl rfl rfl
  | holding bid => exact h.of_quiet i _ rfl rfl rfl
  | activating bid => exact h.of_quiet i _ rfl rfl rfl
  | arming => exact h.of_quiet i _ rfl rfl rfl
  | retreating error => exact h.of_quiet i _ rfl rfl rfl

end Footprint

/-- What an acquisition owns or awaits when it has come to a place it has owned or awaited before,
until its lease holds the marker. -/
theorem stake_of_moves {writer : Diagnostics} {s s' : Shared} {reply : Reply}
    (hm : (LeaseOp.acquire a place).Moves writer s reply (.paused (.acquire a' place')) s')
    (hwon : place'.isWon = false) :
    a' = a ∧ place.isWon = false ∧
      (LeaseOp.acquire a' place').owned? none = (LeaseOp.acquire a place).owned? (some reply) ∧
      (LeaseOp.acquire a' place').awaited? none =
        (LeaseOp.acquire a place).awaited? (some reply) := by
  cases hm with
  | granted a bid => split <;> exact ⟨rfl, rfl, rfl, rfl⟩
  | held a bid => cases hwon
  | activated a bid => cases hwon
  | _ => exact ⟨rfl, rfl, rfl, rfl⟩

/-- What an acquisition is told keeps its footprint. -/
theorem Footprint.moves (h : a.Footprint told σ before now place (some reply))
    {writer : Diagnostics} {s s' : Shared}
    (hm : (LeaseOp.acquire a place).Moves writer s reply (.paused (.acquire a' place')) s') :
    a'.Footprint told σ before now place' none := by
  cases hwon : place'.isWon with
  | false =>
    obtain ⟨rfl, hwon', howned, hawaited⟩ := stake_of_moves hm hwon
    constructor
    · rw [howned]
      exact h.owned
    · rw [hawaited]
      exact h.awaited
    · rw [howned, hawaited]
      exact fun ho ha _ => h.aside ho ha hwon'
  | true =>
    cases place' with
    | activating bid => exact of_aside rfl rfl fun h => by cases h
    | arming => exact of_aside rfl rfl fun h => by cases h
    | _ => cases hwon

end Acquire

/-- An acquisition fails where its lease is made idle again, and nowhere else. -/
theorem LeaseOp.Moves.failed {writer : Diagnostics} {s s' : Shared} {reply : Reply} {a : Acquire}
    {place : Acquire.Place} {result : Except Error Bool}
    (hm : (acquire a place).Moves writer s reply (.done (.acquired result)) s')
    (hfailed : result ≠ .ok true) : ∃ error, place = .retreating error ∧
      s'.leases = s.leases.modify a.lease fun l => { l with state := .idle } := by
  cases hm with
  | armed => exact absurd rfl hfailed
  | retreated _ error => exact ⟨error, rfl, rfl⟩

/-! ## Scenes -/

/-- Whether the world acts on the request of a task. -/
def Event.serves (i : TaskId) : Event → Bool
  | .serve k => k == i
  | _ => false

namespace Scene

section

variable {w : World ε} {c : Scene ε} {i k : TaskId} {id : LeaseId}

theorem serve_cases (w : World ε) (c : Scene ε) (k : TaskId) :
    c.serve w k = c ∨ ∃ t p, c.gateway.task? k = some t ∧ c.gateway.pending? k = some p ∧
      c.inbox k = none ∧ c.serve w k =
        { c with
          world := (w.answer k p.request c.world).2
          inbox := Function.update c.inbox k (some ⟨p.request, (w.answer k p.request c.world).1⟩)
          history := .served k t ⟨p.request, (w.answer k p.request c.world).1⟩ :: c.history } := by
  simp only [serve]
  split
  · next t p ht hp hin => exact .inr ⟨t, p, ht, hp, hin, rfl⟩
  · exact .inl rfl

theorem deliver_cases (c : Scene ε) (k : TaskId) :
    c.deliver k = c ∨ ∃ t p answer, c.gateway.task? k = some t ∧ c.gateway.pending? k = some p ∧
      c.inbox k = some ⟨p.request, answer⟩ ∧ c.deliver k =
        { c with
          gateway := p.resume answer
          inbox := Function.update c.inbox k none
          history := .resumed k t ⟨p.request, answer⟩ :: c.history } := by
  simp only [deliver]
  split
  · next t p request answer ht hp hin =>
    split
    · next hrequest =>
      subst hrequest
      exact .inr ⟨t, p, answer, ht, hp, hin, rfl⟩
    · exact .inl rfl
  · exact .inl rfl

/-- Whoever has returned is given no answer. -/
theorem deliver_of_result {result : TaskResult} (h : c.gateway.result? k = some result) :
    c.deliver k = c := by
  rcases c.deliver_cases k with hsame | ⟨t, p, answer, -, hp, -, -⟩
  · exact hsame
  · obtain ⟨t₀, q, ht₀, hq, -, -⟩ := Gateway.pending?_eq hp
    rw [Gateway.result?_eq.1 h] at ht₀
    cases ht₀
    cases hq

theorem run_append (w : World ε) (c : Scene ε) (events events' : List Event) :
    c.run w (events ++ events') = (c.run w events).run w events' :=
  List.foldl_append

/-! ### The call itself -/

variable {a : Acquire} {place : Acquire.Place} {l : Lease}

/-- An idle lease is acquired in a task of its own. -/
theorem task_of_acquire (hl : c.gateway.shared.lease? id = some l) (hidle : l.state = .idle)
    (backend : Backend) (options : Options) (expiry : Duration) :
    (c.step w (.call (.acquire id backend options expiry))).gateway.task? c.gateway.tasks.length =
      some (.acquiring ⟨id, l.marker, backend, options, expiry⟩ .resolving) := by
  simp only [step, Gateway.call, Gateway.acquire, hl, Option.map_some, Option.getD_some]
  rw [Gateway.task?_add]
  simp only [Acquire.start, hl, if_pos hidle]
  rfl

/-- What an answer makes of an acquisition. -/
inductive Answered (c : Scene ε) (i : TaskId) (a : Acquire) (place : Acquire.Place) : Prop where
  | waits (place' : Acquire.Place) (reply : Reply)
      (inbox : c.inbox i = some reply)
      (move : (LeaseOp.acquire a place).Moves c.gateway.shared.writer c.gateway.shared reply
        (.paused (.acquire a place')) (c.deliver i).gateway.shared)
      (task : (c.deliver i).gateway.task? i = some (.acquiring a place')) : Answered c i a place
  | returns (result : Except Error Bool) (reply : Reply)
      (inbox : c.inbox i = some reply)
      (move : (LeaseOp.acquire a place).Moves c.gateway.shared.writer c.gateway.shared reply
        (.done (.acquired result)) (c.deliver i).gateway.shared)
      (task : (c.deliver i).gateway.task? i = some (.finished (.acquired result))) :
    Answered c i a place

theorem answered_of_deliver (ht : c.gateway.task? i = some (.acquiring a place)) :
    c.deliver i = c ∨ c.Answered i a place := by
  rcases c.deliver_cases i with hsame | ⟨t, p, answer, ht', hp, hin, heq⟩
  · exact .inl hsame
  · right
    rw [ht] at ht'
    cases ht'
    obtain ⟨t₀, q, ht₀, hq, -, rfl⟩ := Gateway.pending?_eq hp
    rw [ht] at ht₀
    cases ht₀
    obtain ⟨step, hm, hfollows⟩ := Task.follows_next? (d := .acquire a place) rfl hq answer
    have hshared : (c.deliver i).gateway.shared = (q.resume answer c.gateway.shared).2 := by
      rw [heq]
      rfl
    have htask : (c.deliver i).gateway.task? i = some (q.resume answer c.gateway.shared).1 := by
      rw [heq]
      simp only [Pending.map, Gateway.task?_set ht, Function.update_self]
    rw [← hshared] at hm
    generalize (q.resume answer c.gateway.shared).1 = next at hfollows htask
    cases hfollows with
    | acquiring _ _ place' => exact .waits place' _ hin hm htask
    | acquired _ _ result => exact .returns result _ hin hm htask

/-- A task acquires a lease, or has returned. -/
def Attempts (c : Scene ε) (i : TaskId) (a : Acquire) : Prop :=
  (∃ result, c.gateway.result? i = some result) ∨
    ∃ place, c.gateway.task? i = some (.acquiring a place)

theorem Attempts.task (h : c.Attempts i a) : ∃ t, c.gateway.task? i = some t := by
  rcases h with ⟨result, hresult⟩ | ⟨place, ht⟩
  · exact ⟨_, Gateway.result?_eq.1 hresult⟩
  · exact ⟨_, ht⟩

theorem Attempts.of_task {c' : Scene ε} (h : c.Attempts i a)
    (htask : c'.gateway.task? i = c.gateway.task? i) : c'.Attempts i a := by
  rcases h with ⟨result, hresult⟩ | ⟨place, ht⟩
  · exact .inl ⟨result, Gateway.result?_eq.2 (htask.trans (Gateway.result?_eq.1 hresult))⟩
  · exact .inr ⟨place, htask.trans ht⟩

/-- A task goes on only by an answer of its own. -/
theorem Attempts.same_task (h : c.Attempts i a) {e : Event} (he : ∀ k, e = .deliver k → k ≠ i) :
    (c.step w e).gateway.task? i = c.gateway.task? i := by
  obtain ⟨t, ht⟩ := h.task
  cases e with
  | call call => exact ((c.gateway.grows_call call).task ht).trans ht.symm
  | fire lease => exact ((c.gateway.grows_fire lease).task ht).trans ht.symm
  | advance now => rfl
  | serve k =>
    rcases serve_cases w c k with hsame | ⟨t, p, -, -, -, heq⟩
    · exact congrArg (fun c => c.gateway.task? i) hsame
    · exact congrArg (fun c => c.gateway.task? i) heq
  | deliver k =>
    rcases c.deliver_cases k with hsame | ⟨t', p, answer, ht', hp, -, heq⟩
    · exact congrArg (fun c => c.gateway.task? i) hsame
    · obtain ⟨t₀, q, ht₀, hq, -, rfl⟩ := Gateway.pending?_eq hp
      simp only [step, heq, Pending.map, Gateway.task?_set ht']
      exact Function.update_of_ne (Ne.symm (he k rfl)) _ _

theorem Attempts.step (h : c.Attempts i a) (e : Event) : (c.step w e).Attempts i a := by
  by_cases he : ∃ k, e = .deliver k ∧ k = i
  · obtain ⟨k, rfl, rfl⟩ := he
    rcases h with ⟨result, hresult⟩ | ⟨place, ht⟩
    · have hsame := congrArg (fun c => c.gateway.result? k) (deliver_of_result hresult)
      exact .inl ⟨result, hsame.trans hresult⟩
    · rcases answered_of_deliver ht with hsame | hanswered
      · exact .inr ⟨place, (congrArg (fun c => c.gateway.task? k) hsame).trans ht⟩
      · cases hanswered with
        | waits place' reply inbox move task => exact .inr ⟨place', task⟩
        | returns result reply inbox move task => exact .inl ⟨_, Gateway.result?_eq.2 task⟩
  · exact h.of_task (h.same_task fun k hk hki => he ⟨k, hk, hki⟩)

theorem Attempts.run (h : c.Attempts i a) (events : List Event) :
    (c.run w events).Attempts i a := by
  induction events generalizing c with
  | nil => exact h
  | cons e events ih => exact ih (h.step e)

/-- Whoever returns without its lease has made it idle just now. -/
theorem Attempts.fails (h : c.Attempts i a) (ho : c.InOrder)
    (hgoing : c.gateway.result? i = none) {result : Except Error Bool}
    (hresult : (c.deliver i).gateway.result? i = some (.acquired result))
    (hfailed : result ≠ .ok true) :
    (∃ error reply, c.gateway.task? i = some (.acquiring a (.retreating error)) ∧
      c.inbox i = some reply) ∧
      ∃ l, (c.deliver i).gateway.shared.lease? a.lease = some l ∧ l.state = .idle := by
  rcases h with ⟨r, hr⟩ | ⟨place, ht⟩
  · rw [hgoing] at hr
    cases hr
  rcases answered_of_deliver ht with hsame | hanswered
  · rw [hsame, hgoing] at hresult
    cases hresult
  cases hanswered with
  | waits place' reply inbox move task =>
    rw [Gateway.result?_eq, task] at hresult
    cases hresult
  | returns result' reply inbox move task =>
    rw [Gateway.result?_eq, task] at hresult
    cases hresult
    obtain ⟨error, rfl, hleases⟩ := move.failed hfailed
    obtain ⟨l, hl, -⟩ := ho.leases.fits i _ (Gateway.leaseOps_of_lone ht rfl)
    have hfound : c.gateway.shared.lease? a.lease = some l := hl
    refine ⟨⟨error, reply, ht, inbox⟩, { l with state := .idle }, ?_, rfl⟩
    rw [Shared.lease?, hleases]
    refine (Shared.lease?_modifyLease _ _ _ _).trans ?_
    rw [if_pos rfl, hfound]
    rfl

/-- All that was ever done for a task was done for its acquisition. -/
def Devoted (c : Scene ε) (i : TaskId) (a : Acquire) : Prop :=
  ∀ t reply, .served i t reply ∈ c.history → ∃ place, t = .acquiring a place

theorem Devoted.changes {c' : Scene ε} (h : c.Devoted i a) (ha : c.Attempts i a)
    (hc : Changes w c c') : c'.Devoted i a := by
  cases hc with
  | nothing => exact h
  | starts => exact h
  | serves k t p task pending inbox =>
    intro t' reply hmem
    rcases List.mem_cons.1 hmem with heq | hmem
    · cases heq
      rcases ha with ⟨result, hresult⟩ | ⟨place, ht⟩
      · -- whoever has returned asks for nothing
        obtain ⟨t₀, q, ht₀, hq, -, -⟩ := Gateway.pending?_eq pending
        rw [Gateway.result?_eq.1 hresult] at ht₀
        cases ht₀
        cases hq
      · rw [task] at ht
        exact ⟨place, Option.some.inj ht⟩
    · exact h t' reply hmem
  | resumes k t p answer task pending inbox =>
    intro t' reply hmem
    rcases List.mem_cons.1 hmem with heq | hmem
    · cases heq
    · exact h t' reply hmem

theorem Devoted.run (h : c.Devoted i a) (ha : c.Attempts i a) (events : List Event) :
    (c.run w events).Devoted i a := by
  induction events generalizing c with
  | nil => exact h
  | cons e events ih => exact ih (h.changes ha (step_changes w c e)) (ha.step e)

/-- Nothing was asked for an acquisition that it might not ask for. -/
theorem Devoted.rightful (h : c.Devoted i a) (hi : c.Informed) {t : Task} {reply : Reply}
    {earlier : List Entry} (hsuffix : .served i t reply :: earlier <:+ c.history) :
    Entitled (replies i earlier) reply.1 := by
  obtain ⟨place, rfl⟩ := h t reply (hsuffix.subset List.mem_cons_self)
  exact hi.rightful i _ a place reply earlier hsuffix rfl

theorem world_deliver (c : Scene ε) (k : TaskId) : (c.deliver k).world = c.world := by
  rcases c.deliver_cases k with hsame | ⟨t, p, answer, -, -, -, heq⟩
  · rw [hsame]
  · rw [heq]

end

/-! ### The file at the site of the marker -/

section

variable {w : Depot ε} {c : Scene ε} {i : TaskId} {a : Acquire} {σ : Site} {before : Option Bytes}

/-- Nobody but the stores that act for a task changes the file at a site while these things
happen. -/
def LeftTo (w : Depot ε) (i : TaskId) (σ : Site) : Scene ε → List Event → Prop
  | _, [] => True
  | c, e :: rest =>
    (e.serves i = true ∨ w.file? (c.step w.toWorld e).world σ = w.file? c.world σ) ∧
      LeftTo w i σ (c.step w.toWorld e) rest

instance decidableLeftTo (w : Depot ε) (i : TaskId) (σ : Site) :
    (c : Scene ε) → (events : List Event) → Decidable (LeftTo w i σ c events)
  | _, [] => isTrue trivial
  | c, e :: rest =>
    have := decidableLeftTo w i σ (c.step w.toWorld e) rest
    inferInstanceAs (Decidable (_ ∧ _))

/-- The footprint of a task that acquires a lease. -/
def Trodden (w : Depot ε) (i : TaskId) (a : Acquire) (σ : Site) (before : Option Bytes)
    (c : Scene ε) : Prop :=
  ∀ place, c.gateway.task? i = some (.acquiring a place) →
    a.Footprint (replies i c.history) σ before (w.file? c.world σ) place (c.inbox i)

/-- Nothing is done for the task, and the file is left alone. -/
theorem Trodden.still {c' : Scene ε} (h : c.Trodden w i a σ before)
    (htask : c'.gateway.task? i = c.gateway.task? i)
    (hreplies : replies i c'.history = replies i c.history) (hinbox : c'.inbox i = c.inbox i)
    (hfile : w.file? c'.world σ = w.file? c.world σ) : c'.Trodden w i a σ before := by
  intro place ht
  rw [hreplies, hinbox, hfile]
  exact h place (htask.symm.trans ht)

theorem Trodden.serve (h : c.Trodden w i a σ before) (hi : c.Informed)
    (hσ : ∀ marker, ⟨.store a.backend (.resolve a.marker a.options), .ok marker⟩ ∈
      replies i c.history → a.backend.site marker = σ) (k : TaskId)
    (hstill : k ≠ i → w.file? (c.serve w.toWorld k).world σ = w.file? c.world σ) :
    (c.serve w.toWorld k).Trodden w i a σ before := by
  rcases serve_cases w.toWorld c k with hsame | ⟨t, p, ht, hp, hin, heq⟩
  · rw [hsame]
    exact h
  · by_cases hk : k = i
    · subst hk
      rw [heq]
      intro place ht'
      have hprint := h place ht'
      have hleaseOp : c.gateway.leaseOps k = some (.acquire a place) :=
        Gateway.leaseOps_of_lone ht' rfl
      have htold := hi.told k a place hleaseOp
      rw [hin] at hprint
      rw [replies_served]
      simp only [Function.update_self]
      exact hprint.acts htold (fun bid hbid => hσ bid.marker (htold.located hbid))
        (Gateway.request_of_leaseOp hleaseOp hp)
    · refine h.still ?_ ?_ ?_ (hstill hk)
      · rw [heq]
      · rw [heq]
        exact replies_served_other hk
      · rw [heq]
        exact Function.update_of_ne (Ne.symm hk) _ _

theorem Trodden.deliver (h : c.Trodden w i a σ before) (ha : c.Attempts i a) (k : TaskId) :
    (c.deliver k).Trodden w i a σ before := by
  rcases c.deliver_cases k with hsame | ⟨t, p, answer, ht, hp, hin, heq⟩
  · rw [hsame]
    exact h
  have hreplies : replies i (c.deliver k).history = replies i c.history := by
    rw [heq]
    exact replies_resumed
  have hworld := c.world_deliver k
  by_cases hk : k = i
  · subst hk
    rcases ha with ⟨result, hresult⟩ | ⟨place, ht'⟩
    · rw [deliver_of_result hresult]
      exact h
    · rcases answered_of_deliver ht' with hsame | hanswered
      · rw [hsame]
        exact h
      · intro place₁ ht₁
        cases hanswered with
        | waits place' reply inbox move task =>
          rw [task] at ht₁
          cases ht₁
          have hprint := h place ht'
          have hnone : (c.deliver k).inbox k = none := by
            rw [heq]
            exact Function.update_self _ _ _
          rw [inbox] at hprint
          rw [hreplies, hworld, hnone]
          exact hprint.moves move
        | returns result reply inbox move task =>
          rw [task] at ht₁
          cases ht₁
  · refine h.still (ha.same_task (w := w.toWorld) (e := .deliver k) fun n hn => ?_) hreplies ?_
      (by rw [hworld])
    · cases hn
      exact hk
    · rw [heq]
      exact Function.update_of_ne (Ne.symm hk) _ _

theorem Trodden.step (h : c.Trodden w i a σ before) (ha : c.Attempts i a) (hi : c.Informed)
    (hσ : ∀ marker, ⟨.store a.backend (.resolve a.marker a.options), .ok marker⟩ ∈
      replies i c.history → a.backend.site marker = σ) {e : Event}
    (he : e.serves i = true ∨ w.file? (c.step w.toWorld e).world σ = w.file? c.world σ) :
    (c.step w.toWorld e).Trodden w i a σ before := by
  cases e with
  | call call => exact h.still (ha.same_task (w := w.toWorld) fun k hk => by cases hk) rfl rfl rfl
  | fire lease => exact h.still (ha.same_task (w := w.toWorld) fun k hk => by cases hk) rfl rfl rfl
  | advance now => exact h.still rfl rfl rfl rfl
  | serve k => exact h.serve hi hσ k fun hk => he.resolve_left fun hserves => hk (eq_of_beq hserves)
  | deliver k => exact h.deliver ha k

/-- An acquisition keeps its footprint until it has returned, if nobody else changes the file. -/
theorem Trodden.run (h : c.Trodden w i a σ before) (ha : c.Attempts i a) (hi : c.Informed)
    (events : List Event)
    (hσ : ∀ marker, ⟨.store a.backend (.resolve a.marker a.options), .ok marker⟩ ∈
      replies i (c.run w.toWorld events).history → a.backend.site marker = σ)
    (hleft : LeftTo w i σ c events) : (c.run w.toWorld events).Trodden w i a σ before := by
  induction events generalizing c with
  | nil => exact h
  | cons e events ih =>
    refine ih (h.step ha hi (fun marker hmem => hσ marker ?_) hleft.1) (ha.step e)
      (hi.changes (step_changes w.toWorld c e)) hσ hleft.2
    exact replies_run w.toWorld c (e :: events) hmem

end

/-! ### What is left -/

/-- What an acquisition leaves that has failed: `c` is the scene in which it was called, and `c'`
the one in which it has returned.

* `lease`: the lease is what it was before, and what a new one is, idle, without a marker or a
  timer;
* `guards`: every ticket in the queue of a guard is that of somebody else;
* `file`: the file at the site of the marker is what it was before, if nobody else has changed it;
* `rightful`: nothing was asked for that touches a marker of somebody else;
* `again`: whoever acquires the lease now might as well make a new one for its target and acquire
  that one, whatever happens then. -/
structure Traceless (w : Depot ε) (c c' : Scene ε) (a : Acquire) (l : Lease) (during : List Event) :
    Prop where
  lease : c'.gateway.shared.lease? a.lease = some l ∧ Lease.fresh l.target = .ok l ∧
    l.state = .idle ∧ l.held = none ∧ l.timer = .unset
  guards : ∀ n t, t ∈ c'.gateway.shared.guards.queue n → ∃ k d key,
    k ≠ c.gateway.tasks.length ∧ c'.gateway.leaseOps k = some d ∧ d.ticket? = some (t, key)
  file : ∀ σ, (∀ marker, ⟨.store a.backend (.resolve a.marker a.options), .ok marker⟩ ∈
      replies c.gateway.tasks.length c'.history → a.backend.site marker = σ) →
    LeftTo w c.gateway.tasks.length σ
      (c.step w.toWorld (.call (.acquire a.lease a.backend a.options a.expiry))) during →
    w.file? c'.world σ = w.file? c.world σ ∨
      a.Stranded (replies c.gateway.tasks.length c'.history) σ (w.file? c.world σ)
  rightful : ∀ t reply earlier, .served c.gateway.tasks.length t reply :: earlier <:+ c'.history →
    Entitled (replies c.gateway.tasks.length earlier) reply.1
  again : (c'.step w.toWorld (.call (.addLease l.target))).gateway.shared.lease?
      c'.gateway.shared.leases.length = some l ∧
    ∀ backend options expiry events,
      ((c'.step w.toWorld (.call (.addLease l.target))).run w.toWorld
          (.call (.acquire a.lease backend options expiry) :: events)).Renamed
        (Equiv.swap a.lease c'.gateway.shared.leases.length)
        ((c'.step w.toWorld (.call (.addLease l.target))).run w.toWorld
          (.call (.acquire c'.gateway.shared.leases.length backend options expiry) ::
            events.map (Event.rename (Equiv.swap a.lease c'.gateway.shared.leases.length))))

section

variable {w : Depot ε} {c : Scene ε} {id : LeaseId} {l : Lease}

/-- Whoever has returned waits in no queue. -/
theorem Tidy.queue_others (h : c.Tidy) {i : TaskId} {result : TaskResult}
    (hresult : c.gateway.result? i = some result) {n : Nat} {t : Ticket}
    (ht : t ∈ c.gateway.shared.guards.queue n) :
    ∃ k d key, k ≠ i ∧ c.gateway.leaseOps k = some d ∧ d.ticket? = some (t, key) := by
  obtain ⟨k, d, key, hd, hticket⟩ := h.claimed n t ht
  refine ⟨k, d, key, ?_, hd, hticket⟩
  rintro rfl
  -- a task that has returned has no lease operation
  have hnone := (Gateway.leaseOps_eq (Gateway.result?_eq.1 hresult)).symm.trans hd
  cases hnone

variable (hl : c.gateway.shared.lease? id = some l) (hidle : l.state = .idle) (backend : Backend)
  (options : Options) (expiry : Duration)

include hl hidle

theorem attempts_acquire (w : World ε) :
    (c.step w (.call (.acquire id backend options expiry))).Attempts c.gateway.tasks.length
      ⟨id, l.marker, backend, options, expiry⟩ :=
  .inr ⟨.resolving, task_of_acquire hl hidle backend options expiry⟩

/-- An acquisition that is about to return without its lease has left the file at the site of its
marker as it was, or has left a marker behind. -/
theorem file_acquire (hi : c.Informed) {during : List Event} {σ : Site}
    (hσ : ∀ marker, ⟨.store backend (.resolve l.marker options), .ok marker⟩ ∈
      replies c.gateway.tasks.length
        ((c.step w.toWorld (.call (.acquire id backend options expiry))).run w.toWorld
          during).history → backend.site marker = σ)
    (hleft : LeftTo w c.gateway.tasks.length σ
      (c.step w.toWorld (.call (.acquire id backend options expiry))) during)
    {c' : Scene ε}
    (hc' : c' = (c.step w.toWorld (.call (.acquire id backend options expiry))).run w.toWorld
      during)
    {error : Option Error} (hretreats : c'.gateway.task? c.gateway.tasks.length =
      some (.acquiring ⟨id, l.marker, backend, options, expiry⟩ (.retreating error))) :
    w.file? c'.world σ = w.file? c.world σ ∨
      Acquire.Stranded ⟨id, l.marker, backend, options, expiry⟩
        (replies c.gateway.tasks.length c'.history) σ (w.file? c.world σ) := by
  have htask := task_of_acquire (w := w.toWorld) hl hidle backend options expiry
  have hprint : (c.step w.toWorld (.call (.acquire id backend options expiry))).Trodden w
      c.gateway.tasks.length ⟨id, l.marker, backend, options, expiry⟩ σ (w.file? c.world σ) := by
    intro place ht
    rw [htask] at ht
    cases ht
    exact .of_aside rfl rfl fun _ => .inl rfl
  have hprint' := hprint.run (attempts_acquire hl hidle backend options expiry w.toWorld)
    (hi.changes (step_changes w.toWorld c _)) during hσ hleft
  rw [← hc'] at hprint'
  exact (hprint' _ hretreats).aside rfl rfl rfl

/-- Nothing is asked for an acquisition that it might not ask for. -/
theorem rightful_acquire (hr : c.Recorded) {events : List Event} {c' : Scene ε}
    (hc' : c' = (c.step w.toWorld (.call (.acquire id backend options expiry))).run w.toWorld
      events) (hi : c'.Informed) {t : Task} {reply : Reply} {earlier : List Entry}
    (hsuffix : .served c.gateway.tasks.length t reply :: earlier <:+ c'.history) :
    Entitled (replies c.gateway.tasks.length earlier) reply.1 := by
  -- before the call nothing was done for the task
  have hdevoted : (c.step w.toWorld (.call (.acquire id backend options expiry))).Devoted
      c.gateway.tasks.length ⟨id, l.marker, backend, options, expiry⟩ := by
    intro t reply hmem
    exact absurd (hr.tasks _ hmem) (Nat.lt_irrefl _)
  have hdevoted' : c'.Devoted c.gateway.tasks.length ⟨id, l.marker, backend, options, expiry⟩ := by
    rw [hc']
    exact hdevoted.run (attempts_acquire hl hidle backend options expiry w.toWorld) events
  exact hdevoted'.rightful hi hsuffix

end

/-- Whatever has happened before, whatever the stores answer and whatever else goes on: an
acquisition of an idle lease that fails leaves no trace. -/
theorem traceless_run (w : Depot ε) (writer : Diagnostics) (world : ε) (before : List Event)
    (id : LeaseId) (backend : Backend) (options : Options) (expiry : Duration)
    (during : List Event) (c c' : Scene ε) (hc : c = (start writer world).run w.toWorld before)
    (l : Lease) (hl : c.gateway.shared.lease? id = some l) (hidle : l.state = .idle)
    (hc' : c' =
      (c.step w.toWorld (.call (.acquire id backend options expiry))).run w.toWorld during)
    (hgoing : c'.gateway.result? c.gateway.tasks.length = none) (result : Except Error Bool)
    (hresult : (c'.step w.toWorld (.deliver c.gateway.tasks.length)).gateway.result?
      c.gateway.tasks.length = some (.acquired result)) (hfailed : result ≠ .ok true) :
    Traceless w c (c'.step w.toWorld (.deliver c.gateway.tasks.length))
      ⟨id, l.marker, backend, options, expiry⟩ l during := by
  let i := c.gateway.tasks.length
  let acquire : Event := .call (.acquire id backend options expiry)
  -- all scenes of the run are reached from the start
  have hmiddle : c' = (start writer world).run w.toWorld (before ++ acquire :: during) := by
    rw [run_append, ← hc, hc']
    rfl
  have hlast : c'.deliver i =
      (start writer world).run w.toWorld (before ++ acquire :: during ++ [.deliver i]) := by
    rw [run_append, ← hmiddle]
    rfl
  have hfrom : c'.deliver i = (c.step w.toWorld acquire).run w.toWorld
      (during ++ [.deliver i]) := by
    rw [run_append, hc']
    rfl
  obtain ⟨horder, htidy⟩ := hc ▸ tidy_run w.toWorld writer world before
  obtain ⟨horder', -⟩ := hmiddle ▸ tidy_run w.toWorld writer world (before ++ acquire :: during)
  obtain ⟨horder'', htidy''⟩ := hlast ▸ tidy_run w.toWorld writer world _
  -- the lease when the call has returned
  have hattempts : c'.Attempts i ⟨id, l.marker, backend, options, expiry⟩ :=
    hc' ▸ (attempts_acquire hl hidle backend options expiry w.toWorld).run during
  obtain ⟨⟨error, reply, hretreats, hinbox⟩, l', hl', hidle'⟩ :=
    hattempts.fails horder' hgoing hresult hfailed
  have hretains : c.gateway.shared.Retains (c'.deliver i).gateway.shared id := by
    rw [hfrom]
    exact retains_run w.toWorld c (acquire :: (during ++ [.deliver i]))
  have hsame : l' = l := htidy.same_idle horder htidy'' horder'' hretains hl hidle hl' hidle'
  subst hsame
  constructor
  · exact ⟨hl', htidy.fresh horder hl hidle, hidle, (horder.leases.sound id l' hl).idle hidle,
      (htidy.unspent id l' hl).timer (.inl hidle)⟩
  · exact fun n t ht => htidy''.queue_others hresult ht
  · intro σ hσ hleft
    have hfile := file_acquire hl hidle backend options expiry
      (hc ▸ informed_run w.toWorld writer world before)
      (fun marker hmem => hσ marker (replies_run w.toWorld c' [.deliver i] (hc' ▸ hmem))) hleft hc'
      hretreats
    have hworld : (c'.step w.toWorld (.deliver i)).world = c'.world := c'.world_deliver i
    rw [hworld]
    exact hfile.imp_right fun hs => hs.mono (replies_run w.toWorld c' [.deliver i])
  · intro t reply earlier hsuffix
    exact rightful_acquire hl hidle backend options expiry
      (hc ▸ (known_run writer world before).recorded) hfrom
      (hlast ▸ informed_run w.toWorld writer world _) hsuffix
  · exact ⟨(htidy''.exchange (w := w.toWorld) horder'' hl' hidle).2,
      htidy''.exchange_run horder'' hl' hidle⟩

/-- The marker of another writer. -/
def foreign : Site × Bytes :=
  (⟨"file://", ⟨⟨"/out.lock"⟩⟩⟩, "another writer".toUTF8.toList)

/-- An acquisition of a lease whose marker is there already, up to its return. -/
def forestalled : List Event :=
  (List.replicate 3 [Event.serve 0, .deliver 0]).flatten ++ [.serve 0]

theorem traceless_run_forestalled :
    let w := Memory.depot
    let c := (start ⟨"host", "10.0.0.1", 7⟩
      ((Memory.empty fun _ => []).put foreign.1 (some foreign.2))).run w.toWorld
        [.call (.addLease ⟨"/out"⟩)]
    let c' :=
      (c.step w.toWorld (.call (.acquire 0 ⟨0, "file://", true⟩ .empty .zero))).run w.toWorld
        forestalled
    let l : Lease := ⟨⟨"/out"⟩, ⟨"/out.lock"⟩, .idle, none, .unset⟩
    c.gateway.shared.lease? 0 = some l ∧
      (c'.step w.toWorld (.deliver 0)).gateway.result? 0 = some (.acquired (.ok false)) ∧
      LeftTo w 0 foreign.1
        (c.step w.toWorld (.call (.acquire 0 ⟨0, "file://", true⟩ .empty .zero))) forestalled ∧
      w.file? (c'.step w.toWorld (.deliver 0)).world foreign.1 = some foreign.2 ∧
      Traceless w c (c'.step w.toWorld (.deliver 0))
        ⟨0, ⟨"/out.lock"⟩, ⟨0, "file://", true⟩, .empty, .zero⟩ l forestalled := by
  intro w c c' l
  have hl : c.gateway.shared.lease? 0 = some l := by decide +kernel
  have hgoing : c'.gateway.result? 0 = none := by decide +kernel
  have hresult : (c'.step w.toWorld (.deliver 0)).gateway.result? 0 =
      some (.acquired (.ok false)) := by decide +kernel
  exact ⟨hl, hresult, by decide +kernel, by decide +kernel,
    traceless_run w _ _ [.call (.addLease ⟨"/out"⟩)] 0 ⟨0, "file://", true⟩ .empty .zero forestalled
      c c' rfl l hl rfl rfl hgoing (.ok false) hresult nofun⟩

end Scene

end FileGateway

import FileGateway.Proofs.Registry.Sharing
import FileGateway.Proofs.Suspension.Traffic

/-!
# Who moves the health of a connection

The policy of a handle is changed by the answers to the resolves that were started on it, and by
nothing else: each of them is a `Sharing.Note`, and what a run makes of a policy is what its notes
make of it (`Sharing.Credits`).

An operation takes one note at most, about its own handle: it is rejected and takes none, or it
waits for its path and takes none yet, or its path was answered, which is the first thing it was
answered, and what it was answered later is noted nowhere (`Sharing.Fate`). All other handles are
left exactly as they are, whatever stores they have in common.

`Sharing.attributed_run` is about every gateway in use, as it comes about by any sequence of events,
and about every sequence of events after an operation has started.
-/

namespace FileGateway

open SuspensionPolicy (Query)
open Traffic (verdict question Suspended)

/-- The resolve that a task waits for. -/
def Task.resolve? : Task → Option Resolve
  | resolving r => some r
  | operating _ (.resolving _ r) => some r
  | _ => none

/-- A task works on a handle. -/
inductive Task.Uses : Task → HandleId → Prop where
  | operating (id : HandleId) (place : Operation.Place) : Uses (.operating id place) id
  | resolve {t : Task} {r : Resolve} (resolve : t.resolve? = some r) : Uses t r.handle

namespace Sharing

/-- One record of a resolve that was answered, with the task that takes it. -/
structure Note where
  task : TaskId
  handle : HandleId
  query : Query
  time : Instant

/-- The note that a task takes of the answer to its resolve. -/
def noteOf (i : TaskId) (answers : (request : Request) → request.Answer) (time : Instant)
    (r : Resolve) : Note :=
  ⟨i, r.handle, verdict (answers (.store r.backend (.resolve r.path r.options))), time⟩

/-- The note that is taken at an event. -/
def note? (g : Gateway) : Event → Option Note
  | .answer i answers => ((g.task? i).bind Task.resolve?).map (noteOf i answers g.shared.now)
  | _ => none

/-- The notes that are taken in a run. -/
def notes (g : Gateway) : List Event → List Note
  | [] => []
  | e :: rest => (note? g e).toList ++ notes (step g e) rest

/-- What notes make of the policy of a handle. -/
def noted (id : HandleId) (p : SuspensionPolicy) (notes : List Note) : SuspensionPolicy :=
  notes.foldl (fun p n => if n.handle = id then (p.ask n.query n.time).2 else p) p

/-- What a task is answered at an event, and when. -/
def heard? (t : TaskId) (g : Gateway) : Event → Option (Instant × Reply)
  | .answer i answers =>
    if i = t then
      (g.pending? i).map fun p => (g.shared.now, ⟨p.request, answers p.request⟩)
    else none
  | _ => none

/-- What a task is answered in a run. -/
def heard (t : TaskId) (g : Gateway) : List Event → List (Instant × Reply)
  | [] => []
  | e :: rest => (heard? t g e).toList ++ heard t (step g e) rest

/-! ## Changes of handles -/

/-- What a change of a registry makes of the handles that were there: their health is as the notes
say, and nothing is changed of those that may not be. -/
structure Credits (may : HandleId → Prop) (notes : List Note) (r r' : Registry) : Prop where
  health : ∀ i h, r.handle? i = some h →
    ∃ h', r'.handle? i = some h' ∧ h'.policy = noted i h.policy notes
  same : ∀ i h, ¬may i → r.handle? i = some h → r'.handle? i = some h

section

variable {may : HandleId → Prop} {r r' r'' : Registry} {id : HandleId} {ns ns' : List Note}

theorem noted_append (id : HandleId) (p : SuspensionPolicy) (ns ns' : List Note) :
    noted id p (ns ++ ns') = noted id (noted id p ns) ns' :=
  List.foldl_append

namespace Credits

theorem refl (may : HandleId → Prop) (r : Registry) : Credits may [] r r :=
  ⟨fun _ h hh => ⟨h, hh, rfl⟩, fun _ _ _ hh => hh⟩

/-- What comes after is no matter of handles. -/
theorem still (h : Credits may ns r r') (heq : r'' = r') : Credits may ns r r'' :=
  heq ▸ h

theorem of_eq (may : HandleId → Prop) (h : r' = r) : Credits may [] r r' :=
  h ▸ refl may r

theorem trans (h : Credits may ns r r') (h' : Credits may ns' r' r'') :
    Credits may (ns ++ ns') r r'' := by
  constructor
  · intro i handle hh
    obtain ⟨next, hnext, hpolicy⟩ := h.health i handle hh
    obtain ⟨last, hlast, hpolicy'⟩ := h'.health i next hnext
    exact ⟨last, hlast, by rw [hpolicy', hpolicy, noted_append]⟩
  · exact fun i handle hmay hh => h'.same i handle hmay (h.same i handle hmay hh)

/-- One handle is changed. -/
theorem modify {change : Handle → Handle} (hid : may id)
    (hchange : ∀ h, (change h).policy = noted id h.policy ns)
    (hns : ∀ n ∈ ns, n.handle = id) : Credits may ns r (r.modify id change) := by
  constructor
  · intro i h hh
    rw [Registry.handle?_modify, hh]
    refine ⟨_, rfl, ?_⟩
    by_cases hi : id = i
    · subst hi
      simpa using hchange h
    · -- the notes are about another handle
      have hnone : ∀ ns : List Note, (∀ n ∈ ns, n.handle = id) → ∀ p, noted i p ns = p := by
        intro ns
        induction ns with
        | nil => exact fun _ _ => rfl
        | cons n ns ih =>
          intro hall p
          have hn : n.handle ≠ i := hall n List.mem_cons_self ▸ hi
          rw [noted, List.foldl_cons, if_neg hn]
          exact ih (fun n hn => hall n (List.mem_cons_of_mem _ hn)) p
      rw [if_neg hi, hnone ns hns]
  · intro i h hmay hh
    rw [Registry.handle?_modify, hh, if_neg fun heq : id = i => hmay (heq ▸ hid)]
    rfl

/-- What is no matter of health is changed of one handle. -/
theorem adjust {change : Handle → Handle} (hid : may id)
    (hchange : ∀ h, (change h).policy = h.policy) : Credits may [] r (r.modify id change) :=
  modify hid hchange nofun

theorem giveBack (r : Registry) (hid : may id) : Credits may [] r (r.giveBack id) := by
  refine adjust hid fun h => ?_
  unfold Handle.reset
  split <;> rfl

/-- Handles are built. -/
theorem built (hs : List Handle) (h : r'.built = r.built ++ hs) : Credits may [] r r' := by
  have hold : ∀ i h, r.handle? i = some h → r'.handle? i = some h := by
    intro i handle hh
    rw [Registry.handle?, h]
    exact (List.getElem?_append_left (List.getElem?_eq_some_iff.1 hh).1).trans hh
  exact ⟨fun i h hh => ⟨h, hold i h hh, rfl⟩, fun i h _ hh => hold i h hh⟩

theorem add (r : Registry) (h : Handle) : Credits may [] r (r.add h).registry := by
  unfold Registry.add
  cases r.lookup? h.key with
  | some registered => exact built [h] rfl
  | none => exact built [h] rfl

theorem provide (r : Registry) (key : ConnectionKey) (make : Unit → Except Error Handle) :
    Credits may [] r (r.provide key make).registry := by
  unfold Registry.provide
  split
  · exact refl may r
  · split
    · exact refl may r
    · next h _ =>
      simp only
      split <;> exact built [h] rfl

theorem checkout (r : Registry) (d : Deployment) (key : ConnectionKey) :
    Credits may [] r (d.provide r key).registry := by
  unfold Deployment.provide
  split
  · exact refl may r
  · split
    · exact refl may r
    · exact provide r _ _

end Credits

end

/-! ## Tasks -/

section

variable {may : HandleId → Prop} {s : Shared} {id : HandleId}

/-- A resolve that is answered takes a note. -/
theorem credits_resolve (i : TaskId) (answers : (request : Request) → request.Answer) (r : Resolve)
    (s : Shared) (hr : may r.handle) :
    Credits may [noteOf i answers s.now r] s.registry
      (r.next.resume (answers (.store r.backend (.resolve r.path r.options))) s).2.registry := by
  have hnote : ∀ n ∈ [noteOf i answers s.now r], n.handle = r.handle := by
    intro n hn
    rw [List.mem_singleton.1 hn]
    rfl
  generalize hanswer : answers (.store r.backend (.resolve r.path r.options)) = answer
  have hpolicy : ∀ p, noted r.handle p [noteOf i answers s.now r] =
      (p.ask (verdict answer) s.now).2 := by
    intro p
    rw [← hanswer]
    exact if_pos rfl
  rcases answer with f | file
  · exact .modify hr (fun h => (hpolicy h.policy).symm) hnote
  · exact .modify hr (fun h => (hpolicy h.policy).symm) hnote

/-- An operation that ends gives its handle back. -/
theorem credits_ofOperation {ns : List Note} {r : Registry} (hid : may id)
    (step : Step Operation.Place (Except Error Effect)) {s : Shared}
    (h : Credits may ns r s.registry) :
    Credits may ns r (Task.ofOperation id step s).2.registry := by
  cases step with
  | paused place => exact h
  | done result =>
    have hback := h.trans (Credits.giveBack s.registry hid)
    rwa [List.append_nil] at hback

/-- Whatever a task is answered, it takes a note of nothing but its resolve, and changes nothing but
the handles it works on. -/
theorem credits_next? {t : Task} {s₀ : Shared} {p : Pending (Shared → Task × Shared)}
    (hp : t.next? s₀ = some p) (i : TaskId) (answers : (request : Request) → request.Answer)
    (s : Shared) (huses : ∀ id, t.Uses id → may id) :
    Credits may (t.resolve?.map (noteOf i answers s.now)).toList s.registry
      (p.resume (answers p.request) s).2.registry := by
  have hregistry := Shared.detached_registry
  cases t with
  | acquiring a place =>
    cases hp
    exact .of_eq may (hregistry.acquire_next a _ place _ s)
  | releasing lease marker strict place =>
    cases hp
    exact .of_eq may (hregistry.surrender_next _ place _ s)
  | expiring lease place =>
    cases hp
    exact .of_eq may (hregistry.surrender_next _ place _ s)
  | resolving r =>
    cases hp
    exact credits_resolve i answers r s (huses r.handle (.resolve rfl))
  | operating id place =>
    cases hp
    refine credits_ofOperation (huses id (.operating id place)) _ ?_
    cases place with
    | resolving action r =>
      exact (credits_resolve i answers r s (huses r.handle (.resolve rfl))).still
        (registry_resolveStep action id _ _)
    | writing target place => exact .of_eq may (hregistry.write_next target _ place _ s)
    | _ => exact .refl may _
  | closing id background =>
    cases hp
    exact .refl may _
  | evicting id rest count =>
    cases hp
    exact .refl may _
  | finished result => cases hp

end

/-! ## Events -/

section

variable {may : HandleId → Prop} {g : Gateway} {t : TaskId} {id : HandleId} {h : Handle}

/-- Whoever waits for a resolve can be answered. -/
theorem pending?_of_resolve {i : TaskId} {task : Task} {r : Resolve} (ht : g.task? i = some task)
    (hr : task.resolve? = some r) : ∃ p, g.pending? i = some p := by
  unfold Task.resolve? at hr
  split at hr
  · cases hr
    exact ⟨_, Gateway.pending?_of_next ht rfl rfl⟩
  · cases hr
    exact ⟨_, Gateway.pending?_of_next ht rfl rfl⟩
  · cases hr

/-- Who waits for nothing takes no note. -/
theorem note?_of_idle {i : TaskId} (hp : g.pending? i = none)
    (answers : (request : Request) → request.Answer) : note? g (.answer i answers) = none := by
  cases ht : g.task? i with
  | none => simp only [note?, ht, Option.bind_none, Option.map_none]
  | some task =>
    cases hr : task.resolve? with
    | none => simp only [note?, ht, Option.bind_some, hr, Option.map_none]
    | some r =>
      obtain ⟨p, hp'⟩ := pending?_of_resolve ht hr
      rw [hp] at hp'
      cases hp'

theorem credits_answer (g : Gateway) (i : TaskId) (answers : (request : Request) → request.Answer)
    (huses : ∀ task, g.task? i = some task → ∀ id, task.Uses id → may id) :
    Credits may (note? g (.answer i answers)).toList g.shared.registry
      (step g (.answer i answers)).shared.registry := by
  cases hp : g.pending? i with
  | none =>
    simp only [note?_of_idle hp answers, step, hp]
    exact .refl may _
  | some p =>
    obtain ⟨task, q, ht, hq, -, rfl⟩ := Gateway.pending?_eq hp
    have hcredits := credits_next? hq i answers g.shared (huses task ht)
    simp only [note?, ht, Option.bind_some, step, hp]
    exact hcredits

/-- A call that brings nothing in does nothing to handles but build them, unless it is an
operation. -/
theorem credits_call (g : Gateway) {c : Call} (hc : c.brings = false) :
    Credits (fun _ => True) [] g.shared.registry (g.call c).shared.registry := by
  have hregistry := Shared.detached_registry
  cases c with
  | addLease target =>
    simp only [Gateway.call, Gateway.addLease]
    cases Lease.fresh target <;> exact .refl _ _
  | acquire lease backend options expiry => exact .of_eq _ (hregistry.acquire_start _ _)
  | release lease strict => exact .of_eq _ (hregistry.release_start lease g.shared)
  | resolve handle path =>
    exact .of_eq _ (congrArg Shared.registry (Shared.Lasting.resolve_start handle path g.shared))
  | operate d key action path =>
    have hcheckout : Credits (fun _ => True) [] g.shared.registry
        (d.provide g.shared.registry key).registry := .checkout _ d key
    cases hid : (d.provide g.shared.registry key).handle with
    | error e =>
      simp only [Gateway.call, Gateway.operate, hid]
      exact hcheckout
    | ok id =>
      simp only [Gateway.call, Gateway.operate, hid]
      exact credits_ofOperation trivial _
        (hcheckout.still (registry_operation_start action id path _))
  | create creation => cases hc
  | close handle => exact .refl _ _
  | shutdown space =>
    exact .built [] (List.append_nil _).symm

theorem credits_step (g : Gateway) (e : Event) :
    Credits (fun _ => True) (note? g e).toList g.shared.registry (step g e).shared.registry := by
  cases e with
  | adjust id update => exact .adjust trivial fun _ => rfl
  | reset id => exact .giveBack _ trivial
  | giveBack id => exact .giveBack _ trivial
  | create h made =>
    simp only [step, registry_create]
    exact .add _ h
  | provide key make =>
    simp only [step, registry_create]
    exact .provide _ key _
  | checkout d key =>
    simp only [step, registry_create]
    exact .checkout _ d key
  | call c plain => exact credits_call g plain
  | fire lease => exact .of_eq _ (Shared.detached_registry.fire g lease)
  | advance now => exact .refl _ _
  | answer i answers => exact credits_answer g i answers fun _ _ _ _ => trivial

/-- In a run, the health of every handle is what the notes of the run make of it. -/
theorem credits_run (g : Gateway) (events : List Event) :
    Credits (fun _ => True) (notes g events) g.shared.registry
      (run g events).shared.registry := by
  induction events generalizing g with
  | nil => exact .refl _ _
  | cons e rest ih => exact (credits_step g e).trans (ih (step g e))

end

/-! ## Operations -/

/-- A task is past the path of its operation: it works on the file, or has ended. -/
inductive Past (id : HandleId) : Task → Prop where
  | working {place : Operation.Place}
    (past : ∀ action resolve, place ≠ .resolving action resolve) : Past id (.operating id place)
  | ended (result : TaskResult) : Past id (.finished result)

/-- What can have become of an operation that was started on a handle: its task, what it was
answered, and the notes it has taken. It came during a suspension, or the store has not answered
yet where the path leads.

If the store has answered, this alone is noted, whatever was answered later. -/
inductive Fate (t : TaskId) (id : HandleId) (h : Handle) (path : Path) (time : Instant) :
    Task → List (Instant × Reply) → List Note → Prop where
  | rejected (deadline : Instant) (suspended : Suspended h time deadline) :
    Fate t id h path time
      (.finished (.operated (.error
        (.connectionSuspended h.key.name (.clamp (deadline - time)))))) [] []
  | waits (action : Action) (admitted : ∀ deadline, ¬Suspended h time deadline) :
    Fate t id h path time
      (.operating id (.resolving action ⟨id, h.key.name, h.backend, h.place path, h.options⟩)) [] []
  | answered {task : Task} (later : Instant) (answer : Result FileRef)
    (others : List (Instant × Reply)) (admitted : ∀ deadline, ¬Suspended h time deadline)
    (past : Past id task) :
    Fate t id h path time task ((later, ⟨question h path, answer⟩) :: others)
      [⟨t, id, verdict answer, later⟩]

section

variable {g : Gateway} {t : TaskId} {id : HandleId} {h : Handle} {path : Path} {time : Instant}
  {task : Task} {replies : List (Instant × Reply)} {ns : List Note}

theorem Past.resolve? (hp : Past id task) : task.resolve? = none := by
  cases hp with
  | @working place past =>
    cases place with
    | resolving action resolve => exact absurd rfl (past action resolve)
    | _ => rfl
  | ended result => rfl

theorem Past.ofOperation {step : Step Operation.Place (Except Error Effect)}
    (hstep : ∀ action resolve, step ≠ .paused (.resolving action resolve)) (s : Shared) :
    Past id (Task.ofOperation id step s).1 := by
  cases step with
  | paused place => exact .working fun action resolve heq => hstep action resolve (heq ▸ rfl)
  | done result => exact .ended _

theorem writeStep_ne (target : Write.Target) (step : Step Write.Place (Except Error Nat))
    (action : Action) (r : Resolve) :
    Operation.writeStep target step ≠ .paused (.resolving action r) := by
  cases step <;> exact nofun

/-- Once its path is known, an operation does not ask for it again. -/
theorem resolved_ne (action : Action) (id : HandleId) (file : FileRef) (s : Shared) (a : Action)
    (r : Resolve) : (Operation.resolved action id file s).1 ≠ .paused (.resolving a r) := by
  unfold Operation.resolved
  split
  · exact nofun
  · cases action with
    | write mode => exact writeStep_ne _ _ a r
    | _ => exact nofun

theorem next_resolving_ne (writer : Diagnostics) (action : Action) (r : Resolve)
    (answer : r.next.request.Answer) (s : Shared) (a : Action) (r' : Resolve) :
    ((Operation.next id writer (.resolving action r)).resume answer s).1 ≠
      .paused (.resolving a r') := by
  rcases answer with f | file
  · exact nofun
  · exact resolved_ne action id file _ a r'

theorem next_past_ne (writer : Diagnostics) {place : Operation.Place}
    (hplace : ∀ action resolve, place ≠ .resolving action resolve)
    (answer : (Operation.next id writer place).request.Answer) (s : Shared) (a : Action)
    (r : Resolve) :
    ((Operation.next id writer place).resume answer s).1 ≠ .paused (.resolving a r) := by
  cases place with
  | resolving action resolve => exact absurd rfl (hplace action resolve)
  | probing backend file => exact nofun
  | deleting backend file => exact nofun
  | reading backend file place =>
    intro heq
    simp only [Operation.next, Pending.map] at heq
    generalize (Read.next backend file place).resume answer = step at heq
    cases step <;> cases heq
  | writing target place => exact writeStep_ne target _ a r

/-- An operation that is past its path stays so, whatever it is answered. -/
theorem Past.next? (hp : Past id task) {s₀ : Shared} {p : Pending (Shared → Task × Shared)}
    (hq : task.next? s₀ = some p) (answer : p.request.Answer) (s : Shared) :
    Past id (p.resume answer s).1 := by
  cases hp with
  | working past =>
    cases hq
    exact Past.ofOperation (next_past_ne _ past answer s) _
  | ended result => cases hq

theorem Past.uses (hp : Past id task) {i : HandleId} (hi : task.Uses i) : i = id := by
  cases hi with
  | operating i place => cases hp with | working => rfl
  | resolve hr =>
    rw [hp.resolve?] at hr
    cases hr

/-- An operation works on its handle alone. -/
theorem Fate.uses (hf : Fate t id h path time task replies ns) {i : HandleId}
    (hi : task.Uses i) : i = id := by
  cases hf with
  | rejected =>
    cases hi with
    | resolve hr => cases hr
  | waits =>
    cases hi with
    | operating => rfl
    | resolve hr =>
      cases hr
      rfl
  | answered _ _ _ _ past => exact past.uses hi

/-- An operation takes notes about its handle alone. -/
theorem Fate.handle (hf : Fate t id h path time task replies ns) : ∀ n ∈ ns, n.handle = id := by
  cases hf with
  | answered =>
    intro n hn
    rw [List.mem_singleton.1 hn]
  | _ => exact nofun

/-- The notes that a task takes. -/
def notesOf (t : TaskId) (ns : List Note) : List Note :=
  ns.filter fun n => n.task = t

/-- An answer to an operation keeps to its fate. -/
theorem Fate.answer (hf : Fate t id h path time task replies ns) (ht : g.task? t = some task)
    (answers : (request : Request) → request.Answer) :
    ∃ task', (step g (.answer t answers)).task? t = some task' ∧
      Fate t id h path time task' (replies ++ (heard? t g (.answer t answers)).toList)
        (ns ++ notesOf t (note? g (.answer t answers)).toList) := by
  cases hp : g.pending? t with
  | none =>
    refine ⟨task, by simpa only [step, hp] using ht, ?_⟩
    have hheard : heard? t g (.answer t answers) = none := by
      simp only [heard?, if_true, hp, Option.map_none]
    rw [hheard, note?_of_idle hp answers]
    simpa [notesOf] using hf
  | some p =>
    obtain ⟨task₀, q, ht₀, hq, -, rfl⟩ := Gateway.pending?_eq hp
    rw [ht] at ht₀
    cases ht₀
    have hstep : (step g (.answer t answers)).task? t =
        some (q.resume (answers q.request) g.shared).1 := by
      simp only [step, hp]
      change Gateway.task? ⟨_, g.tasks.set t _⟩ t = _
      rw [Gateway.task?_set ht, Function.update_self]
      rfl
    have hheard : heard? t g (.answer t answers) =
        some (g.shared.now, ⟨q.request, answers q.request⟩) := by
      simp only [heard?, if_true, hp]
      rfl
    refine ⟨_, hstep, ?_⟩
    rw [hheard]
    cases hf with
    | rejected => cases hq
    | waits action admitted =>
      cases hq
      have hnote : notesOf t (note? g (.answer t answers)).toList =
          [⟨t, id, verdict (answers (question h path)), g.shared.now⟩] := by
        simp [notesOf, note?, ht, Task.resolve?, noteOf, question, Handle.place]
      rw [hnote]
      exact .answered g.shared.now _ [] admitted
        (Past.ofOperation (next_resolving_ne g.shared.writer action _ _ g.shared) _)
    | answered later answer others admitted past =>
      have hnote : note? g (.answer t answers) = none := by
        simp only [note?, ht, Option.bind_some, past.resolve?, Option.map_none]
      rw [hnote]
      exact .answered later answer _ admitted (past.next? hq _ _)

/-- Nothing that happens to others is a matter of the operation. -/
theorem task?_step_other (hw : Whole g) (ht : g.task? t = some task) {e : Event}
    (he : ∀ answers, e ≠ .answer t answers) :
    (step g e).task? t = some task ∧ heard? t g e = none ∧ notesOf t (note? g e).toList = [] := by
  by_cases hanswer : ∃ i answers, e = .answer i answers
  · obtain ⟨i, answers, rfl⟩ := hanswer
    have hit : i ≠ t := fun heq => he answers (heq ▸ rfl)
    refine ⟨?_, if_neg hit, ?_⟩
    · rcases answer_cases g i answers with hnone | ⟨other, q, hother, -, hstep⟩
      · rw [hnone]
        exact ht
      · rw [hstep, Gateway.task?_set hother, Function.update_of_ne (Ne.symm hit)]
        exact ht
    · simp only [notesOf, note?]
      cases (g.task? i).bind Task.resolve? with
      | none => rfl
      | some r => simp [noteOf, hit]
  · have hne : ∀ i answers, e ≠ .answer i answers := fun i answers heq =>
      hanswer ⟨i, answers, heq⟩
    refine ⟨(hw.adds_step hne).task? ht, ?_, ?_⟩
    · cases e with
      | answer i answers => exact absurd rfl (hne i answers)
      | _ => rfl
    · cases e with
      | answer i answers => exact absurd rfl (hne i answers)
      | _ => rfl

theorem Fate.run (hw : Whole g) (ht : g.task? t = some task)
    (hf : Fate t id h path time task replies ns) (events : List Event) :
    ∃ task', (Sharing.run g events).task? t = some task' ∧
      Fate t id h path time task' (replies ++ heard t g events)
        (ns ++ notesOf t (notes g events)) := by
  induction events generalizing g task replies ns with
  | nil =>
    refine ⟨task, ht, ?_⟩
    rw [heard, notes, notesOf, List.filter_nil, List.append_nil, List.append_nil]
    exact hf
  | cons e rest ih =>
    have hsplit : notesOf t (notes g (e :: rest)) =
        notesOf t (note? g e).toList ++ notesOf t (notes (step g e) rest) :=
      List.filter_append _ _
    rw [hsplit, heard, ← List.append_assoc, ← List.append_assoc]
    by_cases he : ∃ answers, e = .answer t answers
    · obtain ⟨answers, rfl⟩ := he
      obtain ⟨task', ht', hf'⟩ := hf.answer ht answers
      exact ih (hw.step _) ht' hf'
    · obtain ⟨ht', hheard, hnotes⟩ := task?_step_other hw ht fun answers heq => he ⟨answers, heq⟩
      rw [hheard, hnotes, Option.toList_none, List.append_nil, List.append_nil]
      exact ih (hw.step e) ht' hf

theorem run_whole (hw : Whole g) (events : List Event) : Whole (run g events) := by
  induction events generalizing g with
  | nil => exact hw
  | cons e rest ih => exact ih (hw.step e)

/-- The notes about a handle that one task alone has taken are all notes about it. -/
theorem noted_alone {p : SuspensionPolicy} (h : ∀ n ∈ ns, n.handle = id → n.task = t)
    (hown : ∀ n ∈ notesOf t ns, n.handle = id) : noted id p ns = noted id p (notesOf t ns) := by
  induction ns generalizing p with
  | nil => rfl
  | cons n ns ih =>
    have hrest : ∀ n ∈ ns, n.handle = id → n.task = t := fun m hm =>
      h m (List.mem_cons_of_mem n hm)
    by_cases htask : n.task = t
    · have hsplit : notesOf t (n :: ns) = n :: notesOf t ns := by simp [notesOf, htask]
      rw [hsplit] at hown ⊢
      exact ih hrest fun m hm => hown m (List.mem_cons_of_mem n hm)
    · have hsplit : notesOf t (n :: ns) = notesOf t ns := by simp [notesOf, htask]
      have hhandle : n.handle ≠ id := fun heq => htask (h n List.mem_cons_self heq)
      rw [hsplit] at hown ⊢
      rw [noted, List.foldl_cons, if_neg hhandle]
      exact ih hrest hown

end

/-! ## Operations in use -/

/-- A gateway after an operation has been started. -/
def started (d : Deployment) (key : ConnectionKey) (action : Action) (path : Path) (g : Gateway) :
    Gateway :=
  step g (.call (.operate d key action path) rfl)

/-- What an operation on a connection does to the health of connections: it was started in `g`, and
some events have happened since.

* `health`: the health of every connection is what the notes since then have made of it;
* `refused`, `fate`: without a handle nothing is done to any connection, and with one the operation
  has one of three fates;
* `others`: it leaves all other connections as they are when it is started, and at every answer;
* `alone`: if nobody else resolves a path on its connection, then the health of that is in the end
  what it was if the operation was rejected, and otherwise what the first answer makes of it, which
  is the answer to the one resolve of the target. -/
structure Attributed (d : Deployment) (key : ConnectionKey) (action : Action) (path : Path)
    (g : Gateway) (events : List Event) : Prop where
  health : ∀ i h, (d.provide g.shared.registry key).registry.handle? i = some h →
    ∃ h', (run (started d key action path g) events).shared.handle? i = some h' ∧
      h'.policy = noted i h.policy (notes (started d key action path g) events)
  refused : ∀ e, (d.provide g.shared.registry key).handle = .error e →
    ∀ i h, g.shared.handle? i = some h →
      (started d key action path g).shared.handle? i = some h
  fate : ∀ id, (d.provide g.shared.registry key).handle = .ok id →
    ∃ h task, (d.provide g.shared.registry key).registry.handle? id = some h ∧
      (run (started d key action path g) events).task? g.tasks.length = some task ∧
      Fate g.tasks.length id h path g.shared.now task
        (heard g.tasks.length (started d key action path g) events)
        (notesOf g.tasks.length (notes (started d key action path g) events))
  others : ∀ id, (d.provide g.shared.registry key).handle = .ok id → ∀ i h, i ≠ id →
    (g.shared.handle? i = some h → (started d key action path g).shared.handle? i = some h) ∧
    ((run (started d key action path g) events).shared.handle? i = some h →
      ∀ answers, (step (run (started d key action path g) events)
        (.answer g.tasks.length answers)).shared.handle? i = some h)
  alone : ∀ id h result, (d.provide g.shared.registry key).handle = .ok id →
    (d.provide g.shared.registry key).registry.handle? id = some h →
    (∀ n ∈ notes (started d key action path g) events,
      n.handle = id → n.task = g.tasks.length) →
    (run (started d key action path g) events).task? g.tasks.length = some (.finished result) →
    ∃ h', (run (started d key action path g) events).shared.handle? id = some h' ∧
      ((∃ deadline, Suspended h g.shared.now deadline) ∧ h'.policy = h.policy ∨
        ∃ later answer,
          (heard g.tasks.length (started d key action path g) events).head? =
            some (later, ⟨question h path, answer⟩) ∧
          h'.policy = (h.policy.ask (verdict answer) later).2)

section

variable {g : Gateway} {d : Deployment} {key : ConnectionKey} {id : HandleId}

/-- Starting an operation changes nothing but the handle it works on. -/
theorem credits_started (may : HandleId → Prop)
    (hid : (d.provide g.shared.registry key).handle = .ok id) (hmay : may id) (action : Action)
    (path : Path) : Credits may [] (d.provide g.shared.registry key).registry
      (started d key action path g).shared.registry := by
  simp only [started, step, Gateway.call, Gateway.operate, hid]
  exact credits_ofOperation hmay _ (.of_eq may (registry_operation_start action id path _))

/-- Starting an operation does nothing to health. -/
theorem health_started (d : Deployment) (key : ConnectionKey) (action : Action) (path : Path)
    (g : Gateway) : Credits (fun _ => True) [] (d.provide g.shared.registry key).registry
      (started d key action path g).shared.registry := by
  cases hid : (d.provide g.shared.registry key).handle with
  | error e =>
    simp only [started, step, Gateway.call, Gateway.operate, hid]
    exact .refl _ _
  | ok id => exact credits_started _ hid trivial action path

/-- Once it is started, an operation is rejected or waits for its path. -/
theorem fate_started {h : Handle} (hid : (d.provide g.shared.registry key).handle = .ok id)
    (hh : (d.provide g.shared.registry key).registry.handle? id = some h) (action : Action)
    (path : Path) : ∃ task, (started d key action path g).task? g.tasks.length = some task ∧
      Fate g.tasks.length id h path g.shared.now task [] [] := by
  have hprovided : Shared.handle?
      { g.shared with registry := (d.provide g.shared.registry key).registry } id = some h := hh
  simp only [started, step, Gateway.call, Gateway.operate, hid, Operation.start]
  by_cases hs : ∃ deadline, Suspended h g.shared.now deadline
  · obtain ⟨deadline, hs⟩ := hs
    rw [Traffic.start_suspended hprovided hs]
    exact ⟨_, Gateway.task?_add _ _ _, .rejected deadline hs⟩
  · have hadmitted : ∀ deadline, ¬Suspended h g.shared.now deadline := fun deadline hd =>
      hs ⟨deadline, hd⟩
    rw [Traffic.start_admitted hprovided hadmitted]
    exact ⟨_, Gateway.task?_add _ _ _, .waits action hadmitted⟩

/-- The health of a connection changes by the resolves on it alone. In every gateway in use, an
operation adds the answer of the store about its own path and nothing of what comes after it, or
nothing at all if it is rejected, and it leaves all other connections as they are. -/
theorem attributed_run (s : Shared) (before events : List Event) (d : Deployment)
    (key : ConnectionKey) (action : Action) (path : Path) :
    Attributed d key action path (run (start s) before) events := by
  have hw : Whole (run (start s) before) := run_whole (whole_start s) before
  generalize run (start s) before = g at hw
  have hstarted : Whole (started d key action path g) := hw.step _
  -- what the operation has come to, with the handle it works on
  have hfate : ∀ id, (d.provide g.shared.registry key).handle = .ok id → ∀ h,
      (d.provide g.shared.registry key).registry.handle? id = some h →
      ∃ task, (run (started d key action path g) events).task? g.tasks.length = some task ∧
        Fate g.tasks.length id h path g.shared.now task
          (heard g.tasks.length (started d key action path g) events)
          (notesOf g.tasks.length (notes (started d key action path g) events)) := by
    intro id hid h hh
    obtain ⟨task, ht, hf⟩ := fate_started hid hh action path
    exact hf.run hstarted ht events
  have hhealth := (health_started d key action path g).trans
    (credits_run (started d key action path g) events)
  constructor
  · exact hhealth.health
  · intro e he i h hh
    have hcall : (started d key action path g).shared.registry =
        (d.provide g.shared.registry key).registry := by
      simp only [started, step, Gateway.call, Gateway.operate, he]
      rfl
    have hcheckout : Credits (fun _ => False) [] g.shared.registry
        (d.provide g.shared.registry key).registry := .checkout _ d key
    rw [Shared.handle?, hcall]
    exact hcheckout.same i h id hh
  · intro id hid
    obtain ⟨h, hh⟩ := Registry.handle?_checkout hw.table hid
    obtain ⟨task, ht, hf⟩ := hfate id hid h hh
    exact ⟨h, task, hh, ht, hf⟩
  · intro id hid i h hi
    constructor
    · intro hh
      have hcheckout : Credits (· = id) [] g.shared.registry
          (d.provide g.shared.registry key).registry := .checkout _ d key
      exact (credits_started (· = id) hid rfl action path).same i h hi (hcheckout.same i h hi hh)
    · intro hh answers
      obtain ⟨handle, hhandle⟩ := Registry.handle?_checkout hw.table hid
      obtain ⟨task, ht, hf⟩ := hfate id hid handle hhandle
      have huses : ∀ task', (run (started d key action path g) events).task? g.tasks.length =
          some task' → ∀ id', task'.Uses id' → id' = id := by
        intro task' ht' id' huses
        rw [ht] at ht'
        cases ht'
        exact hf.uses huses
      exact (credits_answer _ _ answers huses).same i h hi hh
  · intro id h result hid hh hothers hended
    obtain ⟨task, ht, hf⟩ := hfate id hid h hh
    rw [hended] at ht
    cases ht
    obtain ⟨h', hh', hpolicy⟩ := hhealth.health id h hh
    refine ⟨h', hh', ?_⟩
    have hown : ∀ n ∈ notesOf g.tasks.length (notes (started d key action path g) events),
        n.handle = id := hf.handle
    rw [List.nil_append, noted_alone hothers hown] at hpolicy
    generalize notesOf g.tasks.length (notes (started d key action path g) events) = ns
      at hf hpolicy
    generalize heard g.tasks.length (started d key action path g) events = replies at hf ⊢
    cases hf with
    | rejected deadline suspended => exact .inl ⟨⟨deadline, suspended⟩, hpolicy⟩
    | answered later answer others =>
      refine .inr ⟨later, answer, rfl, ?_⟩
      rw [hpolicy]
      exact if_pos rfl

end

end Sharing

end FileGateway

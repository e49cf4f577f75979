import FileGateway.Proofs.Registry.RegistryUse
import Mathlib.Algebra.GroupWithZero.Nat
import Mathlib.Data.List.Nodup

/-!
# What becomes of handles

`RegistryUse.Kept` is what every event at a registry preserves. At its heart every handle that was
brought in is in exactly one place: it is registered, or a task is still to close it, or it was
closed. There is one lemma for each way in which handles move:

* `Kept.enters` for a handle that is registered, and `Kept.wastes` for one that is not;
* `Kept.shuts` for the handles of a namespace that is shut down;
* `Kept.closes` for a handle that was closed.

What is promised of a registry, `RegistryUse.Conserved`, follows from this, and so it holds after
everything that can happen (`RegistryUse.conserved_run`).
-/

namespace FileGateway

namespace RegistryUse

/-- What all shutdowns have evicted together, those included that are still closing it. -/
def evicted (tasks : List Task) : Nat :=
  (tasks.map Task.evictions).sum

/-- The sum of what all shutdowns have returned. -/
def returned (tasks : List Task) : Nat :=
  (tasks.map Task.returned).sum

/-- What every event preserves, of the registry, the tasks, the log and the handles that were ever
found registered.

No key is registered twice, and every handle is in exactly one place (`place`): registered, about
to be closed, or closed. The handles are those that were brought in, apart from their options, and
what was registered is so still or was evicted (`number`). -/
structure Kept (r : Registry) (tasks : List Task) (log : List Entry) (registered : List HandleId) :
    Prop where
  keys : (r.table.map Prod.fst).Nodup
  own : ∀ key id, (key, id) ∈ r.table → (r.handle? id).map Handle.key = some key
  first : ∀ key, r.lookup? key = (offers key log).getLast?
  place : ∀ id, (held r).count id + (waiting tasks).count id + (closed log).count id =
    if id < r.built.length then 1 else 0
  built : r.built.map face = (brought log).map face
  numbers : ∀ id h wanted, .brought id h wanted ∈ log → (brought log)[id]? = some h
  backends : ∀ id backend, .closed id backend ∈ log →
    (brought log)[id]?.map Handle.backend = some backend
  nodup : registered.Nodup
  found : held r ⊆ registered
  bounded : ∀ id ∈ registered, id < r.built.length
  number : registered.length = r.size + evicted tasks
  tasks : ∀ t ∈ tasks, t.Disposes

/-! ## Tasks -/

/-- One task in place of another. -/
theorem split_tasks {tasks : List Task} {i : TaskId} {t : Task} (h : tasks[i]? = some t) :
    ∃ before after, tasks = before ++ t :: after ∧
      ∀ t', tasks.set i t' = before ++ t' :: after := by
  obtain ⟨hi, ht⟩ := List.getElem?_eq_some_iff.1 h
  have hset : ∀ t', tasks.set i t' = tasks.take i ++ t' :: tasks.drop (i + 1) := by
    intro t'
    rw [List.set_eq_take_append_cons_drop, if_pos hi]
  refine ⟨tasks.take i, tasks.drop (i + 1), ?_, hset⟩
  rw [← hset t, ← ht, List.set_getElem_self]

/-! ## What every event preserves -/

section

variable {r r' : Registry} {tasks : List Task} {log : List Entry} {registered : List HandleId}

theorem kept_empty : Kept .empty [] [] [] := by
  constructor
  · exact List.nodup_nil
  · intro key id hmem
    cases hmem
  · intro key
    rfl
  · intro id
    rfl
  · rfl
  · intro id h wanted hmem
    cases hmem
  · intro id backend hmem
    cases hmem
  · exact List.nodup_nil
  · intro id hid
    cases hid
  · intro id hid
    cases hid
  · rfl
  · intro t ht
    cases ht

theorem face_handle? (h : r'.built.map face = r.built.map face) (id : HandleId) :
    (r'.handle? id).map face = (r.handle? id).map face := by
  rw [Registry.handle?, Registry.handle?, ← List.getElem?_map, ← List.getElem?_map, h]

theorem key_handle? (h : r'.built.map face = r.built.map face) (id : HandleId) :
    (r'.handle? id).map Handle.key = (r.handle? id).map Handle.key := by
  have hface := congrArg (Option.map Prod.fst) (face_handle? h id)
  simpa only [Option.map_map, Function.comp_def, face] using hface

theorem Kept.length_eq (h : Kept r tasks log registered) :
    (brought log).length = r.built.length := by
  have hlength := congrArg List.length h.built
  simpa using hlength.symm

/-- Handles are looked at, or get their options back. -/
theorem Kept.passes (h : Kept r tasks log registered) (htable : r'.table = r.table)
    (hbuilt : r'.built.map face = r.built.map face) : Kept r' tasks log registered := by
  have hlength : r'.built.length = r.built.length := by
    simpa using congrArg List.length hbuilt
  have hheld : held r' = held r := congrArg (List.map Prod.snd) htable
  constructor
  · rw [htable]
    exact h.keys
  · intro key id hmem
    rw [htable] at hmem
    exact (key_handle? hbuilt id).trans (h.own key id hmem)
  · intro key
    rw [Registry.lookup?, htable]
    exact h.first key
  · intro id
    rw [hheld, hlength]
    exact h.place id
  · exact hbuilt.trans h.built
  · exact h.numbers
  · exact h.backends
  · exact h.nodup
  · rw [hheld]
    exact h.found
  · rw [hlength]
    exact h.bounded
  · rw [Registry.size, htable]
    exact h.number
  · exact h.tasks

/-- A handle is brought in: it gets the next number. -/
theorem Kept.brings (h : Kept r tasks log registered) (new : Handle) (wanted : ConnectionKey) :
    ((r.built ++ [new]).map face =
      (brought (.brought r.built.length new wanted :: log)).map face) ∧
    (∀ id h' w, .brought id h' w ∈ .brought r.built.length new wanted :: log →
      (brought (.brought r.built.length new wanted :: log))[id]? = some h') ∧
    ∀ id backend, .closed id backend ∈ .brought r.built.length new wanted :: log →
      (brought (.brought r.built.length new wanted :: log))[id]?.map Handle.backend =
        some backend := by
  have hkeeps : ∀ {id h'}, (brought log)[id]? = some h' →
      (brought log ++ [new])[id]? = some h' := fun hid =>
    (List.getElem?_append_left (List.getElem?_eq_some_iff.1 hid).1).trans hid
  rw [brought_cons]
  refine ⟨?_, fun id h' w hmem => ?_, fun id backend hmem => ?_⟩
  · rw [List.map_append, List.map_append, h.built]
  · cases hmem with
    | head => rw [← h.length_eq, List.getElem?_concat_length]
    | tail _ hmem => exact hkeeps (h.numbers id h' w hmem)
  · cases hmem with
    | tail _ hmem =>
      obtain ⟨h', hh', hbackend⟩ := Option.map_eq_some_iff.1 (h.backends id backend hmem)
      rw [hkeeps hh', Option.map_some, hbackend]

/-- The handles that were there keep their keys when another is built. -/
theorem Kept.own_concat (h : Kept r tasks log registered) (new : Handle) {key : ConnectionKey}
    {id : HandleId} (hmem : (key, id) ∈ r.table) :
    ((r.build new).2.handle? id).map Handle.key = some key := by
  have hown := h.own key id hmem
  obtain ⟨h', hh', -⟩ := Option.map_eq_some_iff.1 hown
  change ((r.built ++ [new])[id]?).map Handle.key = some key
  rw [List.getElem?_append_left (List.getElem?_eq_some_iff.1 hh').1]
  exact hown

theorem place_succ (n id : Nat) :
    (if id < n + 1 then 1 else 0) = (if id < n then 1 else 0) + if n = id then 1 else 0 := by
  split <;> split <;> split <;> omega

/-- The first handle for its key is registered. -/
theorem Kept.enters (h : Kept r tasks log registered) (new : Handle)
    (habsent : r.lookup? new.key = none) :
    Kept ((r.build new).2.enter new.key r.built.length) tasks
      (.brought r.built.length new new.key :: log) (registered ++ [r.built.length]) := by
  obtain ⟨hbuilt, hnumbers, hbackends⟩ := h.brings new new.key
  have hheld : held ((r.build new).2.enter new.key r.built.length) = held r ++ [r.built.length] :=
    List.map_append
  have hlength : ((r.build new).2.enter new.key r.built.length).built.length =
      r.built.length + 1 := List.length_append
  constructor
  · change ((r.table ++ [(new.key, r.built.length)]).map Prod.fst).Nodup
    rw [List.map_append]
    exact List.concat_eq_append ▸ List.Nodup.concat (not_mem_of_lookup_eq_none habsent) h.keys
  · intro key id hmem
    rcases List.mem_append.1 hmem with hmem | hmem
    · exact h.own_concat new hmem
    · cases List.mem_singleton.1 hmem
      change ((r.built ++ [new])[r.built.length]?).map Handle.key = some new.key
      rw [List.getElem?_concat_length, Option.map_some]
  · intro key
    have hbuild : (r.build new).2.lookup? key = r.lookup? key := rfl
    rw [lookup_enter, hbuild, offers_brought]
    by_cases hkey : key = new.key
    · subst hkey
      rw [h.first] at habsent ⊢
      simp [habsent, List.getLast?_cons]
    · have hkey' : ¬ (new.key = key ∧ new.key = key) := fun heq => hkey heq.1.symm
      rw [if_neg hkey, if_neg hkey', Option.or_none, h.first]
  · intro id
    have hplace := h.place id
    have hclosed : closed (.brought r.built.length new new.key :: log) = closed log := rfl
    rw [hheld, hlength, hclosed, place_succ, List.count_append, List.count_singleton, ← hplace]
    simp only [beq_iff_eq]
    omega
  · exact hbuilt
  · exact hnumbers
  · exact hbackends
  · have hnew : r.built.length ∉ registered := fun hmem => Nat.lt_irrefl _ (h.bounded _ hmem)
    exact List.concat_eq_append ▸ List.Nodup.concat hnew h.nodup
  · rw [hheld]
    exact List.append_subset.2 ⟨List.Subset.trans h.found (List.subset_append_left _ _),
      List.subset_append_right _ _⟩
  · intro id hid
    rw [hlength]
    rcases List.mem_append.1 hid with hid | hid
    · exact Nat.lt_succ_of_lt (h.bounded id hid)
    · rw [List.mem_singleton.1 hid]
      exact Nat.lt_succ_self _
  · have hsize : ((r.build new).2.enter new.key r.built.length).size = r.size + 1 :=
      List.length_append
    rw [List.length_append, h.number, hsize, List.length_singleton]
    omega
  · exact h.tasks

/-- A handle that is brought in vain is to be closed. -/
theorem Kept.wastes (h : Kept r tasks log registered) (new : Handle) (wanted : ConnectionKey)
    (hrefused : new.key ≠ wanted ∨ r.lookup? wanted ≠ none) :
    Kept (r.build new).2 (tasks ++ [.closing r.built.length true])
      (.brought r.built.length new wanted :: log) registered := by
  obtain ⟨hbuilt, hnumbers, hbackends⟩ := h.brings new wanted
  have hlength : (r.build new).2.built.length = r.built.length + 1 := List.length_append
  constructor
  · exact h.keys
  · exact fun key id hmem => h.own_concat new hmem
  · intro key
    refine (h.first key).trans ?_
    rw [offers_brought]
    split
    · next hkey =>
      -- it is offered for its own key, but an earlier one is registered
      obtain ⟨rfl, rfl⟩ := hkey
      obtain ⟨id, hid⟩ := Option.ne_none_iff_exists'.1 (hrefused.resolve_left fun hne => hne rfl)
      rw [h.first] at hid
      rw [List.getLast?_cons, hid]
      rfl
    · rfl
  · intro id
    have hplace := h.place id
    have hclosed : closed (.brought r.built.length new wanted :: log) = closed log := rfl
    have hheld : held (r.build new).2 = held r := rfl
    have hwaiting : waiting (tasks ++ [.closing r.built.length true]) =
        waiting tasks ++ [r.built.length] := List.flatMap_append
    rw [hheld, hwaiting, hclosed, hlength, place_succ, List.count_append, List.count_singleton,
      ← hplace]
    simp only [beq_iff_eq]
    omega
  · exact hbuilt
  · exact hnumbers
  · exact hbackends
  · exact h.nodup
  · exact h.found
  · intro id hid
    rw [hlength]
    exact Nat.lt_succ_of_lt (h.bounded id hid)
  · refine h.number.trans ?_
    simp [evicted, Task.evictions, Registry.size, Registry.build]
  · intro t ht
    rcases List.mem_append.1 ht with ht | ht
    · exact h.tasks t ht
    · rw [List.mem_singleton.1 ht]
      exact .closing _

theorem toClose_ofEvicted (count : Nat) (ids : List HandleId) :
    (Task.ofEvicted count ids).toClose = ids := by
  cases ids <;> rfl

theorem evictions_ofEvicted (count : Nat) (ids : List HandleId) :
    (Task.ofEvicted count ids).evictions = count := by
  cases ids <;> rfl

theorem disposes_ofEvicted (count : Nat) (ids : List HandleId) :
    (Task.ofEvicted count ids).Disposes := by
  cases ids with
  | nil => exact .evicted count
  | cons id rest => exact .evicting id rest count

/-- A namespace is shut down: its handles are to be closed. -/
theorem Kept.shuts (h : Kept r tasks log registered) (space : String) :
    Kept (r.evict space).2
      (tasks ++ [.ofEvicted (r.evict space).1.length (r.evict space).1])
      (.shut space :: log) registered := by
  have hperm := perm_evict r space
  have hbuilt : (r.evict space).2.built = r.built := by rw [evict_eq]
  have hsub : ∀ entry ∈ (r.evict space).2.table, entry ∈ r.table := by
    rw [evict_eq]
    exact fun entry hentry => List.mem_of_mem_filter hentry
  constructor
  · rw [evict_eq]
    exact h.keys.sublist (List.filter_sublist.map Prod.fst)
  · intro key id hmem
    rw [Registry.handle?, hbuilt]
    exact h.own key id (hsub _ hmem)
  · intro key
    rw [lookup_evict, offers_shut]
    split
    · rfl
    · exact h.first key
  · intro id
    have hplace := h.place id
    have hclosed : closed (.shut space :: log) = closed log := rfl
    have hcount : ((r.evict space).1 ++ held (r.evict space).2).count id = (held r).count id :=
      hperm.count_eq id
    have hwaiting : waiting (tasks ++ [.ofEvicted (r.evict space).1.length (r.evict space).1]) =
        waiting tasks ++ (r.evict space).1 := by
      simp [waiting, toClose_ofEvicted]
    rw [List.count_append] at hcount
    rw [hclosed, hwaiting, hbuilt, List.count_append]
    omega
  · rw [hbuilt]
    exact h.built
  · intro id h' wanted hmem
    cases hmem with
    | tail _ hmem => exact h.numbers id h' wanted hmem
  · intro id backend hmem
    cases hmem with
    | tail _ hmem => exact h.backends id backend hmem
  · exact h.nodup
  · intro id hid
    exact h.found (hperm.subset (List.mem_append_right _ hid))
  · rw [hbuilt]
    exact h.bounded
  · have hlength : (r.evict space).1.length + (r.evict space).2.size = r.size := by
      simpa [Registry.size] using hperm.length_eq
    have hnumber := h.number
    simp only [evicted, List.map_append, List.map_cons, List.map_nil, List.sum_append,
      List.sum_cons, List.sum_nil, evictions_ofEvicted] at hnumber ⊢
    omega
  · intro t ht
    rcases List.mem_append.1 ht with ht | ht
    · exact h.tasks t ht
    · rw [List.mem_singleton.1 ht]
      exact disposes_ofEvicted _ _

/-- A task that is to close a handle asks the store of that handle. -/
theorem Kept.backend_of_waiting {s : Shared} (h : Kept s.registry tasks log registered) {i : TaskId}
    {t : Task} {id : HandleId} {rest : List HandleId} (ht : tasks[i]? = some t)
    (hclose : t.toClose = id :: rest) :
    (s.registry.handle? id).map Handle.backend = some (Task.backendOf s id) := by
  have hwaits : id ∈ waiting tasks :=
    List.mem_flatMap.2 ⟨t, List.mem_of_getElem? ht, hclose ▸ List.mem_cons_self⟩
  have hid : id < s.registry.built.length := by
    by_contra hid
    have hplace := h.place id
    have hpos := List.count_pos_iff.2 hwaits
    rw [if_neg hid] at hplace
    omega
  rw [Task.backendOf, Shared.handle?, Registry.handle?, List.getElem?_eq_getElem hid]
  rfl

/-- The store of a handle is closed, whatever it answers. -/
theorem Kept.closes (h : Kept r tasks log registered) {i : TaskId} {t t' : Task} {id : HandleId}
    {rest : List HandleId} {backend : Backend} (ht : tasks[i]? = some t)
    (hclose : t.toClose = id :: rest) (hrest : t'.toClose = rest)
    (hcount : t'.evictions = t.evictions) (ht' : t'.Disposes)
    (hbackend : (r.handle? id).map Handle.backend = some backend) :
    Kept r (tasks.set i t') (.closed id backend :: log) registered := by
  obtain ⟨before, after, htasks, hset⟩ := split_tasks ht
  rw [hset]
  constructor
  · exact h.keys
  · exact h.own
  · exact h.first
  · intro id'
    have hplace := h.place id'
    have hclosed : closed (.closed id backend :: log) = id :: closed log := rfl
    rw [htasks] at hplace
    simp only [hclosed, waiting, List.flatMap_append, List.flatMap_cons, hclose, hrest,
      List.count_append, List.count_cons] at hplace ⊢
    omega
  · exact h.built
  · intro id' h' wanted hmem
    cases hmem with
    | tail _ hmem => exact h.numbers id' h' wanted hmem
  · intro id' backend' hmem
    cases hmem with
    | head =>
      have hbuilt := congrArg (fun faces => (faces[id]?).map Prod.snd) h.built
      simp only [List.getElem?_map, Option.map_map, Function.comp_def, face] at hbuilt
      exact hbuilt.symm.trans hbackend
    | tail _ hmem => exact h.backends id' backend' hmem
  · exact h.nodup
  · exact h.found
  · exact h.bounded
  · rw [h.number, htasks]
    simp [evicted, hcount]
  · intro t₁ ht₁
    rcases List.mem_append.1 ht₁ with hmem | hmem
    · exact h.tasks t₁ (htasks ▸ List.mem_append_left _ hmem)
    · cases hmem with
      | head => exact ht'
      | tail _ hmem =>
        exact h.tasks t₁ (htasks ▸ List.mem_append_right _ (List.mem_cons_of_mem _ hmem))

end

/-! ## Steps and runs -/

variable {c : RegistryUse}

/-- The conservation is kept up, and nothing is found registered that was not before. -/
theorem kept_note {g : Gateway} {entries : List Entry}
    (h : Kept g.shared.registry g.tasks (entries ++ c.log) c.registered) :
    Kept (c.note g entries).registry (c.note g entries).gateway.tasks (c.note g entries).log
      (c.note g entries).registered := by
  have hnone : (held g.shared.registry).filter (· ∉ c.registered) = [] :=
    List.filter_eq_nil_iff.2 fun id hid => by simpa using h.found hid
  rw [note, hnone, List.append_nil]
  exact h

/-- What comes of the wish to have a handle. -/
theorem kept_comes (h : Kept c.registry c.gateway.tasks c.log c.registered)
    {wanted : ConnectionKey} {new : Option Handle} {creation : Registry.Creation}
    (hc : Comes c.registry wanted new creation) {c' : RegistryUse}
    (hc' : c' = c.note (c.gateway.create creation).2 (entries c.registry wanted new)) :
    Kept c'.registry c'.gateway.tasks c'.log c'.registered := by
  subst hc'
  cases hc with
  | nothing handle => exact kept_note h
  | first new own absent =>
    subst own
    have hnew : c.registry.built.length ∉ c.registered := fun hmem =>
      Nat.lt_irrefl _ (h.bounded _ hmem)
    have hold : (held c.registry).filter (· ∉ c.registered) = [] :=
      List.filter_eq_nil_iff.2 fun id hid => by simpa using h.found hid
    have hheld : held ((c.registry.build new).2.enter new.key c.registry.built.length) =
        held c.registry ++ [c.registry.built.length] := List.map_append
    -- the new handle is the only one that was never found registered before
    have hnote : (held ((c.registry.build new).2.enter new.key c.registry.built.length)).filter
        (· ∉ c.registered) = [c.registry.built.length] := by
      rw [hheld, List.filter_append, hold]
      simp [hnew]
    have henters := h.enters new absent
    rw [← hnote] at henters
    exact henters
  | vain new handle refused => exact kept_note (h.wastes new wanted refused)

/-- What is noted when the close is answered that a task was waiting for. -/
theorem closes_eq {g : Gateway} {i : TaskId} {t : Task} {id : HandleId} {rest : List HandleId}
    (hdisposes : t.Disposes) (ht : g.task? i = some t) (hclose : t.toClose = id :: rest)
    (backend : Backend) : closes g i (.store backend .close) = [.closed id backend] := by
  simp only [closes, ht]
  cases hdisposes with
  | closing id =>
    cases hclose
    rfl
  | evicting id rest count =>
    cases hclose
    rfl
  | closed result => cases hclose
  | evicted count => cases hclose

/-- A store answers what a task has asked for. -/
theorem kept_answer (h : Kept c.registry c.gateway.tasks c.log c.registered) (i : TaskId)
    (answers : (request : Request) → request.Answer) :
    Kept (c.step (.answer i answers)).registry (c.step (.answer i answers)).gateway.tasks
      (c.step (.answer i answers)).log (c.step (.answer i answers)).registered := by
  simp only [step, act]
  cases hp : c.gateway.pending? i with
  | none => exact kept_note h
  | some p =>
    obtain ⟨t, q, ht, hq, -, rfl⟩ := Gateway.pending?_eq hp
    have hdisposes := h.tasks t (List.mem_of_getElem? ht)
    obtain ⟨id, rest, hclose, hrequest, hgoes⟩ := hdisposes.goes hq
    obtain ⟨t', hgo, ht', hrest, hcount⟩ := hgoes (answers q.request) c.gateway.shared
    have hkept := h.closes ht hclose hrest hcount ht' (h.backend_of_waiting ht hclose)
    refine kept_note ?_
    simp only [Pending.map, hgo]
    rw [hrequest, closes_eq hdisposes ht hclose]
    exact hkept

theorem giveBack_faces (r : Registry) (id : HandleId) :
    (r.giveBack id).built.map face = r.built.map face := by
  have hreset : ∀ h : Handle, face h.reset.2 = face h := by
    intro h
    rw [Handle.reset]
    split <;> rfl
  refine List.ext_getElem? fun n => ?_
  rw [Registry.giveBack, Registry.modify, List.getElem?_map, List.getElem?_map,
    List.getElem?_modify]
  cases r.built[n]? with
  | none => rfl
  | some h =>
    by_cases hn : id = n
    · simp [hn, hreset]
    · simp [hn]

/-- Whatever happens, the conservation is kept up. -/
theorem kept_step (h : Kept c.registry c.gateway.tasks c.log c.registered) (e : Event) :
    Kept (c.step e).registry (c.step e).gateway.tasks (c.step e).log (c.step e).registered := by
  cases e with
  | create new => exact kept_comes h (comes_add c.registry new) rfl
  | get key => exact kept_note h
  | provide key make =>
    obtain ⟨new, hc, hmade⟩ := comes_provide c.registry key make
    refine kept_comes h hc ?_
    rw [step, act, hmade]
  | giveBack id => exact kept_note (h.passes rfl (giveBack_faces c.registry id))
  | keys space => exact kept_note h
  | shutdown space => exact kept_note (h.shuts space)
  | answer i answers => exact kept_answer h i answers

theorem kept_run (s : Shared) (events : List Event) :
    Kept ((start s).run events).registry ((start s).run events).gateway.tasks
      ((start s).run events).log ((start s).run events).registered := by
  suffices hrun : ∀ c : RegistryUse, Kept c.registry c.gateway.tasks c.log c.registered →
      Kept (c.run events).registry (c.run events).gateway.tasks (c.run events).log
        (c.run events).registered from hrun _ kept_empty
  induction events with
  | nil => exact fun c hc => hc
  | cons e rest ih => exact fun c hc => ih (c.step e) (kept_step hc e)

/-! ## What follows -/

/-- All closes have run, and every shutdown has returned. -/
def Quiet (tasks : List Task) : Prop :=
  ∀ t ∈ tasks, ∃ result, t = .finished result

/-- What is promised of a registry, its handles and those who close them. -/
structure Conserved (c : RegistryUse) : Prop where
  -- each key has at most one handle, which is the first that was offered for it since its
  -- namespace was last shut down
  keys : (c.registry.table.map Prod.fst).Nodup
  own : ∀ key id, c.registry.lookup? key = some id →
    ∃ h, c.registry.handle? id = some h ∧ h.key = key
  first : ∀ key, c.registry.lookup? key = (offers key c.log).getLast?
  -- it stays the same until that happens again, however another one would be made; and where
  -- making one fails, the table stays as it is
  stays : ∀ e key id, c.registry.lookup? key = some id →
    (∀ space, e = .shutdown space → space ≠ key.space) →
      (c.step e).registry.lookup? key = some id
  leaves : ∀ key, (c.step (.shutdown key.space)).registry.lookup? key = none
  unmade : ∀ key id make, c.registry.lookup? key = some id →
    c.registry.provide key make = { registry := c.registry, handle := .ok id }
  refused : ∀ key make, (∀ h, make () = .ok h → h.key ≠ key) →
    (c.step (.provide key make)).registry.table = c.registry.table
  -- the handles are those that were brought in, by number, apart from their options
  built : c.registry.built.map face = (brought c.log).map face
  numbers : ∀ id h wanted, .brought id h wanted ∈ c.log → (brought c.log)[id]? = some h
  -- a handle is closed through its own store, never twice, and not while it is registered
  backends : ∀ id backend, .closed id backend ∈ c.log →
    (brought c.log)[id]?.map Handle.backend = some backend
  once : ∀ id, (closed c.log).count id ≤ 1
  kept : ∀ key id, c.registry.lookup? key = some id →
    id ∉ closed c.log ∧ id ∉ waiting c.gateway.tasks
  registered : c.registered.Nodup ∧ held c.registry ⊆ c.registered
  -- when all is done, every handle that was brought in is registered or was closed once, and
  -- the shutdowns have returned as many as were registered and are not any more
  disposed : Quiet c.gateway.tasks → ∀ id < (brought c.log).length,
    (id ∈ held c.registry ∧ (closed c.log).count id = 0) ∨
      (id ∉ held c.registry ∧ (closed c.log).count id = 1)
  balance : Quiet c.gateway.tasks →
    returned c.gateway.tasks + c.registry.size = c.registered.length

theorem create_registry (g : Gateway) (creation : Registry.Creation) :
    (g.create creation).2.shared.registry = creation.registry := by
  rw [Gateway.create]
  split <;> rfl

theorem Comes.lookup {r : Registry} {wanted key : ConnectionKey} {new : Option Handle}
    {creation : Registry.Creation} {id : HandleId} (hc : Comes r wanted new creation)
    (h : r.lookup? key = some id) : creation.registry.lookup? key = some id := by
  cases hc with
  | nothing handle => exact h
  | first new own absent =>
    have hbuild : (r.build new).2.lookup? key = r.lookup? key := rfl
    rw [lookup_enter, hbuild, h, Option.some_or]
  | vain new handle refused => exact h

/-- A task that closes handles leaves the registry as it is. -/
theorem registry_answer (h : Kept c.registry c.gateway.tasks c.log c.registered) (i : TaskId)
    (answers : (request : Request) → request.Answer) :
    (c.step (.answer i answers)).registry = c.registry := by
  simp only [step, act]
  cases hp : c.gateway.pending? i with
  | none => rfl
  | some p =>
    obtain ⟨t, q, ht, hq, -, rfl⟩ := Gateway.pending?_eq hp
    obtain ⟨id, rest, -, -, hgoes⟩ := (h.tasks t (List.mem_of_getElem? ht)).goes hq
    obtain ⟨t', hgo, -⟩ := hgoes (answers q.request) c.gateway.shared
    simp only [note, registry, Pending.map, hgo]

theorem stays_of_kept (h : Kept c.registry c.gateway.tasks c.log c.registered) (e : Event)
    {key : ConnectionKey} {id : HandleId} (hid : c.registry.lookup? key = some id)
    (hspace : ∀ space, e = .shutdown space → space ≠ key.space) :
    (c.step e).registry.lookup? key = some id := by
  cases e with
  | create new =>
    have hregistry : (c.step (.create new)).registry = (c.registry.add new).registry :=
      create_registry _ _
    rw [hregistry]
    exact (comes_add c.registry new).lookup hid
  | get key => exact hid
  | provide wanted make =>
    have hregistry : (c.step (.provide wanted make)).registry =
        (c.registry.provide wanted make).registry := create_registry _ _
    obtain ⟨new, hc, -⟩ := comes_provide c.registry wanted make
    rw [hregistry]
    exact hc.lookup hid
  | giveBack id' => exact hid
  | keys space => exact hid
  | shutdown space =>
    refine (lookup_evict c.registry space key).trans ?_
    rw [if_neg fun heq => hspace space rfl heq.symm]
    exact hid
  | answer i answers =>
    rw [registry_answer h]
    exact hid

theorem waiting_of_quiet {tasks : List Task} (h : Quiet tasks) : waiting tasks = [] := by
  refine List.flatMap_eq_nil_iff.2 fun t ht => ?_
  obtain ⟨result, rfl⟩ := h t ht
  rfl

theorem evicted_of_quiet {tasks : List Task} (h : Quiet tasks) :
    evicted tasks = returned tasks := by
  rw [evicted, returned]
  refine congrArg List.sum (List.map_congr_left fun t ht => ?_)
  obtain ⟨result, rfl⟩ := h t ht
  cases result <;> rfl

/-- What is promised follows from what is preserved. -/
theorem Kept.conserved (h : Kept c.registry c.gateway.tasks c.log c.registered) : Conserved c := by
  constructor
  · exact h.keys
  · intro key id hid
    exact Option.map_eq_some_iff.1 (h.own key id (mem_of_lookup_eq_some hid))
  · exact h.first
  · exact fun e key id hid hspace => stays_of_kept h e hid hspace
  · intro key
    exact (lookup_evict c.registry key.space key).trans (if_pos rfl)
  · intro key id make hid
    rw [Registry.provide, hid]
  · intro key make hmake
    have hregistry : (c.step (.provide key make)).registry =
        (c.registry.provide key make).registry := create_registry _ _
    rw [hregistry, Registry.provide]
    split
    · rfl
    · split
      · rfl
      · next new hnew => simp [hmake new hnew, Registry.build]
  · exact h.built
  · exact h.numbers
  · exact h.backends
  · intro id
    have hplace := h.place id
    split at hplace <;> omega
  · intro key id hid
    have hheld : id ∈ held c.registry :=
      List.mem_map.2 ⟨(key, id), mem_of_lookup_eq_some hid, rfl⟩
    have hplace := h.place id
    have hpos := List.count_pos_iff.2 hheld
    refine ⟨List.count_eq_zero.1 ?_, List.count_eq_zero.1 ?_⟩ <;> split at hplace <;> omega
  · exact ⟨h.nodup, h.found⟩
  · intro hquiet id hid
    have hplace := h.place id
    rw [waiting_of_quiet hquiet, List.count_nil, if_pos (h.length_eq ▸ hid)] at hplace
    by_cases hheld : id ∈ held c.registry
    · have hpos := List.count_pos_iff.2 hheld
      exact Or.inl ⟨hheld, by omega⟩
    · have hzero := List.count_eq_zero.2 hheld
      exact Or.inr ⟨hheld, by omega⟩
  · intro hquiet
    rw [h.number, evicted_of_quiet hquiet]
    exact Nat.add_comm _ _

/-- However a registry is used, however its shutdowns overlap and whatever the stores answer: no
handle is lost and none is closed that is in use. -/
theorem conserved_run (s : Shared) (events : List Event) : Conserved ((start s).run events) :=
  (kept_run s events).conserved

end RegistryUse

end FileGateway

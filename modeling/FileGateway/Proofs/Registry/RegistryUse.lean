import FileGateway.Proofs.Gateway.Calls

/-!
# A registry in use

A registry is used by any number of callers: they bring handles in or have them made, look handles
up, give them back and shut namespaces down. A shutdown closes the handles it has evicted one after
the other, and a handle that was brought in vain is closed in the background; other calls come
between any two of these closes, and each close may fail.

A `RegistryUse` is a gateway whose registry is used so, with a log of what was brought in, shut down
and closed, and with the handles that were ever found registered.
-/

namespace FileGateway

/-- The handles whose stores a task is still to close. -/
def Task.toClose : Task → List HandleId
  | closing id _ => [id]
  | evicting id rest _ => id :: rest
  | _ => []

/-- How many handles a shutdown has evicted. -/
def Task.evictions : Task → Nat
  | evicting _ _ count => count
  | finished (.evicted count) => count
  | _ => 0

/-- What a shutdown that has returned says it has closed. -/
def Task.returned : Task → Nat
  | finished (.evicted count) => count
  | _ => 0

/-- The tasks that close handles, and what they end as. -/
inductive Task.Disposes : Task → Prop where
  | closing (id : HandleId) : Disposes (.closing id true)
  | evicting (id : HandleId) (rest : List HandleId) (count : Nat) :
    Disposes (.evicting id rest count)
  | closed (result : Result Unit) : Disposes (.finished (.closed result))
  | evicted (count : Nat) : Disposes (.finished (.evicted count))

/-- A task that closes handles closes the first of those it is to close, and then is to close the
rest. -/
theorem Task.Disposes.goes {t : Task} {s : Shared} {q : Pending (Shared → Task × Shared)}
    (ht : t.Disposes) (hq : t.next? s = some q) :
    ∃ id rest, t.toClose = id :: rest ∧ q.request = .store (Task.backendOf s id) .close ∧
      ∀ answer s', ∃ t', q.resume answer s' = (t', s') ∧ t'.Disposes ∧ t'.toClose = rest ∧
        t'.evictions = t.evictions := by
  cases ht with
  | closing id =>
    cases hq
    exact ⟨id, [], rfl, rfl, fun answer s' => ⟨_, rfl, .closed _, rfl, rfl⟩⟩
  | evicting id rest count =>
    cases hq
    refine ⟨id, rest, rfl, rfl, fun answer s' => ?_⟩
    cases rest with
    | nil => exact ⟨_, rfl, .evicted _, rfl, rfl⟩
    | cons next rest => exact ⟨_, rfl, .evicting _ _ _, rfl, rfl⟩
  | closed result => cases hq
  | evicted count => cases hq

/-- What has passed at a registry: a handle was brought in for a key, whether a caller gave it or
had it made; a namespace was shut down; the store of a handle was asked to close, and has
answered. -/
inductive RegistryUse.Entry where
  | brought (id : HandleId) (h : Handle) (wanted : ConnectionKey)
  | shut (space : String)
  | closed (id : HandleId) (backend : Backend)

/-- A gateway whose registry is in use. The log is what has passed so far, the latest first, and
`registered` are the handles that were ever found registered after an event. -/
structure RegistryUse where
  gateway : Gateway
  log : List RegistryUse.Entry
  registered : List HandleId

namespace RegistryUse

/-- A registry that has no connections yet, in any gateway. -/
def start (s : Shared) : RegistryUse :=
  ⟨⟨{ s with registry := .empty }, []⟩, [], []⟩

/-- What can happen at a registry. A store answers what a task has asked for, whatever the answer
is. -/
inductive Event where
  | create (h : Handle)
  | get (key : ConnectionKey)
  | provide (key : ConnectionKey) (make : Unit → Except Error Handle)
  | giveBack (id : HandleId)
  | keys (space : String)
  | shutdown (space : String)
  | answer (id : TaskId) (answers : (request : Request) → request.Answer)

/-- The registry. -/
def registry (c : RegistryUse) : Registry :=
  c.gateway.shared.registry

/-- The registered handles. -/
def held (r : Registry) : List HandleId :=
  r.table.map Prod.snd

/-- What was brought in for a key by having it made, if it was made at all. -/
def made (r : Registry) (key : ConnectionKey) (make : Unit → Except Error Handle) : List Entry :=
  if r.contains key then []
  else
    match make () with
    | .ok h => [.brought r.built.length h key]
    | .error _ => []

/-- The close that a task was waiting for, if it was. -/
def closes (g : Gateway) (id : TaskId) : Request → List Entry
  | .store backend .close =>
    match g.task? id with
    | some (.closing h _) => [.closed h backend]
    | some (.evicting h _ _) => [.closed h backend]
    | _ => []
  | _ => []

/-- What an event makes of the gateway, and what is noted of it. -/
def act (c : RegistryUse) : Event → Gateway × List Entry
  | .create h =>
    ((c.gateway.create (c.registry.add h)).2, [.brought c.registry.built.length h h.key])
  | .get _ => (c.gateway, [])
  | .provide key make =>
    ((c.gateway.create (c.registry.provide key make)).2, made c.registry key make)
  | .giveBack id =>
    ({ c.gateway with
      shared := { c.gateway.shared with registry := c.registry.giveBack id } }, [])
  | .keys _ => (c.gateway, [])
  | .shutdown space => ((c.gateway.shutdown space).2, [.shut space])
  | .answer id answers =>
    match c.gateway.pending? id with
    | none => (c.gateway, [])
    | some p => (p.resume (answers p.request), closes c.gateway id p.request)

/-- Notes what has passed, and which handles are found registered. -/
def note (c : RegistryUse) (g : Gateway) (entries : List Entry) : RegistryUse :=
  ⟨g, entries ++ c.log, c.registered ++ (held g.shared.registry).filter (· ∉ c.registered)⟩

/-- What an event makes of the use of a registry. -/
def step (c : RegistryUse) (e : Event) : RegistryUse :=
  c.note (c.act e).1 (c.act e).2

/-- What a sequence of events makes of the use of a registry. -/
def run (c : RegistryUse) (events : List Event) : RegistryUse :=
  events.foldl step c

/-! ## What the log tells -/

/-- The handle that an entry offers for a key: one that was brought in for the key, and is its
own. -/
def Entry.offer? (key : ConnectionKey) : Entry → Option HandleId
  | brought id h wanted => if h.key = key ∧ wanted = key then some id else none
  | _ => none

/-- Whether an entry says that a namespace was shut down. -/
def Entry.shuts (space : String) : Entry → Bool
  | shut gone => gone == space
  | _ => false

/-- The handle that an entry says was closed. -/
def Entry.closed? : Entry → Option HandleId
  | closed id _ => some id
  | _ => none

/-- The handle that an entry says was brought in. -/
def Entry.brought? : Entry → Option Handle
  | brought _ h _ => some h
  | _ => none

/-- The handles that were offered for a key since its namespace was last shut down, the latest
first. -/
def offers (key : ConnectionKey) (log : List Entry) : List HandleId :=
  (log.takeWhile fun entry => !entry.shuts key.space).filterMap (Entry.offer? key)

/-- The handles that were closed. -/
def closed (log : List Entry) : List HandleId :=
  log.filterMap Entry.closed?

/-- The handles that were brought in, in the order of their numbers. -/
def brought (log : List Entry) : List Handle :=
  (log.filterMap Entry.brought?).reverse

/-- The handles that tasks are still to close. -/
def waiting (tasks : List Task) : List HandleId :=
  tasks.flatMap Task.toClose

/-- What a handle is built with and never loses. -/
def face (h : Handle) : ConnectionKey × Backend :=
  (h.key, h.backend)

/-! ## Tables -/

theorem lookup_enter (r : Registry) (key : ConnectionKey) (id : HandleId) (k : ConnectionKey) :
    (r.enter key id).lookup? k = (r.lookup? k).or (if k = key then some id else none) := by
  rw [Registry.lookup?, Registry.enter, List.lookup_append]
  by_cases hk : k = key
  · simp [Registry.lookup?, hk]
  · have hk' : (k == key) = false := beq_false_of_ne hk
    simp [Registry.lookup?, List.lookup_cons, hk, hk']

theorem evict_eq (r : Registry) (space : String) :
    r.evict space = ((r.table.filter fun entry => entry.1.space == space).map Prod.snd,
      { r with table := r.table.filter fun entry => !(entry.1.space == space) }) := by
  rw [Registry.evict, List.partition_eq_filter_filter]
  rfl

/-- A namespace loses all its keys, and no other namespace loses any. -/
theorem lookup_evict (r : Registry) (space : String) (key : ConnectionKey) :
    (r.evict space).2.lookup? key = if key.space = space then none else r.lookup? key := by
  rw [evict_eq, Registry.lookup?, Registry.lookup?]
  induction r.table with
  | nil => simp
  | cons entry rest ih =>
    obtain ⟨k, id⟩ := entry
    by_cases hkey : key = k
    · subst hkey
      by_cases hspace : key.space = space
      · simpa [hspace] using ih
      · simp [hspace]
    · have hne : (key == k) = false := beq_false_of_ne hkey
      by_cases hspace : k.space = space
      · simpa [hspace, List.lookup_cons, hne] using ih
      · simpa [hspace, List.lookup_cons, hne] using ih

/-- The table and what is taken out of it make up the table before. -/
theorem perm_evict (r : Registry) (space : String) :
    ((r.evict space).1 ++ (r.evict space).2.table.map Prod.snd).Perm (r.table.map Prod.snd) := by
  rw [evict_eq, ← List.map_append]
  exact (List.filter_append_perm _ _).map Prod.snd

theorem mem_of_lookup_eq_some {r : Registry} {key : ConnectionKey} {id : HandleId}
    (h : r.lookup? key = some id) : (key, id) ∈ r.table := by
  obtain ⟨before, after, htable, -⟩ := List.lookup_eq_some_iff.1 h
  rw [htable]
  exact List.mem_append_right _ List.mem_cons_self

theorem not_mem_of_lookup_eq_none {r : Registry} {key : ConnectionKey} (h : r.lookup? key = none) :
    key ∉ r.table.map Prod.fst := by
  intro hmem
  obtain ⟨entry, hentry, rfl⟩ := List.mem_map.1 hmem
  have hne := List.lookup_eq_none_iff.1 h entry hentry
  simp at hne

/-! ## Handles that are brought in -/

/-- What is made of the wish to have a handle for a key, and the handle that was brought in for it,
if any. It is the first one for its key, or it came too late or was built for another key. -/
inductive Comes (r : Registry) (wanted : ConnectionKey) : Option Handle → Registry.Creation → Prop
    where
  | nothing (handle : Except Error HandleId) : Comes r wanted none ⟨r, handle, none⟩
  | first (h : Handle) (own : h.key = wanted) (absent : r.lookup? wanted = none) :
    Comes r wanted (some h) ⟨(r.build h).2.enter wanted r.built.length, .ok r.built.length, none⟩
  | vain (h : Handle) (handle : Except Error HandleId)
      (refused : h.key ≠ wanted ∨ r.lookup? wanted ≠ none) :
    Comes r wanted (some h) ⟨(r.build h).2, handle, some r.built.length⟩

theorem comes_add (r : Registry) (h : Handle) : Comes r h.key (some h) (r.add h) := by
  unfold Registry.add
  cases hl : r.lookup? h.key with
  | none => exact .first h rfl hl
  | some id =>
    refine .vain h _ (Or.inr ?_)
    rw [hl]
    exact Option.some_ne_none id

/-- What is noted of a handle that was brought in. -/
def entries (r : Registry) (wanted : ConnectionKey) : Option Handle → List Entry
  | some h => [.brought r.built.length h wanted]
  | none => []

theorem comes_provide (r : Registry) (key : ConnectionKey)
    (make : Unit → Except Error Handle) :
    ∃ h, Comes r key h (r.provide key make) ∧ made r key make = entries r key h := by
  rw [Registry.provide, made, Registry.contains]
  cases hl : r.lookup? key with
  | some id => exact ⟨none, .nothing _, rfl⟩
  | none =>
    cases hm : make () with
    | error e => exact ⟨none, .nothing _, rfl⟩
    | ok h =>
      refine ⟨some h, ?_, rfl⟩
      by_cases hkey : h.key = key
      · simp only [hkey]
        exact .first h hkey hl
      · simp only [hkey]
        exact .vain h _ (Or.inl hkey)

/-! ## What the log tells of an event -/

theorem offers_brought (id : HandleId) (h : Handle) (wanted key : ConnectionKey)
    (log : List Entry) :
    offers key (.brought id h wanted :: log) =
      if h.key = key ∧ wanted = key then id :: offers key log else offers key log := by
  have hoffers : offers key (.brought id h wanted :: log) =
      (Entry.offer? key (.brought id h wanted)).toList ++ offers key log := by
    rw [offers, offers, List.takeWhile_cons_of_pos rfl, List.filterMap_cons]
    cases Entry.offer? key (.brought id h wanted) <;> rfl
  rw [hoffers, Entry.offer?]
  split <;> rfl

theorem offers_shut (space : String) (key : ConnectionKey) (log : List Entry) :
    offers key (.shut space :: log) = if key.space = space then [] else offers key log := by
  have hshuts : (!(Entry.shut space).shuts key.space) = !(space == key.space) := rfl
  rw [offers, offers, List.takeWhile_cons, hshuts]
  by_cases hspace : key.space = space
  · simp [hspace]
  · have hne : (space == key.space) = false := beq_false_of_ne (Ne.symm hspace)
    rw [hne, if_neg hspace]
    rfl

theorem brought_cons (id : HandleId) (h : Handle) (wanted : ConnectionKey) (log : List Entry) :
    brought (.brought id h wanted :: log) = brought log ++ [h] := by
  simp [brought, Entry.brought?]

end RegistryUse

end FileGateway

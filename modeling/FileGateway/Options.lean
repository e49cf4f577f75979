/-!
# Access options

The options a backing store is given with each resolve: texts by name, kept in ascending order of
their names, so that two sets of options with the same entries are equal.
-/

namespace FileGateway

/-- The entries of a table by name, in strictly ascending order of the names. -/
def Ascending (entries : List (String × String)) : Prop :=
  entries.Pairwise fun a b => a.1 < b.1

/-- Sets the text of a name in an ascending table. -/
def insertEntry (key value : String) : List (String × String) → List (String × String)
  | [] => [(key, value)]
  | (k, v) :: rest =>
    if key < k then (key, value) :: (k, v) :: rest
    else if key = k then (key, value) :: rest
    else (k, v) :: insertEntry key value rest

theorem mem_insertEntry {key value : String} {entries : List (String × String)}
    {e : String × String} (h : e ∈ insertEntry key value entries) :
    e = (key, value) ∨ e ∈ entries := by
  induction entries with
  | nil => simpa [insertEntry] using h
  | cons head rest ih =>
    obtain ⟨k, v⟩ := head
    simp only [insertEntry] at h
    split at h
    · simpa using h
    · split at h
      · rcases List.mem_cons.1 h with h | h
        · exact .inl h
        · exact .inr (List.mem_cons_of_mem _ h)
      · rcases List.mem_cons.1 h with h | h
        · exact .inr (h ▸ List.mem_cons_self)
        · rcases ih h with h | h
          · exact .inl h
          · exact .inr (List.mem_cons_of_mem _ h)

theorem Ascending.insertEntry {key value : String} {entries : List (String × String)}
    (h : Ascending entries) : Ascending (insertEntry key value entries) := by
  induction entries with
  | nil => simp [FileGateway.insertEntry, Ascending]
  | cons head rest ih =>
    obtain ⟨k, v⟩ := head
    have hk := (List.pairwise_cons.1 h).1
    have hrest := (List.pairwise_cons.1 h).2
    simp only [FileGateway.insertEntry]
    split
    · next hlt =>
      refine List.pairwise_cons.2 ⟨fun e he => ?_, h⟩
      rcases List.mem_cons.1 he with rfl | he
      · exact hlt
      · exact String.lt_trans hlt (hk e he)
    · next hnlt =>
      split
      · next heq => subst heq; exact List.pairwise_cons.2 ⟨hk, hrest⟩
      · next hne =>
        refine List.pairwise_cons.2 ⟨fun e he => ?_, ih hrest⟩
        rcases mem_insertEntry he with rfl | he
        · by_cases hlt : k < key
          · exact hlt
          · exact absurd (String.le_antisymm (String.not_lt.1 hlt) (String.not_lt.1 hnlt)) hne
        · exact hk e he

/-- Access options by name. -/
structure Options where
  entries : List (String × String)
  ascending : Ascending entries
deriving DecidableEq

namespace Options

@[ext] theorem ext {a b : Options} (h : a.entries = b.entries) : a = b := by
  cases a; cases b; cases h; rfl

/-- No options. -/
def empty : Options := ⟨[], .nil⟩

instance : Inhabited Options := ⟨empty⟩

/-- The text of an option. -/
def get? (o : Options) (key : String) : Option String :=
  o.entries.lookup key

/-- Sets an option. -/
def insert (o : Options) (key value : String) : Options :=
  ⟨insertEntry key value o.entries, o.ascending.insertEntry⟩

/-- Takes an option out. -/
def erase (o : Options) (key : String) : Options :=
  ⟨o.entries.filter fun e => e.1 ≠ key, o.ascending.filter _⟩

/-- How many options there are. -/
def size (o : Options) : Nat :=
  o.entries.length

/-- Whether there are none. -/
def isEmpty (o : Options) : Bool :=
  o.entries.isEmpty

/-- The options of a list of entries, in which a later entry replaces an earlier one of its name. -/
def ofList (entries : List (String × String)) : Options :=
  entries.foldl (fun o e => o.insert e.1 e.2) empty

/-- The entries in ascending order of their names. -/
def toList (o : Options) : List (String × String) :=
  o.entries

end Options

end FileGateway

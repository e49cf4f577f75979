import FileGateway.Proofs.Connection.Accepted
import FileGateway.Proofs.Connection.Described
import FileGateway.Proofs.Duration.Written

/-!
# Printed connections files

A connections file that was accepted is accepted again when it is printed, and is read as what it
was without its passwords. The object that a configuration is encoded as describes this
configuration without its password (`ConnectionConfig.ofTree_toJson`), and what was accepted once is
in order without passwords too, since no condition looks at them (`Sound.withoutPasswords`).
-/

namespace FileGateway

open Json

/-! ## Fields -/

namespace Json

variable {α : Type}

theorem isOptional_tree {encode : α → Value} {gives : Tree → α → Prop}
    (h : ∀ a, gives (encode a).tree a) (value : Option α) :
    IsOptional gives (Value.optional encode value).tree value := by
  cases value with
  | none => exact .absent
  | some a => exact .present (h a)

theorem Value.itemTrees_eq_map (items : List Value) : itemTrees items = items.map tree := by
  induction items with
  | nil => rfl
  | cons item items ih => rw [itemTrees, List.map_cons, ih]

/-- A list is decoded item by item. -/
theorem Tree.list_tree {encode : α → Value} {decode : Tree → Decoded α} {read : α → α}
    (hdecode : ∀ a, decode (encode a).tree = .ok (read a)) (as : List α) :
    (Value.array (as.map encode)).tree.list decode = .ok (as.map read) := by
  have hitems : (as.map fun a => (encode a).tree).mapM decode = .ok (as.map read) := by
    induction as with
    | nil => rfl
    | cons a as ih =>
      rw [List.map_cons, List.mapM_cons, hdecode, ih]
      rfl
  rw [Value.tree, list, Value.itemTrees_eq_map, List.map_map]
  change (List.mapM decode (as.map fun a => (encode a).tree) >>= _) = _
  rw [hitems]
  rfl

end Json

theorem Duration.givenBy_toJson (d : Duration) : Duration.GivenBy d.toJson.tree d :=
  ⟨d.write, isText_tree d.write, Duration.read_write d⟩

theorem Options.givenBy_toJson (o : Options) : Options.GivenBy o.toJson.tree o := by
  refine ⟨_, o.entries, rfl, ?_, .refl _⟩
  generalize o.entries = entries
  induction entries with
  | nil => exact .nil
  | cons e entries ih => exact .cons ⟨isText_tree e.1, isText_tree e.2⟩ ih

theorem LockConfig.describedBy_toJson (lock : LockConfig) : lock.DescribedBy
    (Value.memberTrees [("scheme", lock.scheme.toJson), ("expiry", lock.expiry.toJson)]) := by
  refine ⟨["scheme", "expiry"], ?_, fun h => absurd (by decide) h, fun h => absurd (by decide) h⟩
  refine .cons (isText_tree _) (.scheme (isText_tree _)) (by decide) ?_
  exact .cons (isText_tree _) (.expiry lock.expiry.givenBy_toJson) (by decide) .nil

/-! ## Connections -/

namespace ConnectionConfig

/-- The connection without its password. -/
def withoutPassword (c : ConnectionConfig) : ConnectionConfig :=
  { c with password := none }

/-- A connection that was encoded is decoded as what it was without its password. -/
theorem ofTree_toJson (c : ConnectionConfig) : ofTree c.toJson.tree = .ok c.withoutPassword := by
  have hname : ∀ text : String, IsText (.string (text.toList.flatMap Value.escapeChar)) text :=
    isText_tree
  have hhost := isOptional_tree isText_tree c.host
  have huser := isOptional_tree isText_tree c.username
  refine DescribedBy.decode ⟨["name", "namespace", "protocol", "host", "port", "username",
    "working_dir", "max_failure_retry_count", "suspend_duration", "backoff_multiplier",
    "max_backoff", "options", "lock"], ?_, ?_⟩
  · refine .cons (hname _) (.name (isText_tree _)) (by decide) ?_
    refine .cons (hname _) (.space (isText_tree _)) (by decide) ?_
    refine .cons (hname _) (.protocol (isText_tree _)) (by decide) ?_
    refine .cons (hname _) (.host hhost) (by decide) ?_
    refine .cons (hname _) (.port (isOptional_tree (fun _ => rfl) _)) (by decide) ?_
    refine .cons (hname _) (.username huser) (by decide) ?_
    refine .cons (hname _) (.workingDir (isText_tree _)) (by decide) ?_
    refine .cons (hname _) (.maxFailures rfl) (by decide) ?_
    refine .cons (hname _) (.suspendDuration (Duration.givenBy_toJson _)) (by decide) ?_
    refine .cons (hname _) (.backoffMultiplier rfl) (by decide) ?_
    refine .cons (hname _) (.maxBackoff (isOptional_tree Duration.givenBy_toJson _)) (by decide) ?_
    refine .cons (hname _) (.options (Options.givenBy_toJson _)) (by decide) ?_
    exact .cons (hname _) (.lock (LockConfig.describedBy_toJson _)) (by decide) .nil
  · constructor
    case password => exact fun _ => rfl
    all_goals first | decide | exact fun h => absurd (by decide) h

/-- No condition looks at the password. -/
theorem fault?_withoutPassword (c : ConnectionConfig) : c.withoutPassword.fault? = c.fault? :=
  rfl

theorem withoutPassword_eq_self_iff {c : ConnectionConfig} :
    c.withoutPassword = c ↔ c.password = none := by
  constructor
  · intro h
    rw [← h]
    rfl
  · intro h
    obtain ⟨name, space, protocol, host, port, username, password⟩ := c
    cases h
    rfl

end ConnectionConfig

namespace ConnectionsFile

/-- The connections without their passwords. -/
def withoutPasswords (f : ConnectionsFile) : ConnectionsFile :=
  ⟨f.connections.map ConnectionConfig.withoutPassword⟩

theorem ofTree_toJson (f : ConnectionsFile) : ofTree f.toJson.tree = .ok f.withoutPasswords := by
  have hlist := Tree.list_tree ConnectionConfig.ofTree_toJson f.connections
  have hdraft : form.draft {} f.toJson.tree = .ok ⟨some f.withoutPasswords.connections⟩ := by
    have hput : form.put {} "connections"
        (Value.array (f.connections.map ConnectionConfig.toJson)).tree =
          .ok ⟨some f.withoutPasswords.connections⟩ := by
      simp only [form, hlist]
      rfl
    exact RecordForm.ofMembers_cons (isText_tree "connections") rfl rfl hput [] none
  rw [ofTree, hdraft]
  rfl

theorem Sound.withoutPasswords {f : ConnectionsFile} (h : f.Sound) : f.withoutPasswords.Sound := by
  refine ⟨?_, ?_⟩
  · intro c hc
    obtain ⟨c, hmem, rfl⟩ := List.mem_map.1 hc
    exact c.fault?_withoutPassword.trans (h.valid c hmem)
  · have hkeys : f.withoutPasswords.connections.map ConnectionConfig.key =
        f.connections.map ConnectionConfig.key := by
      rw [ConnectionsFile.withoutPasswords, List.map_map]
      rfl
    rw [hkeys]
    exact h.keys

theorem withoutPasswords_eq_self_iff {f : ConnectionsFile} :
    f.withoutPasswords = f ↔ ∀ c ∈ f.connections, c.password = none := by
  obtain ⟨connections⟩ := f
  have hself : connections.map (fun c => c) = connections := List.map_id' connections
  rw [withoutPasswords, ConnectionsFile.mk.injEq]
  conv => lhs; rhs; rw [← hself]
  rw [List.map_inj_left]
  simp only [ConnectionConfig.withoutPassword_eq_self_iff]

/-- **Printed connections files.** A connections file that was accepted is accepted again when it is
printed. What is read then is the file with all passwords taken out and nothing else changed, so it
is the file itself exactly if no connection has a password. -/
theorem parse_write {text : String} {f : ConnectionsFile} (h : parse text = .ok f) :
    parse f.toJson.write = .ok f.withoutPasswords ∧
      (parse f.toJson.write = .ok f ↔ ∀ c ∈ f.connections, c.password = none) := by
  have hsound := (parse_eq_ok_iff.1 h).2
  have hread : parse f.toJson.write = .ok f.withoutPasswords :=
    parse_eq_ok_iff.2 ⟨decode_write f.ofTree_toJson, hsound.withoutPasswords⟩
  refine ⟨hread, ?_⟩
  rw [hread, Except.ok.injEq]
  exact withoutPasswords_eq_self_iff

/-- A connections file with a password, as an operator wrote it. -/
def guarded : String :=
  "\x7b\"connections\":[\x7b\"protocol\":\"ftp\", \"host\":\"hä\", \"name\":\"a\\n\", "
    ++ "\"password\":\"p\", \"working_dir\":\"/\", "
    ++ "\"options\":\x7b\"z\":\"1\", \"a\":\"2\"\x7d\x7d]\x7d"

set_option maxRecDepth 4096 in
theorem parse_write_guarded :
    let c : ConnectionConfig :=
      { ConnectionConfig.onDisk "default" "a\n" ⟨"/"⟩ with
        protocol := .ftp
        host := some "hä"
        password := some "p"
        options := .ofList [("a", "2"), ("z", "1")] }
    parse guarded = .ok ⟨[c]⟩ ∧ parse (toJson ⟨[c]⟩).write = .ok ⟨[c.withoutPassword]⟩ := by
  intro c
  have accepted : parse guarded = .ok ⟨[c]⟩ := by rfl
  exact ⟨accepted, (parse_write accepted).1⟩

end ConnectionsFile

end FileGateway

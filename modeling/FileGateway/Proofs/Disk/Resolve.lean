import FileGateway.Disk.Store
import FileGateway.Disk.Volume

/-!
# What the disk makes of a path

The store on the local disk resolves a path to its normal form or not at all, and changes nothing
by it. So where a path leads depends neither on the moment nor on how the path is spelled, which is
what the law `Archive.located` asks for.
-/

namespace FileGateway.DiskStore

/-- Resolving a path on a volume, case by case. -/
theorem resolve_eq (path : Path) (v : Volume) :
    (resolve path : StateM Volume (Result FileRef)) v =
      if path.isAbsolute then
        match path.normal with
        | .error fault => (.error (.plain fault.message), v)
        | .ok place =>
          match place.parent? with
          | none =>
            (.error (.plain ("path " ++ Text.quote place.text ++ " has no parent directory")), v)
          | some parent =>
            match v.isDirectory parent with
            | .error e => (.error (failureOf "failed reading metadata from" parent e), v)
            | .ok true => (.ok ⟨place⟩, v)
            | .ok false => (.error (.plain (Text.quote parent.text ++ " is not a directory")), v)
      else
        (.error (.plain ("local path " ++ Text.quote path.text ++ " must be absolute")), v) := by
  unfold resolve
  cases path.isAbsolute with
  | false => rfl
  | true =>
    cases path.normal with
    | error fault => rfl
    | ok place =>
      simp only
      cases place.parent? with
      | none => rfl
      | some parent =>
        simp only [Bool.not_true, Bool.false_eq_true, if_false, if_true, Bind.bind, StateT.bind,
          FileAccess.isDirectory]
        cases v.isDirectory parent with
        | error e => rfl
        | ok found => cases found <;> rfl

/-- A path that the disk resolves leads to its normal form. -/
theorem located {path : Path} {v : Volume} {file : FileRef}
    (h : ((resolve path : StateM Volume (Result FileRef)) v).1 = .ok file) :
    path.normal = .ok file.path := by
  rw [resolve_eq] at h
  split at h
  · split at h
    · cases h
    · next place hplace =>
      split at h
      · cases h
      · split at h
        · cases h
        · cases h
          exact hplace
        · cases h
  · cases h

/-- Resolving a path changes nothing. -/
theorem resolve_keeps (path : Path) (v : Volume) :
    ((resolve path : StateM Volume (Result FileRef)) v).2 = v := by
  rw [resolve_eq]
  split
  · split
    · rfl
    · split
      · rfl
      · split <;> rfl
  · rfl

end FileGateway.DiskStore

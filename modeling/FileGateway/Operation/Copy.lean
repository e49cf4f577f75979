import FileGateway.Gateway.Shared

/-!
# Copying into a file

The target is opened, and the caller's source is copied into it piece by piece; at the end of the
source the target is completed.
-/

namespace FileGateway.Copy

/-- Where a copy into a resolved file waits: for the target to be opened, for the next piece of the
source, for that to be written, and for the target to be completed. Of the bytes that were written
`count` is the number. -/
inductive Place where
  | opening
  | pulling (stream : StreamId) (count : Nat)
  | writing (stream : StreamId) (count : Nat) (piece : Bytes)
  | finishing (stream : StreamId) (count : Nat)
deriving DecidableEq

/-- A piece of the source arrived. An empty one is its end. -/
def received (stream : StreamId) (count : Nat) : Bytes → Step Place (Result Nat)
  | [] => .paused (.finishing stream count)
  | piece => .paused (.writing stream count piece)

/-- What a copy waits for at a place, and how it goes on. Its result is the number of bytes. -/
def next (backend : Backend) (file : FileRef) (append : Bool) :
    Place → Pending (Step Place (Result Nat))
  | .opening =>
    ⟨.store backend (.openWrite file append), fun
      | .ok stream => .paused (.pulling stream 0)
      | .error f => .done (.error f)⟩
  | .pulling stream count =>
    ⟨.pull, fun
      | .ok piece => received stream count piece
      | .error f => .done (.error f)⟩
  | .writing stream count piece =>
    ⟨.store backend (.write stream piece), fun
      | .ok () => .paused (.pulling stream (count + piece.length))
      | .error f => .done (.error f)⟩
  | .finishing stream count =>
    ⟨.store backend (.finish stream), fun
      | .ok () => .done (.ok count)
      | .error f => .done (.error f)⟩

end FileGateway.Copy

import FileGateway.Gateway.Shared

/-!
# Reading a file

The file is opened and copied into the caller's sink piece by piece; at its end the sink is flushed.
-/

namespace FileGateway.Read

/-- Where a read of a resolved file waits: for the file to be opened, for the next piece of it, for
the sink to take that, and for the sink to be flushed. Of the bytes that were read `count` is the
number. -/
inductive Place where
  | opening
  | reading (stream : StreamId) (count : Nat)
  | pushing (stream : StreamId) (count : Nat) (piece : Bytes)
  | flushing (count : Nat)
deriving DecidableEq

/-- A piece of the file was read. An empty one is its end. -/
def received (stream : StreamId) (count : Nat) : Bytes → Step Place (Result Nat)
  | [] => .paused (.flushing count)
  | piece => .paused (.pushing stream count piece)

/-- What a read waits for at a place, and how it goes on. Its result is the number of bytes. -/
def next (backend : Backend) (file : FileRef) : Place → Pending (Step Place (Result Nat))
  | .opening =>
    ⟨.store backend (.openRead file), fun
      | .ok stream => .paused (.reading stream 0)
      | .error f => .done (.error f)⟩
  | .reading stream count =>
    ⟨.store backend (.read stream), fun
      | .ok piece => received stream count piece
      | .error f => .done (.error f)⟩
  | .pushing stream count piece =>
    ⟨.push piece, fun
      | .ok () => .paused (.reading stream (count + piece.length))
      | .error f => .done (.error f)⟩
  | .flushing count =>
    ⟨.flush, fun
      | .ok () => .done (.ok count)
      | .error f => .done (.error f)⟩

end FileGateway.Read

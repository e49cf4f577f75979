/-!
# Failures

Backing stores are of many kinds and fail for reasons of their own. A failure is what went wrong in
words, with the contexts it was met in, the outermost first.
-/

namespace FileGateway

/-- Why a call to a backing store, a source or a sink failed: what was being done, the outermost
task first, and what went wrong in the end. -/
structure Failure where
  contexts : List String
  cause : String
deriving DecidableEq, Repr, Inhabited

namespace Failure

/-- A failure without context. -/
def plain (cause : String) : Failure := ⟨[], cause⟩

/-- The failure seen from a wider task. -/
def within (f : Failure) (context : String) : Failure :=
  { f with contexts := context :: f.contexts }

/-- The whole chain in words, the outermost context first. -/
def text (f : Failure) : String :=
  ": ".intercalate (f.contexts ++ [f.cause])

end Failure

/-- The result of something that can fail. -/
abbrev Result (α : Type) := Except Failure α

end FileGateway

import FileGateway.Text.Digits
import FileGateway.Word

/-!
# Lease diagnostics

A marker says who holds it, for operators who find one left behind: host name, host address and
process number, each on a line of its own. The lease protocol never reads it.
-/

namespace FileGateway

/-- The lines of a text. A line ends at a line feed, which may have a carriage return before it;
text after the last line feed is a line too, unless it is empty. -/
def linesOf (text : List Char) : List (List Char) :=
  go [] text
where
  /-- Goes on within a line whose characters so far are `line`, the last first. -/
  go (line : List Char) : List Char → List (List Char)
    | [] => if line.isEmpty then [] else [line.reverse]
    | '\n' :: rest =>
      (match line with
        | '\r' :: before => before.reverse
        | before => before.reverse) :: go [] rest
    | c :: rest => go (c :: line) rest

/-- Who holds a marker. -/
structure Diagnostics where
  hostName : String
  hostAddress : String
  processId : UInt32
deriving DecidableEq, Repr

namespace Diagnostics

/-- The three lines of a marker. -/
def text (d : Diagnostics) : String :=
  d.hostName ++ "\n" ++ d.hostAddress ++ "\n" ++ toString d.processId.toNat ++ "\n"

/-- Reads a marker, if it has just three lines and the last one is a process number. -/
def parse? (text : String) : Option Diagnostics :=
  match linesOf text.toList with
  | [name, address, process] =>
    (Text.readBelow word32 process).map fun n =>
      ⟨String.ofList name, String.ofList address, UInt32.ofNat n⟩
  | _ => none

end Diagnostics

end FileGateway

import FileGateway.Json.Decode
import FileGateway.Json.Printer

/-!
# Protocols and lock schemes

The choices a configuration makes by name. In JSON the names are written exactly; where an operator
types them, upper and lower case letters count alike.
-/

namespace FileGateway

/-- The value whose name is `text`, if letters of the ASCII alphabet count alike in both cases. -/
def lookupIgnoringCase {α : Type} (known : List (String × α)) (text : String) : Option α :=
  (known.find? fun entry => entry.1 == text.map Char.toLower).map Prod.snd

/-- What speaks to a backend. -/
inductive Protocol where
  | file
  | ftp
  | ftps
  | sftp
deriving DecidableEq, Repr, Inhabited

namespace Protocol

/-- All protocols by name. -/
def known : List (String × Protocol) :=
  [("file", file), ("ftp", ftp), ("ftps", ftps), ("sftp", sftp)]

/-- The name of a protocol. -/
def name : Protocol → String
  | file => "file"
  | ftp => "ftp"
  | ftps => "ftps"
  | sftp => "sftp"

/-- Whether the backend is another host. -/
def isRemote : Protocol → Bool
  | file => false
  | _ => true

/-- The port a backend listens on unless another one is configured. -/
def defaultPort? : Protocol → Option UInt16
  | file => none
  | ftp => some 21
  | ftps => some 21
  | sftp => some 22

/-- The protocol that an operator typed. -/
def ofText? (text : String) : Option Protocol :=
  lookupIgnoringCase known text

/-- Decodes a protocol. -/
def ofTree : Json.Tree → Json.Decoded Protocol :=
  Json.Tree.variant known

/-- Encodes a protocol. -/
def toJson (p : Protocol) : Json.Value :=
  .string p.name

end Protocol

/-- How the writers of one target are kept apart: not at all, or by a marker file beside the
target. -/
inductive LockScheme where
  | none
  | marker
deriving DecidableEq, Repr, Inhabited

namespace LockScheme

/-- All lock schemes by name. -/
def known : List (String × LockScheme) :=
  [("none", none), ("marker", marker)]

/-- The name of a lock scheme. -/
def name : LockScheme → String
  | none => "none"
  | marker => "marker"

/-- The lock scheme that an operator typed. -/
def ofText? (text : String) : Option LockScheme :=
  lookupIgnoringCase known text

/-- Decodes a lock scheme. -/
def ofTree : Json.Tree → Json.Decoded LockScheme :=
  Json.Tree.variant known

/-- Encodes a lock scheme. -/
def toJson (s : LockScheme) : Json.Value :=
  .string s.name

end LockScheme

end FileGateway

import FileGateway.Error
import FileGateway.Store.Call
import FileGateway.Suspension

/-!
# Connection handles

A handle is a live connection: a backing store, the directory that relative paths hang off, the
access options and the suspension policy. All operations on one connection share its handle, so an
operation that changes the options has to put them back.
-/

namespace FileGateway

/-- A live connection. Its `options` are those in force and may differ from the configured
`defaults`; whether they were found to do so is `modified`. -/
structure Handle where
  key : ConnectionKey
  backend : Backend
  baseDir : Path
  defaults : Options
  options : Options
  modified : Bool
  policy : SuspensionPolicy
  lock : LockConfig
deriving DecidableEq

namespace Handle

/-- A handle on which nothing was done yet. -/
def fresh (key : ConnectionKey) (backend : Backend) (baseDir : Path) (options : Options)
    (suspension : SuspensionConfig) (lock : LockConfig) : Handle where
  key := key
  backend := backend
  baseDir := baseDir
  defaults := options
  options := options
  modified := false
  policy := .fresh suspension
  lock := lock

/-- Changes the options in force. -/
def adjust (h : Handle) (update : Options → Options) : Handle :=
  { h with options := update h.options, modified := update h.options ≠ h.defaults }

/-- Puts the configured options back, and tells whether there was anything to put back. -/
def reset (h : Handle) : Bool × Handle :=
  if h.modified then (true, { h with options := h.defaults, modified := false })
  else (false, h)

/-- Where a path lies on the backend. -/
def place (h : Handle) (path : Path) : Path :=
  h.baseDir.join path

/-- The failure of closing the connection. -/
def closeFailure (h : Handle) (f : Failure) : Failure :=
  f.within ("failed closing connection " ++ h.key.text)

end Handle

end FileGateway

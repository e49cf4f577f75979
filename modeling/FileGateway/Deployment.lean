import FileGateway.Connection.File
import FileGateway.Factories

/-!
# Deployments

The configured connections of a deployment and the factories of their stores. A handle is built when
its key is first asked for.
-/

namespace FileGateway

/-- What a deployment is configured with. -/
structure Deployment where
  file : ConnectionsFile
  factories : Factories

namespace Deployment

/-- The handle of a key: the registered one, or else one built from the configuration. This is one
step. The registry is asked whether it has a handle before it is asked for it, and if another thread
could shut the namespace down in between, the checkout would fail; it cannot do so here. -/
def provide (d : Deployment) (r : Registry) (key : ConnectionKey) : Registry.Creation :=
  match r.lookup? key with
  | some id => { registry := r, handle := .ok id }
  | none =>
    match d.file.find? key with
    | none => { registry := r, handle := .error (.connectionNotFound key) }
    | some config => r.connect config d.factories

end Deployment

end FileGateway

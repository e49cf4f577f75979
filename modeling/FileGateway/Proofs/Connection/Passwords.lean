import FileGateway.Deployment
import FileGateway.Proofs.Connection.Printed

/-!
# Passwords

A password is for the factory of its protocol, and nobody else looks at it. So where the factories
ignore passwords as well, as the one for the local disk does (`Factories.standard_ignore`), a
deployment without its passwords is as good as the deployment: its connections are at fault for the
same reasons, are encoded as the same object, and give the same handles.

Each of the lemmas says that something is the same without passwords. Of two connections or two
connections files that are the same without passwords, it is then the same.
-/

namespace FileGateway

/-! ## Factories -/

/-- A factory makes the same of a connection whatever its password is. -/
def StoreFactory.IgnoresPasswords (factory : StoreFactory) : Prop :=
  ∀ c, factory c.withoutPassword = factory c

namespace Factories

/-- All factories ignore passwords. -/
def IgnorePasswords (fs : Factories) : Prop :=
  ∀ protocol factory, (protocol, factory) ∈ fs.entries → factory.IgnoresPasswords

theorem mem_of_get? {fs : Factories} {protocol : Protocol} {factory : StoreFactory}
    (h : fs.get? protocol = some factory) : (protocol, factory) ∈ fs.entries := by
  obtain ⟨before, after, hentries, -⟩ := List.lookup_eq_some_iff.1 h
  rw [hentries]
  exact List.mem_append_right _ List.mem_cons_self

theorem IgnorePasswords.register {fs : Factories} {factory : StoreFactory}
    (h : fs.IgnorePasswords) (hfactory : factory.IgnoresPasswords) (protocol : Protocol) :
    (fs.register protocol factory).IgnorePasswords := by
  intro p f hmem
  rcases List.mem_append.1 hmem with hold | hnew
  · exact h p f (List.mem_of_mem_filter hold)
  · cases List.mem_singleton.1 hnew
    exact hfactory

theorem empty_ignore : empty.IgnorePasswords :=
  fun _ _ hmem => absurd hmem List.not_mem_nil

/-- The local disk has no passwords. -/
theorem standard_ignore : standard.IgnorePasswords :=
  empty_ignore.register (fun _ => rfl) .file

end Factories

/-! ## Connections -/

namespace ConnectionConfig

theorem connect_withoutPassword {fs : Factories} (h : fs.IgnorePasswords) (c : ConnectionConfig) :
    connect c.withoutPassword fs = connect c fs := by
  have hprotocol : c.withoutPassword.protocol = c.protocol := rfl
  unfold connect
  rw [c.fault?_withoutPassword, hprotocol]
  cases c.fault? with
  | some fault => rfl
  | none =>
    cases hget : fs.get? c.protocol with
    | none => rfl
    | some factory =>
      simp only
      rw [h _ _ (Factories.mem_of_get? hget) c]
      rfl

theorem registry_connect_withoutPassword {fs : Factories} (h : fs.IgnorePasswords) (r : Registry)
    (c : ConnectionConfig) : r.connect c.withoutPassword fs = r.connect c fs := by
  unfold Registry.connect
  rw [connect_withoutPassword h]
  rfl

end ConnectionConfig

/-! ## Connections files -/

namespace ConnectionsFile

theorem toJson_withoutPasswords (f : ConnectionsFile) : f.withoutPasswords.toJson = f.toJson := by
  unfold toJson withoutPasswords
  rw [List.map_map]
  rfl

/-- A list of connections is at fault for the same reason without passwords. -/
theorem firstFault?_withoutPasswords (f : ConnectionsFile) (seen : List ConnectionKey) :
    firstFault? seen f.withoutPasswords.connections = firstFault? seen f.connections := by
  unfold withoutPasswords
  generalize f.connections = connections
  induction connections generalizing seen with
  | nil => rfl
  | cons c rest ih =>
    have hkey : c.withoutPassword.key = c.key := rfl
    rw [List.map_cons, firstFault?, firstFault?, c.fault?_withoutPassword, hkey, ih]

theorem find?_withoutPasswords (f : ConnectionsFile) (key : ConnectionKey) :
    f.withoutPasswords.find? key = (f.find? key).map ConnectionConfig.withoutPassword :=
  List.find?_map

end ConnectionsFile

/-! ## Deployments -/

namespace Deployment

/-- The deployment without the passwords of its connections. -/
def withoutPasswords (d : Deployment) : Deployment :=
  { d with file := d.file.withoutPasswords }

/-- Whoever asks for a handle is given the same without passwords. -/
theorem provide_withoutPasswords {d : Deployment} (h : d.factories.IgnorePasswords) (r : Registry)
    (key : ConnectionKey) : d.withoutPasswords.provide r key = d.provide r key := by
  have hfind : d.withoutPasswords.file.find? key =
      (d.file.find? key).map ConnectionConfig.withoutPassword :=
    d.file.find?_withoutPasswords key
  unfold provide
  cases r.lookup? key with
  | some id => rfl
  | none =>
    rw [hfind]
    cases d.file.find? key with
    | none => rfl
    | some config => exact config.registry_connect_withoutPassword h r

end Deployment

end FileGateway

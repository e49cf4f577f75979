import FileGateway.Proofs.Gateway.Lasting
import FileGateway.Proofs.Gateway.Scene

/-!
# Who writes markers

What a gateway writes into its markers is told when it starts and never changes. So every marker of
one run holds the same text, whatever the run has done before: an invariant of runs may rely on the
writer (`Scene.run_induction_writer`).
-/

namespace FileGateway

/-- What is written into markers lasts. -/
theorem Shared.lasting_writer : Shared.Lasting Shared.writer :=
  ⟨⟨fun _ _ => rfl, fun _ _ => rfl, fun _ _ => rfl⟩, fun _ _ _ _ => rfl⟩

namespace Gateway

theorem writer_call (g : Gateway) (c : Call) : (g.call c).shared.writer = g.shared.writer := by
  cases c with
  | addLease target =>
    simp only [call, addLease]
    cases Lease.fresh target <;> rfl
  | acquire lease backend options expiry => exact Shared.lasting_writer.acquire_start _ _
  | release lease strict => exact Shared.lasting_writer.release_start lease g.shared
  | resolve handle path =>
    exact congrArg Shared.writer (Shared.Lasting.resolve_start handle path g.shared)
  | operate deployment key action path =>
    exact Shared.lasting_writer.operate g deployment key action path
  | create creation =>
    simp only [call, create]
    split <;> rfl
  | close handle => rfl
  | shutdown space => rfl

theorem writer_fire (g : Gateway) (id : LeaseId) : (g.fire id).shared.writer = g.shared.writer :=
  Shared.lasting_writer.fire g id

end Gateway

namespace Scene

variable {ε : Type}

/-- No event changes what is written into markers. -/
theorem writer_step (w : World ε) (c : Scene ε) (e : Event) :
    (c.step w e).gateway.shared.writer = c.gateway.shared.writer := by
  cases e with
  | call call => exact c.gateway.writer_call call
  | fire lease => exact c.gateway.writer_fire lease
  | advance now => rfl
  | serve id =>
    simp only [step, serve]
    split <;> rfl
  | deliver id =>
    simp only [step, deliver]
    split
    · next t p request answer ht hp hin =>
      split
      · next hrequest =>
        obtain ⟨t', q, ht', hq, -, rfl⟩ := Gateway.pending?_eq hp
        exact Shared.lasting_writer.next? hq _ _
      · rfl
    · rfl

/-- What holds at the start and is kept by every change that keeps the writer holds at all times. -/
theorem run_induction_writer {w : World ε} {c : Scene ε} {P : Scene ε → Prop} (start : P c)
    (step : ∀ c c', P c → c'.gateway.shared.writer = c.gateway.shared.writer → Changes w c c' →
      P c') (events : List Event) : P (c.run w events) := by
  induction events generalizing c with
  | nil => exact start
  | cons e events ih => exact ih (step c _ start (c.writer_step w e) (step_changes w c e))

end Scene

end FileGateway

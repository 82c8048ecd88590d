import Handover.Command.Fault
import Handover.Proofs.Migration.Captures

/-!
# What commands ask of the service

A command talks to the service and to files, and only the calls on the service change the chain.
So what it does is told by these calls (`CommandProgram.Runs`). A part that is a program on the
service makes the calls of that program (`CommandProgram.Runs.of_procedure`). Which calls a part
may make at all can be told from its own parts (`Host.Asks`).
-/

namespace Handover

/-! ## Calls among other requests -/

/-- The call on the service in an exchange, if it is one. -/
def Exchange.call? : Exchange host → Option (Exchange service)
  | ⟨.service q, reply⟩ => some ⟨q, reply⟩
  | _ => none

namespace Host

variable {ε α β : Type} {P : Call → Prop}

/-- The calls on the service, in order. -/
def calls (xs : List (Exchange host)) : List (Exchange service) :=
  xs.filterMap Exchange.call?

/-- If the request is a call on the service, it is one of these. -/
def OnService (P : Call → Prop) : HostCall → Prop
  | .service q => P q
  | _ => True

/-- Whatever the host replies, only such calls are made on the service. -/
def Asks (P : Call → Prop) (p : ExceptT ε (Dialogue host) α) : Prop :=
  Dialogue.Asks (I := host) (OnService P) p.run

theorem Asks.bind {p : ExceptT ε (Dialogue host) α} {f : α → ExceptT ε (Dialogue host) β}
    (hp : Asks P p) (hf : ∀ a, Asks P (f a)) : Asks P (p >>= f) :=
  Dialogue.Asks.bindCont hp hf

theorem asks_ofExcept (e : Except ε α) : Asks P (liftM e : ExceptT ε (Dialogue host) α) := by
  cases e <;> trivial

theorem asks_lift {d : Dialogue host α} (h : d.Asks (OnService P)) :
    Asks P (liftM d : ExceptT ε (Dialogue host) α) :=
  Dialogue.Asks.bind (f := Dialogue.done ∘ Except.ok) (fun _ => trivial) h

theorem asks_request {q : HostCall} (h : OnService P q) :
    Asks P (liftM (Dialogue.request (I := host) q) : ExceptT ε (Dialogue host) (host.Reply q)) :=
  asks_lift ⟨h, fun _ => trivial⟩

end Host

/-! ## Runs of commands -/

namespace CommandProgram

variable {α β : Type} {xs : List (Exchange service)}

/-- With these calls on the service the program comes to the result, whatever else it asks. -/
def Runs (p : CommandProgram α) (xs : List (Exchange service)) (r : Except CommandFault α) : Prop :=
  ∃ ys, Dialogue.Runs p.run ys r ∧ Host.calls ys = xs

theorem Runs.of_pure {a : α} {r : Except CommandFault α}
    (h : (pure a : CommandProgram α).Runs xs r) : xs = [] ∧ r = .ok a := by
  obtain ⟨_, hrun, rfl⟩ := h
  cases hrun
  exact ⟨rfl, rfl⟩

theorem Runs.of_throw {fault : CommandFault} {r : Except CommandFault α}
    (h : (throw fault : CommandProgram α).Runs xs r) : xs = [] ∧ r = .error fault := by
  obtain ⟨_, hrun, rfl⟩ := h
  cases hrun
  exact ⟨rfl, rfl⟩

theorem Runs.of_ofExcept {e r : Except CommandFault α}
    (h : (liftM e : CommandProgram α).Runs xs r) : xs = [] ∧ r = e := by
  cases e with
  | error fault => exact h.of_throw
  | ok a => exact h.of_pure

/-- A command fails with its first part, or goes on after it. -/
theorem Runs.of_bind {p : CommandProgram α} {f : α → CommandProgram β}
    {r : Except CommandFault β} (h : (p >>= f).Runs xs r) :
    (∃ fault, p.Runs xs (.error fault) ∧ r = .error fault) ∨
      ∃ a ys zs, p.Runs ys (.ok a) ∧ (f a).Runs zs r ∧ xs = ys ++ zs := by
  obtain ⟨_, hrun, rfl⟩ := h
  obtain ⟨fault, hp, rfl⟩ | ⟨a, ys, zs, hp, hf, rfl⟩ := Dialogue.Runs.of_bindCont hrun
  · exact Or.inl ⟨fault, ⟨_, hp, rfl⟩, rfl⟩
  · exact Or.inr ⟨a, _, _, ⟨ys, hp, rfl⟩, ⟨zs, hf, rfl⟩, List.filterMap_append⟩

/-- A command that asks nothing after its first part. -/
theorem Runs.of_bind_pure {p : CommandProgram α} {g : α → β} {r : Except CommandFault β}
    (h : (p >>= fun a => pure (g a)).Runs xs r) : ∃ e, p.Runs xs e ∧ r = e.map g := by
  obtain ⟨fault, hp, rfl⟩ | ⟨a, _, _, hp, hdone, rfl⟩ := h.of_bind
  · exact ⟨.error fault, hp, rfl⟩
  · obtain ⟨rfl, rfl⟩ := hdone.of_pure
    rw [List.append_nil]
    exact ⟨.ok a, hp, rfl⟩

/-- Only the calls are made that may be made. -/
theorem Runs.asked {p : CommandProgram α} {P : Call → Prop} {r : Except CommandFault α}
    (h : p.Runs xs r) (hp : Host.Asks P p) : ∀ x ∈ xs, P x.request := by
  obtain ⟨ys, hrun, rfl⟩ := h
  intro x hx
  obtain ⟨⟨q, reply⟩, hmem, hcall⟩ := List.mem_filterMap.1 hx
  have hasked := Dialogue.Asks.of_runs hp hrun _ hmem
  cases q <;> cases hcall
  exact hasked

end CommandProgram

end Handover

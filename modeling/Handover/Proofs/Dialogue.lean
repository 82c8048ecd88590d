import Handover.Dialogue

/-!
# Runs of dialogues

A run of a dialogue is a list of exchanges, of what was asked with some reply to it
(`Dialogue.Runs`). Against a partner a dialogue makes one of its runs (`runs_record`), in which it
was the partner that replied (`fromPartner_record`), so what holds of every run holds against
every partner. A run of a dialogue with a continuation is a run of the one and then a run of the
other (`Runs.of_bind`). Which requests a dialogue may ask can be told from its parts
(`Asks.bind`), and holds of all of its runs (`Asks.of_runs`).

A dialogue that goes on in the same way after any two replies that are related is blind to what
tells them apart (`Dialogue.Blind`). Partners with related replies then cannot be told apart by
what is asked or by how it ends (`Blind.trace_eq`).
-/

namespace Handover.Dialogue

variable {I : Interface} {α β σ : Type}

/-- A program that goes on is played from where its first part left the partner. -/
theorem play_bind (partner : Partner I σ) (f : α → Dialogue I β) :
    ∀ (d : Dialogue I α) (s : σ), (d.bind f).play partner s =
      (f (d.play partner s).1).play partner (d.play partner s).2
  | done _, _ => rfl
  | ask q next, s => play_bind partner f (next (partner q s).1) (partner q s).2

/-! ## Runs -/

/-- With these exchanges, the dialogue ends with the value. -/
inductive Runs : Dialogue I α → List (Exchange I) → α → Prop
  | done (a : α) : Runs (.done a) [] a
  | ask {q : I.Request} {next : I.Reply q → Dialogue I α} {xs : List (Exchange I)} {a : α}
      (r : I.Reply q) (rest : Runs (next r) xs a) : Runs (.ask q next) (⟨q, r⟩ :: xs) a

/-- What is recorded is a run. -/
theorem runs_record (partner : Partner I σ) : ∀ (d : Dialogue I α) (s : σ),
    d.Runs (d.record partner s).2.2 (d.record partner s).1
  | .done a, _ => .done a
  | .ask q next, s => .ask (partner q s).1 (runs_record partner (next (partner q s).1) _)

/-- The replies are those of a partner, which goes from the one state to the other. -/
inductive FromPartner (partner : Partner I σ) : σ → List (Exchange I) → σ → Prop
  | nil (s : σ) : FromPartner partner s [] s
  | cons {q : I.Request} {s s' : σ} {xs : List (Exchange I)}
      (rest : FromPartner partner (partner q s).2 xs s') :
      FromPartner partner s (⟨q, (partner q s).1⟩ :: xs) s'

/-- What is recorded in a play came from the partner. -/
theorem fromPartner_record (partner : Partner I σ) : ∀ (d : Dialogue I α) (s : σ),
    FromPartner partner s (d.record partner s).2.2 (d.record partner s).2.1
  | .done _, s => .nil s
  | .ask q next, s => .cons (fromPartner_record partner (next (partner q s).1) _)

/-- A dialogue and its continuation run one after the other. -/
theorem Runs.of_bind {f : α → Dialogue I β} {b : β} : ∀ {d : Dialogue I α}
    {xs : List (Exchange I)}, (d.bind f).Runs xs b →
      ∃ a ys zs, d.Runs ys a ∧ (f a).Runs zs b ∧ xs = ys ++ zs
  | .done a, xs, h => ⟨a, [], xs, .done a, h, rfl⟩
  | .ask q next, _, .ask r rest => by
    obtain ⟨a, ys, zs, hd, hf, rfl⟩ := of_bind rest
    exact ⟨a, ⟨q, r⟩ :: ys, zs, .ask r hd, hf, rfl⟩

/-- A program that may fail fails with its first part, or goes on after it. -/
theorem Runs.of_bindCont {ε : Type} {d : Dialogue I (Except ε α)}
    {f : α → ExceptT ε (Dialogue I) β} {xs : List (Exchange I)} {r : Except ε β}
    (h : Runs (d.bind (ExceptT.bindCont f)) xs r) :
    (∃ fault, d.Runs xs (.error fault) ∧ r = .error fault) ∨
      ∃ a ys zs, d.Runs ys (.ok a) ∧ Runs (f a).run zs r ∧ xs = ys ++ zs := by
  obtain ⟨e, ys, zs, hd, hf, rfl⟩ := h.of_bind
  cases e with
  | error fault =>
    cases hf
    rw [List.append_nil]
    exact Or.inl ⟨fault, hd, rfl⟩
  | ok a => exact Or.inr ⟨a, ys, zs, hd, hf, rfl⟩

/-- A single request is one exchange. -/
theorem Runs.of_request {q : I.Request} {xs : List (Exchange I)} {r : I.Reply q}
    (h : Runs (.ask q .done) xs r) : xs = [⟨q, r⟩] := by
  cases h with
  | ask r rest =>
    cases rest
    rfl

/-! ## What is asked -/

/-- Whatever the replies, only such requests are asked. -/
def Asks (P : I.Request → Prop) : Dialogue I α → Prop
  | done _ => True
  | ask q next => P q ∧ ∀ r, (next r).Asks P

namespace Asks

variable {P : I.Request → Prop}

theorem bind {f : α → Dialogue I β} (hf : ∀ a, (f a).Asks P) :
    ∀ {d : Dialogue I α}, d.Asks P → (d.bind f).Asks P
  | done a, _ => hf a
  | ask _ _, h => ⟨h.1, fun r => bind hf (h.2 r)⟩

/-- The same of a program that may fail. -/
theorem bindCont {ε : Type} {d : Dialogue I (Except ε α)} {f : α → ExceptT ε (Dialogue I) β}
    (hd : d.Asks P) (hf : ∀ a, Asks P (f a).run) : Asks P (d.bind (ExceptT.bindCont f)) := by
  refine bind (fun e => ?_) hd
  cases e with
  | error fault => trivial
  | ok a => exact hf a

/-- What a program asks in some run is among what it may ask. -/
theorem of_runs {xs : List (Exchange I)} {a : α} : ∀ {d : Dialogue I α}, d.Asks P →
    d.Runs xs a → ∀ x ∈ xs, P x.request := by
  intro d hd h
  induction h with
  | done => simp
  | ask r rest ih => exact List.forall_mem_cons.2 ⟨hd.1, ih (hd.2 r)⟩

end Asks

/-! ## Replies that make no difference -/

/-- Related replies are followed by the same dialogue. -/
def Blind (R : (q : I.Request) → I.Reply q → I.Reply q → Prop) : Dialogue I α → Prop
  | done _ => True
  | ask q next => (∀ r r', R q r r' → next r = next r') ∧ ∀ r, (next r).Blind R

/-- The value, the state that is left behind, and what was asked. -/
def trace (partner : Partner I σ) (d : Dialogue I α) (s : σ) : α × σ × List I.Request :=
  ((d.record partner s).1, (d.record partner s).2.1,
    (d.record partner s).2.2.map Exchange.request)

/-- A trace ends as the play does. -/
theorem play_eq_trace (partner : Partner I σ) : ∀ (d : Dialogue I α) (s : σ),
    d.play partner s = ((d.trace partner s).1, (d.trace partner s).2.1)
  | done _, _ => rfl
  | ask q next, s => play_eq_trace partner (next (partner q s).1) (partner q s).2

namespace Blind

variable {R : (q : I.Request) → I.Reply q → I.Reply q → Prop}

theorem bind {f : α → Dialogue I β} (hf : ∀ a, (f a).Blind R) :
    ∀ {d : Dialogue I α}, d.Blind R → (d.bind f).Blind R
  | done a, _ => hf a
  | ask _ _, h =>
    ⟨fun r r' hr => congrArg (fun d => d.bind f) (h.1 r r' hr), fun r => bind hf (h.2 r)⟩

/-- Related replies lead to the same trace, if they leave the same states. -/
theorem trace_eq {p p' : Partner I σ} (related : ∀ q s, R q (p q s).1 (p' q s).1)
    (states : ∀ q s, (p q s).2 = (p' q s).2) :
    ∀ {d : Dialogue I α}, d.Blind R → ∀ s, d.trace p s = d.trace p' s
  | done _, _, _ => rfl
  | ask q next, h, s => by
    have hnext := h.1 _ _ (related q s)
    have hrest := trace_eq related states (h.2 (p q s).1) (p q s).2
    simp only [trace, Prod.mk.injEq] at hrest
    obtain ⟨hvalue, hstate, hasked⟩ := hrest
    simp only [trace, record, List.map_cons, hvalue, hstate, hasked]
    rw [hnext, states]

end Blind

end Handover.Dialogue

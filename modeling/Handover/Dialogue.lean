/-!
# Dialogues

A dialogue is a program that asks requests and goes on with their replies. What it does to the
world outside is exactly what it asks, in order, so that a statement about every possible
outside is a statement about every way to reply.

`play` runs a dialogue against a partner, which replies from a state of its own. `record` also
notes each request with its reply. A dialogue over one interface is part of one over a larger
interface by `translate`.
-/

namespace Handover

/-- Requests, each with the type of its reply. -/
structure Interface where
  Request : Type
  Reply : Request → Type

/-- A program that asks requests of an interface and ends with a value. -/
inductive Dialogue (I : Interface) (α : Type) where
  | done (a : α)
  | ask (q : I.Request) (next : I.Reply q → Dialogue I α)

/-- A partner that replies to requests from a state. -/
abbrev Partner (I : Interface) (σ : Type) :=
  (q : I.Request) → σ → I.Reply q × σ

/-- A request and its reply. -/
structure Exchange (I : Interface) where
  request : I.Request
  reply : I.Reply request

namespace Dialogue

variable {I J : Interface} {α β σ : Type}

/-- Goes on with the value of a dialogue. -/
def bind : Dialogue I α → (α → Dialogue I β) → Dialogue I β
  | done a, f => f a
  | ask q next, f => ask q fun r => (next r).bind f

instance : Monad (Dialogue I) where
  pure := done
  bind := bind

/-- Asks one request. -/
def request (q : I.Request) : Dialogue I (I.Reply q) :=
  ask q done

/-- Runs a dialogue against a partner. -/
def play (partner : Partner I σ) : Dialogue I α → σ → α × σ
  | done a, s => (a, s)
  | ask q next, s =>
    let (r, s) := partner q s
    (next r).play partner s

/-- Runs a dialogue against a partner and notes what was asked and replied. -/
def record (partner : Partner I σ) : Dialogue I α → σ → α × σ × List (Exchange I)
  | done a, s => (a, s, [])
  | ask q next, s =>
    let (r, s) := partner q s
    let (a, s, rest) := (next r).record partner s
    (a, s, ⟨q, r⟩ :: rest)

/-- Replaces each request by a dialogue over another interface. -/
def translate (f : (q : I.Request) → Dialogue J (I.Reply q)) : Dialogue I α → Dialogue J α
  | done a => done a
  | ask q next => (f q).bind fun r => (next r).translate f

end Dialogue

end Handover

import Handover.Ledger.Execute
import Mathlib.Logic.Function.Basic

/-!
# Addresses and what stands at them

Addresses are given out by number, and no two numbers share one (`addressOf_injective`). So an
address tells when its contract was made, and `MadeBefore` compares two of them.

Contracts are looked up by address. Every change of a contract goes through `put`, which
changes what stands at one address and nothing else (`contract?_put`).
-/

namespace Handover

namespace Ledger

/-! ## Numbers of addresses -/

/-- The digits of a padded number give the number back. -/
theorem ofDigitChars_paddedNumber (n : Nat) :
    Nat.ofDigitChars 10 (paddedNumber n).toList 0 = n := by
  rw [paddedNumber, String.toList_ofList, Nat.ofDigitChars_append,
    Nat.ofDigitChars_replicate_zero, Nat.mul_zero, Nat.ofDigitChars_ten_toDigits]

/-- No two numbers have one address. -/
theorem addressOf_injective {m n : Nat} (h : addressOf m = addressOf n) : m = n := by
  have hp : (paddedNumber m).toList = (paddedNumber n).toList := by
    simpa [addressOf] using congrArg String.toList h
  rw [← ofDigitChars_paddedNumber m, hp, ofDigitChars_paddedNumber]

/-- The first address was given out before the second. -/
def MadeBefore (a b : String) : Prop :=
  ∃ m n, m < n ∧ a = addressOf m ∧ b = addressOf n

theorem MadeBefore.trans {a b c : String} (hab : MadeBefore a b) (hbc : MadeBefore b c) :
    MadeBefore a c := by
  obtain ⟨m, n, hmn, rfl, rfl⟩ := hab
  obtain ⟨k, o, hko, hnk, rfl⟩ := hbc
  obtain rfl := addressOf_injective hnk
  exact ⟨m, o, Nat.lt_trans hmn hko, rfl, rfl⟩

theorem not_madeBefore_self (a : String) : ¬MadeBefore a a := by
  rintro ⟨m, n, hmn, rfl, h⟩
  exact absurd (addressOf_injective h) (Nat.ne_of_lt hmn)

theorem MadeBefore.ne {a b : String} (h : MadeBefore a b) : a ≠ b := by
  rintro rfl
  exact not_madeBefore_self a h

/-- No two contracts were made before one another. -/
theorem MadeBefore.asymm {a b : String} (h : MadeBefore a b) : ¬MadeBefore b a :=
  fun h' => not_madeBefore_self a (h.trans h')

/-! ## Lookups -/

/-- A contract stands at its address. -/
theorem address_of_contract? {l : Ledger} {a : String} {c : Contract}
    (h : l.contract? a = some c) : c.address = a := by
  simpa using List.find?_some h

theorem find?_putContract (c : Contract) (a : String) :
    ∀ cs : List Contract, (putContract c cs).find? (fun d => d.address == a) =
      if c.address = a then some c else cs.find? fun d => d.address == a
  | [] => by by_cases h : c.address = a <;> simp [putContract, h]
  | d :: ds => by
    by_cases hd : d.address = c.address
    · by_cases h : c.address = a <;> simp [putContract, hd, h]
    · by_cases h : d.address = a
      · have hne : c.address ≠ a := fun hc => hd (h.trans hc.symm)
        rw [putContract, if_neg hd, if_neg hne]
        simp [h]
      · rw [putContract, if_neg hd]
        simp [h, find?_putContract c a ds]

/-- Putting a contract changes what stands at its address. -/
theorem contract?_put (l : Ledger) (c : Contract) :
    (l.put c).contract? = Function.update l.contract? c.address (some c) := by
  funext a
  simp only [Function.update_apply, eq_comm (a := a)]
  exact find?_putContract c a l.contracts

/-- What was put stands at its address. -/
theorem contract?_put_self {l : Ledger} {c : Contract} {a : String} (h : c.address = a) :
    (l.put c).contract? a = some c := by
  rw [contract?_put, h, Function.update_self]

/-- At every other address stands what did. -/
theorem contract?_put_of_ne {l : Ledger} {c : Contract} {a : String} (h : a ≠ c.address) :
    (l.put c).contract? a = l.contract? a := by
  rw [contract?_put, Function.update_of_ne h]

/-- What is new where something was put is what was put, unless it was there before. -/
theorem of_contract?_put {l : Ledger} {d c : Contract} {a : String}
    (hc : (l.put d).contract? a = some c) : (a = d.address ∧ c = d) ∨ l.contract? a = some c := by
  by_cases ha : a = d.address
  · rw [contract?_put_self ha.symm] at hc
    exact Or.inl ⟨ha, (Option.some.inj hc).symm⟩
  · exact Or.inr ((contract?_put_of_ne ha).symm.trans hc)

/-- Putting a contract replaces the first at its address. -/
theorem putContract_append {c c' : Contract} (h : c.address = c'.address) (after : List Contract) :
    ∀ {before : List Contract}, (∀ d ∈ before, d.address ≠ c'.address) →
      putContract c' (before ++ c :: after) = before ++ c' :: after
  | [], _ => by rw [List.nil_append, putContract, if_pos h, List.nil_append]
  | d :: ds, hne => by
    rw [List.forall_mem_cons] at hne
    rw [List.cons_append, putContract, if_neg hne.1, putContract_append h after hne.2,
      List.cons_append]

/-- Putting a contract where one stands puts it in its place, and leaves all others in theirs. -/
theorem exists_put_eq {l : Ledger} {a : String} {c c' : Contract} (h : l.contract? a = some c)
    (ha : c'.address = a) : ∃ before after, l.contracts = before ++ c :: after ∧
      l.put c' = { l with contracts := before ++ c' :: after } := by
  obtain ⟨-, before, after, hl, hbefore⟩ := List.find?_eq_some_iff_append.1 h
  refine ⟨before, after, hl, ?_⟩
  rw [put, hl, putContract_append ((address_of_contract? h).trans ha.symm)]
  intro d hd
  simpa [ha] using hbefore d hd

@[simp] theorem contract?_afterAddress (l : Ledger) : l.afterAddress.contract? = l.contract? := rfl

@[simp] theorem instantiated_put (l : Ledger) (c : Contract) :
    (l.put c).instantiated = l.instantiated := rfl

theorem contract?_empty (a : String) : empty.contract? a = none := rfl

/-! ## Repointing dealers -/

/-- A contract after it was told of a new collection : a dealer of the old one follows. -/
def follow (old : String) (new : ContractInfo) (c : Contract) : Contract :=
  match c.model with
  | .dealer d =>
    if d.child.address = old then { c with model := .dealer { d with child := new } } else c
  | .collection _ => c

/-- No collection follows another one. -/
theorem follow_of_collection {old : String} {new : ContractInfo} {c : Contract} {s : Collection}
    (h : c.model = .collection s) : follow old new c = c := by
  simp [follow, h]

/-- Being told twice is being told once. -/
theorem follow_follow (old : String) (new : ContractInfo) (c : Contract) :
    follow old new (follow old new c) = follow old new c := by
  cases hm : c.model with
  | collection s => rw [follow_of_collection hm, follow_of_collection hm]
  | dealer d => by_cases h : d.child.address = old <;> simp [follow, hm, h]

/-- Only the contract that is told may follow. -/
theorem contract?_repoint (old : String) (new : ContractInfo) (l : Ledger) (receiver : String) :
    (repoint old new l receiver).contract? = Function.update l.contract? receiver
      ((l.contract? receiver).map (follow old new)) := by
  unfold repoint
  cases hr : l.contract? receiver with
  | none => exact (Function.update_eq_self_iff.2 hr.symm).symm
  | some c =>
    have ha := address_of_contract? hr
    cases hm : c.model with
    | collection s => simpa [hm, follow_of_collection hm] using hr
    | dealer d =>
      by_cases hd : d.child.address = old
      · simp [follow, hm, hd, contract?_put, ha]
      · have hf : follow old new c = c := by simp [follow, hm, hd]
        simpa [hm, hd, hf] using hr

/-- After an import every subscribed contract was told, however often it is subscribed. -/
theorem contract?_foldl_repoint (old : String) (new : ContractInfo) (a : String) :
    ∀ (notify : List String) (l : Ledger),
      (notify.foldl (repoint old new) l).contract? a =
        if a ∈ notify then (l.contract? a).map (follow old new) else l.contract? a
  | [], l => by simp
  | r :: rs, l => by
    rw [List.foldl_cons, contract?_foldl_repoint old new a rs, contract?_repoint]
    by_cases hr : a = r
    · subst hr
      have hf : follow old new ∘ follow old new = follow old new := funext (follow_follow old new)
      by_cases hrs : a ∈ rs <;> simp [hrs, hf]
    · simp [hr]

/-- Collections stay as they are when subscribers are told. -/
theorem contract?_foldl_repoint_of_collection {old : String} {new : ContractInfo} {l : Ledger}
    {a : String} {c : Contract} {s : Collection} (hc : l.contract? a = some c)
    (hs : c.model = .collection s) (notify : List String) :
    (notify.foldl (repoint old new) l).contract? a = some c := by
  rw [contract?_foldl_repoint, hc, Option.map_some, follow_of_collection hs, ite_self]

theorem instantiated_foldl_repoint (old : String) (new : ContractInfo) :
    ∀ (notify : List String) (l : Ledger),
      (notify.foldl (repoint old new) l).instantiated = l.instantiated
  | [], _ => rfl
  | r :: rs, l => by
    rw [List.foldl_cons, instantiated_foldl_repoint old new rs, repoint]
    split
    · split
      · split <;> rfl
      · rfl
    · rfl

/-! ## What every contract has -/

/-- Every contract on the ledger is such. -/
def Each (P : Contract → Prop) (l : Ledger) : Prop :=
  ∀ a c, l.contract? a = some c → P c

section Each

variable {P : Contract → Prop} {l : Ledger}

theorem each_empty : empty.Each P := fun _ _ h => nomatch h

/-- Every contract stays such if the one that is put is. -/
theorem Each.put (h : l.Each P) {c : Contract} (hc : P c) : (l.put c).Each P := by
  intro a d hd
  rcases of_contract?_put hd with ⟨-, rfl⟩ | hd
  · exact hc
  · exact h a d hd

/-- Dealers that are told of a new collection can be such as before. -/
theorem Each.foldl_repoint (h : l.Each P) {old : String} {new : ContractInfo}
    (hfollow : ∀ c, P c → P (follow old new c)) (notify : List String) :
    (notify.foldl (repoint old new) l).Each P := by
  intro a c hc
  rw [contract?_foldl_repoint] at hc
  split at hc
  · obtain ⟨d, hd, rfl⟩ := Option.map_eq_some_iff.1 hc
    exact hfollow d (h a d hd)
  · exact h a c hc

end Each

end Ledger

end Handover

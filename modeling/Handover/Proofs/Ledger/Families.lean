import Handover.Proofs.Ledger.Births
import Handover.Proofs.Ledger.Ownership
import Handover.Proofs.Ledger.Staffing

/-!
# Families

A contract made from scratch founds a family, a dealer together with the collection that it
brings. The family goes on with everything that is reached from it by migration (`Family`), and
it has the number of its founder. A contract belongs to one family (`existsUnique_family`), and
it stays in it for good (`Family.step`, `Family.of_step`).

`Settled` is the invariant of everything that a contract points to : it is in the family of the
contract. Since a message acts along these pointers only, it changes contracts of one family,
and what it makes either founds a family or joins that one (`Chain.Reachable.families_stay_apart`).
-/

namespace Handover

/-- The contract that a message is about : the one it calls, or the one it migrates. -/
def Msg.subject? : Msg → Option String
  | execute _ contract _ _ _ => some contract
  | m => m.migration?.map fun f => f.source.address

/-- A message that moves a contract is about this contract. -/
theorem Msg.subject?_of_migration {m : Msg} {f : Migration} (h : m.migration? = some f) :
    m.subject? = some f.source.address := by
  cases m with
  | execute _ _ _ _ _ => cases h
  | _ => simp [subject?, h]

theorem Msg.subject?_of_migrate {sender codeHash label : String} {codeId : UInt64}
    {initMsg : Json} {admin : Option String} {funds : List Coin} {m : Migration}
    (h : Wire.ofJson? initMsg = some (InstantiateMsg.migrate (α := Json) m)) :
    (instantiate sender codeId codeHash initMsg label admin funds).subject? =
      some m.source.address :=
  subject?_of_migration (migration?_of_migrate h)

/-- A message that makes a contract from scratch is about none. -/
theorem Msg.subject?_of_fresh {sender codeHash label : String} {codeId : UInt64}
    {initMsg v : Json} {admin : Option String} {funds : List Coin}
    (h : Wire.ofJson? initMsg = some (InstantiateMsg.fresh v)) :
    (instantiate sender codeId codeHash initMsg label admin funds).subject? = none := by
  simp [subject?, migration?, h]

namespace Ledger

/-! ## Families and their numbers -/

/-- A dealer with this number was made from scratch. -/
def MadeDealer (l : Ledger) (n : Nat) : Prop :=
  ∃ c, l.contract? (addressOf n) = some c ∧ c.kind = .dealer ∧ c.migratedFrom = none

/-- The family of the contract with the number `n`. A dealer from scratch brings the collection
that has the next number, so that founds no family itself. -/
inductive Family (l : Ledger) (n : Nat) : String → Prop
  | founder {c : Contract} (found : l.contract? (addressOf n) = some c)
      (fromScratch : c.migratedFrom = none) (notBrought : ∀ k, n = k + 1 → ¬l.MadeDealer k) :
      Family l n (addressOf n)
  | brought (dealer : l.MadeDealer n) : Family l n (addressOf (n + 1))
  | successor {a b : String} (h : Family l n a) (moved : l.MovesTo a b) : Family l n b

/-- Families depend on the contracts only. -/
theorem Family.congr {l l' : Ledger} (hl : l'.contract? = l.contract?) {n : Nat} {a : String}
    (ha : l.Family n a) : l'.Family n a := by
  have hdealer : ∀ k, l'.MadeDealer k ↔ l.MadeDealer k := fun k => by simp [MadeDealer, hl]
  induction ha with
  | founder found fromScratch notBrought =>
    exact .founder (hl ▸ found) fromScratch fun k hk hd => notBrought k hk ((hdealer k).1 hd)
  | brought dealer => exact .brought ((hdealer _).2 dealer)
  | successor _ moved ih => exact ih.successor (by simpa [MovesTo, hl] using moved)

/-- A new block changes no family. -/
theorem family_nextBlock {l : Ledger} {n : Nat} {a : String} :
    l.nextBlock.Family n a ↔ l.Family n a := by
  exact ⟨.congr l.contract?_nextBlock.symm, .congr l.contract?_nextBlock⟩

/-- Next to a dealer from scratch there is a collection from scratch. -/
def Paired (l : Ledger) : Prop :=
  ∀ n, l.MadeDealer n → ∃ k, l.contract? (addressOf (n + 1)) = some k ∧ k.kind = .migratable ∧
    k.migratedFrom = none

section Numbers

variable {l : Ledger} (h : l.registry.WellLinked)

include h

/-- A link back is a link. -/
theorem movesTo_of_migratedFrom {a : String} {c : Contract} {b : ContractInfo}
    (hc : l.contract? a = some c) (hb : c.migratedFrom = some b) : l.MovesTo b.address a := by
  obtain ⟨d, hd, hp⟩ := exists_predecessor h hc hb
  exact ⟨d, c, hd, hc, hp.next⟩

/-- No contract moved to one that was made from scratch. -/
theorem not_movesTo_of_migratedFrom {a b : String} {c : Contract} (hc : l.contract? b = some c)
    (hf : c.migratedFrom = none) : ¬l.MovesTo a b := by
  rintro ⟨d, e, hd, he, hde⟩
  obtain rfl := Option.some.inj (hc.symm.trans he)
  simp [(precedes_of_migratedTo h hd hc hde).previous] at hf

/-- Every contract is in a family. -/
theorem exists_family {a : String} {c : Contract} (hc : l.contract? a = some c) :
    ∃ n, l.Family n a := by
  obtain ⟨-, n, -, rfl⟩ := h.numbered a c.shell (shell?_registry hc)
  induction n using Nat.strongRecOn generalizing c with
  | ind n ih =>
    cases hb : c.migratedFrom with
    | none =>
      by_cases hbrought : ∃ k, n = k + 1 ∧ l.MadeDealer k
      · obtain ⟨k, rfl, hk⟩ := hbrought
        exact ⟨k, .brought hk⟩
      · exact ⟨n, .founder hc hb fun k hk hd => hbrought ⟨k, hk, hd⟩⟩
    | some b =>
      have hmove := movesTo_of_migratedFrom h hc hb
      obtain ⟨d, hd, -⟩ := exists_predecessor h hc hb
      obtain ⟨i, j, hij, hi, hj⟩ := hmove.madeBefore h
      obtain rfl := addressOf_injective hj
      rw [hi] at hd hmove
      obtain ⟨m, hm⟩ := ih i hij hd
      exact ⟨m, hm.successor hmove⟩

namespace Family

variable {n : Nat} {a : String}

omit h in
/-- The members of a family are contracts. -/
theorem exists_contract (hp : l.Paired) (ha : l.Family n a) : ∃ c, l.contract? a = some c := by
  cases ha with
  | founder found _ _ => exact ⟨_, found⟩
  | brought dealer =>
    obtain ⟨k, hk, -⟩ := hp n dealer
    exact ⟨k, hk⟩
  | successor _ moved =>
    obtain ⟨-, d, -, hd, -⟩ := moved
    exact ⟨d, hd⟩

/-- A contract is in one family only. -/
theorem unique (hp : l.Paired) {m : Nat} (ha : l.Family n a) (hb : l.Family m a) : n = m := by
  -- What was brought comes from nowhere, as founders do.
  have hbrought : ∀ {k b}, l.MadeDealer k → ¬l.MovesTo b (addressOf (k + 1)) := by
    intro k b hk
    obtain ⟨e, he, -, hf⟩ := hp k hk
    exact not_movesTo_of_migratedFrom h he hf
  induction ha generalizing m with
  | founder found fromScratch notBrought =>
    generalize hx : addressOf n = x at hb
    cases hb with
    | founder _ _ _ => exact addressOf_injective hx
    | brought dealer => exact absurd dealer (notBrought m (addressOf_injective hx))
    | successor _ moved =>
      exact absurd (hx ▸ moved) (not_movesTo_of_migratedFrom h found fromScratch)
  | brought dealer =>
    generalize hx : addressOf (n + 1) = x at hb
    cases hb with
    | founder _ _ notBrought => exact absurd dealer (notBrought n (addressOf_injective hx).symm)
    | brought _ => exact Nat.succ.inj (addressOf_injective hx)
    | successor _ moved => exact absurd (hx ▸ moved) (hbrought dealer)
  | @successor a b _ moved ih =>
    cases hb with
    | founder found fromScratch _ =>
      exact absurd moved (not_movesTo_of_migratedFrom h found fromScratch)
    | brought dealer => exact absurd moved (hbrought dealer)
    | successor hb' moved' =>
      obtain rfl := movesTo_leftUnique h moved moved'
      exact ih hb'

/-- A family has the number of a contract. -/
theorem le_instantiated (ha : l.Family n a) : n ≤ l.instantiated := by
  induction ha with
  | founder found _ _ =>
    obtain ⟨-, m, hm, hnm⟩ := h.numbered _ _ (shell?_registry found)
    exact addressOf_injective hnm ▸ hm
  | brought dealer =>
    obtain ⟨c, hc, -⟩ := dealer
    obtain ⟨-, m, hm, hnm⟩ := h.numbered _ _ (shell?_registry hc)
    exact addressOf_injective hnm ▸ hm
  | successor _ _ ih => exact ih

end Family

/-- Every contract is in exactly one family. -/
theorem existsUnique_family (hp : l.Paired) {a : String} {c : Contract}
    (hc : l.contract? a = some c) : ∃! n, l.Family n a := by
  obtain ⟨n, hn⟩ := exists_family h hc
  exact ⟨n, hn, fun m hm => hm.unique h hp hn⟩

end Numbers

/-! ## Steps keep families -/

section Steps

variable {rules : ChainRules} {l l' : Ledger} {m : Msg} (h : l.Reached)
  (hs : Step rules l m l')

include h hs

/-- A contract that is there was there before if its number was given out before. -/
theorem exists_before {n : Nat} {c' : Contract} (hc' : l'.contract? (addressOf n) = some c')
    (hn : n ≤ l.instantiated) : ∃ c, l.contract? (addressOf n) = some c ∧ Advances c c' := by
  obtain ⟨m, hm, -, hmn⟩ := ((h.step hs).exists_contract_iff _).1 ⟨c', hc'⟩
  obtain rfl := addressOf_injective hmn
  obtain ⟨c, hc⟩ := (h.exists_contract_iff _).2 ⟨n, hm, hn, rfl⟩
  obtain ⟨d, hd, hcd⟩ := h.advances (.cons hs .nil) _ c hc
  obtain rfl := Option.some.inj (hd.symm.trans hc')
  exact ⟨c, hc, hcd⟩

theorem MadeDealer.step {n : Nat} (hn : l.MadeDealer n) : l'.MadeDealer n := by
  obtain ⟨c, hc, hk, hf⟩ := hn
  obtain ⟨c', hc', hcc'⟩ := h.advances (.cons hs .nil) _ c hc
  exact ⟨c', hc', hcc'.kind.trans hk, hcc'.migratedFrom.trans hf⟩

/-- A dealer with a number that was given out before is not new. -/
theorem MadeDealer.of_step {n : Nat} (hn : l'.MadeDealer n) (hle : n ≤ l.instantiated) :
    l.MadeDealer n := by
  obtain ⟨c', hc', hk, hf⟩ := hn
  obtain ⟨c, hc, hcc'⟩ := exists_before h hs hc' hle
  exact ⟨c, hc, hcc'.kind.symm.trans hk, hcc'.migratedFrom.symm.trans hf⟩

/-- A new dealer from scratch comes with a new collection from scratch. -/
theorem exists_child_of_birth {a : String} {c : Contract} (hn : l.contract? a = none)
    (hc : l'.contract? a = some c) (isDealer : c.kind = .dealer) (fromScratch : c.migratedFrom = none) :
    a = l.nextAddress ∧ ∃ k, l'.contract? l.afterAddress.nextAddress = some k ∧
      k.kind = .migratable ∧ k.migratedFrom = none := by
  cases exists_birth hs hn hc with
  | collection s _ _ _ => cases isDealer
  | child s _ _ _ => cases isDealer
  | movedDealer _ d => cases fromScratch
  | movedCollection _ d => cases fromScratch
  | dealer d _ _ child =>
    refine ⟨rfl, ?_⟩
    obtain ⟨e, -, he, -, -⟩ := (h.step hs).wellStaffed.child _ _ d (shell?_registry hc) rfl
    obtain ⟨k, hk, -⟩ := exists_of_shell? he
    rw [child] at hk
    have hnone := contract?_addressOf_eq_none h.wellLinked
      (Nat.lt_add_of_pos_right (n := l.instantiated) Nat.two_pos)
    refine ⟨k, hk, ?_⟩
    -- Only the collection of a new dealer gets the second address.
    generalize hx : l.afterAddress.nextAddress = x at hk
    cases exists_birth hs (hx ▸ hnone) hk with
    | child s _ _ _ => exact ⟨rfl, rfl⟩
    | _ => exact absurd (addressOf_injective hx) (Nat.succ_ne_self _)

/-- After a step new dealers have their collections too. -/
theorem Paired.step (hp : l.Paired) : l'.Paired := by
  intro n hn
  by_cases hle : n ≤ l.instantiated
  · obtain ⟨k, hk, hkind, hf⟩ := hp n (hn.of_step h hs hle)
    obtain ⟨k', hk', hkk'⟩ := h.advances (.cons hs .nil) _ k hk
    exact ⟨k', hk', hkk'.kind.trans hkind, hkk'.migratedFrom.trans hf⟩
  · obtain ⟨c, hc, hk, hf⟩ := hn
    have hnew := contract?_addressOf_eq_none h.wellLinked (Nat.lt_of_not_le hle)
    obtain ⟨hnext, hchild⟩ := exists_child_of_birth h hs hnew hc hk hf
    obtain rfl := addressOf_injective hnext
    exact hchild

/-- What is in a family stays in it. -/
theorem Family.step {n : Nat} {a : String} (ha : l.Family n a) : l'.Family n a := by
  induction ha with
  | @founder c found fromScratch notBrought =>
    obtain ⟨c', hc', hcc'⟩ := h.advances (.cons hs .nil) _ c found
    refine .founder hc' (hcc'.migratedFrom.trans fromScratch) fun k hk hd => notBrought k hk ?_
    obtain ⟨m, -, hm, hnm⟩ := (h.exists_contract_iff _).1 ⟨c, found⟩
    obtain rfl := addressOf_injective hnm
    exact hd.of_step h hs (by omega)
  | brought dealer => exact .brought (dealer.step h hs)
  | successor _ moved ih => exact ih.successor (moved.step h hs)

/-- A contract that was there before is in no other family than before. -/
theorem Family.of_step (hp : l.Paired) {n : Nat} {a : String} {c : Contract}
    (hc : l.contract? a = some c) (ha : l'.Family n a) : l.Family n a := by
  obtain ⟨k, hk⟩ := exists_family h.wellLinked hc
  obtain rfl := ha.unique (h.step hs).wellLinked (hp.step h hs) (hk.step h hs)
  exact hk

/-! ## What is made joins or founds -/

/-- The next number was not brought by a dealer. -/
theorem not_madeDealer_instantiated (hp : l.Paired) : ¬l'.MadeDealer l.instantiated := by
  intro hd
  obtain ⟨k, hk, -⟩ := hp _ (hd.of_step h hs (Nat.le_refl _))
  simp [contract?_addressOf_eq_none h.wellLinked (Nat.lt_succ_self _)] at hk

/-- Whatever is made, there is a new contract at the next address. -/
theorem exists_next_of_new {a : String} {c : Contract} (hn : l.contract? a = none)
    (hc : l'.contract? a = some c) :
    l.contract? l.nextAddress = none ∧ ∃ e, l'.contract? l.nextAddress = some e := by
  refine ⟨contract?_addressOf_eq_none h.wellLinked (Nat.lt_succ_self _), ?_⟩
  obtain ⟨n, hpos, hle, rfl⟩ := ((h.step hs).exists_contract_iff a).1 ⟨c, hc⟩
  refine ((h.step hs).exists_contract_iff _).2 ⟨l.instantiated + 1, Nat.succ_pos _, ?_, rfl⟩
  refine Nat.le_trans (Nat.lt_of_not_le fun hold => ?_) hle
  obtain ⟨d, hd⟩ := (h.exists_contract_iff _).2 ⟨n, hpos, hold, rfl⟩
  simp [hn] at hd

/-- What is made from scratch is in a new family. -/
theorem family_of_birth (hp : l.Paired) (hm : m.subject? = none) {a : String} {c : Contract}
    (hn : l.contract? a = none) (hc : l'.contract? a = some c) :
    l'.Family (l.instantiated + 1) a := by
  have hfound : ∀ {e}, l'.contract? l.nextAddress = some e → e.migratedFrom = none →
      l'.Family (l.instantiated + 1) l.nextAddress := fun he hf =>
    .founder he hf fun k hk => Nat.succ.inj hk ▸ not_madeDealer_instantiated h hs hp
  have hbirth := exists_birth hs hn hc
  cases hbirth with
  | collection s _ _ _ => exact hfound hc rfl
  | dealer d _ _ _ => exact hfound hc rfl
  | child s code msg _ =>
    -- The dealer that brought it has the address before.
    obtain ⟨hnone, e, he⟩ := exists_next_of_new h hs hn hc
    refine .brought ⟨e, he, ?_⟩
    generalize hx : l.nextAddress = x at he
    cases exists_birth hs (hx ▸ hnone) he with
    | collection _ code' _ _ => simp [code] at code'
    | dealer _ _ _ _ => exact ⟨rfl, rfl⟩
    | child _ _ _ _ => exact absurd (addressOf_injective hx).symm (Nat.succ_ne_self _)
    | movedDealer msg' _ => simp [msg] at msg'
    | movedCollection msg' _ => simp [msg] at msg'
  | movedDealer msg _ => simp [Msg.subject?_of_migrate msg] at hm
  | movedCollection msg _ => simp [Msg.subject?_of_migrate msg] at hm

/-- What a migration makes is in the family of what it migrates. -/
theorem Family.of_birth {n : Nat} {b : String} (hb : l.Family n b) (hm : m.subject? = some b)
    {a : String} {c : Contract} (hn : l.contract? a = none) (hc : l'.contract? a = some c) :
    l'.Family n a := by
  have hmoved : ∀ {e : Contract}, l.contract? b = some e → c.migratedFrom = some e.info →
      l'.Family n a := by
    intro e he hf
    have hmove := movesTo_of_migratedFrom (h.step hs).wellLinked hc hf
    rw [show e.info.address = b from address_of_contract? he] at hmove
    exact (hb.step h hs).successor hmove
  cases exists_birth hs hn hc with
  | collection _ _ msg _ => simp [Msg.subject?_of_fresh msg] at hm
  | dealer _ _ msg _ => simp [Msg.subject?_of_fresh msg] at hm
  | child _ _ msg _ => simp [Msg.subject?_of_fresh msg] at hm
  | movedDealer msg d =>
    obtain rfl := Option.some.inj ((Msg.subject?_of_migrate msg).symm.trans hm)
    exact hmoved d.found rfl
  | movedCollection msg d =>
    obtain rfl := Option.some.inj ((Msg.subject?_of_migrate msg).symm.trans hm)
    exact hmoved d.found rfl

/-- A migration makes a contract at the next address. -/
theorem exists_next_of_migration {f : Migration} (hf : m.migration? = some f) :
    ∃ c, l'.contract? l.nextAddress = some c := by
  refine ((h.step hs).exists_contract_iff _).2 ⟨l.instantiated + 1, Nat.succ_pos _, ?_, rfl⟩
  cases hs with
  | newCollection _ _ _ _ => exact Nat.le_refl _
  | newDealer _ _ _ _ _ => exact Nat.le_succ _
  | moveDealer _ _ _ => exact Nat.le_refl _
  | moveCollection _ _ _ => exact Nat.le_refl _
  | _ => cases hf

end Steps

/-! ## What a fate does to pointers -/

namespace Fate

variable {rules : ChainRules} {l : Ledger} {a : String} {c c' : Contract} {m : Msg}

/-- A dealer keeps its collection, or the successor of that has imported everything. -/
theorem child_eq_or (hf : Fate rules l a c m c') {d' : Dealer} (hd' : c'.model = .dealer d') :
    ∃ d, c.model = .dealer d ∧ (d'.child = d.child ∨ ∃ sender address,
      ∃ i : Import l sender address, d.child.address = i.origin.address ∧
        d'.child = (i.destination i.total).info) := by
  cases hf with
  | kept => exact ⟨d', hd', Or.inl rfl⟩
  | sold _ _ _ _ => cases hd'
  | given _ _ _ => cases hd'
  | handedOver _ _ _ _ => cases hd'
  | dealerLeft _ _ _ _ => exact ⟨d', hd', Or.inl rfl⟩
  | collectionLeft _ _ _ _ => exact ⟨d', hd', Or.inl rfl⟩
  | filled _ _ _ _ => cases hd'
  | opened _ _ _ _ => cases hd'
  | retired _ _ _ _ _ => exact ⟨d', hd', Or.inl rfl⟩
  | @followed sender address _ _ _ _ _ i d isDealer _ _ _ =>
    refine ⟨d, isDealer, ?_⟩
    by_cases hd : d.child.address = i.origin.address
    · simp only [follow, isDealer, if_pos hd, Model.dealer.injEq] at hd'
      exact Or.inr ⟨sender, address, i, hd, hd' ▸ rfl⟩
    · simp only [follow, isDealer, if_neg hd, Model.dealer.injEq] at hd'
      exact Or.inl (hd' ▸ rfl)

/-- A collection keeps its subscribers, or a dealer takes the place of another one. -/
theorem notify_subset_or (hf : Fate rules l a c m c') {s' : Collection}
    (hs' : c'.model = .collection s') : ∃ s, c.model = .collection s ∧ ∀ r ∈ s'.notify,
      r ∈ s.notify ∨ ∃ f, m.migration? = some f ∧ ∃ d : DealerMove rules l.afterAddress f.source,
        d.dealer.child.address = a ∧ r = l.nextAddress := by
  have hfilled : ∀ {sender} (i : Import l sender a) (stop : UInt32), i.contract = c →
      .collection (i.filled stop) = Model.collection s' →
      ∃ s, c.model = .collection s ∧ ∀ r ∈ s'.notify, r ∈ s.notify ∨
        ∃ f, m.migration? = some f ∧ ∃ d : DealerMove rules l.afterAddress f.source,
          d.dealer.child.address = a ∧ r = l.nextAddress := by
    rintro sender i stop rfl h
    obtain rfl := Model.collection.inj h
    have hnotify : (i.filled stop).shell.notify = i.collection.shell.notify := by
      rw [i.shell_filled]
    exact ⟨i.collection, i.isCollection, fun r hr => Or.inl (hnotify ▸ hr : r ∈ i.collection.shell.notify)⟩
  cases hf with
  | kept => exact ⟨s', hs', fun r hr => Or.inl hr⟩
  | sold sale isChild _ _ =>
    obtain rfl := Model.collection.inj hs'
    exact ⟨sale.collection, isChild ▸ sale.isCollection, fun r hr => Or.inl hr⟩
  | given t isThis _ =>
    obtain rfl := Model.collection.inj hs'
    exact ⟨t.collection, isThis ▸ t.isCollection, fun r hr => Or.inl hr⟩
  | handedOver msg d isChild childAt =>
    obtain rfl := Model.collection.inj hs'
    refine ⟨d.collection, isChild ▸ d.isCollection, fun r hr => ?_⟩
    obtain ⟨x, hx, rfl⟩ := List.mem_map.1 hr
    rw [swapped]
    split
    · exact Or.inr ⟨_, Msg.migration?_of_migrate msg, d, childAt, rfl⟩
    · exact Or.inl hx
  | dealerLeft _ _ _ _ => exact ⟨s', hs', fun r hr => Or.inl hr⟩
  | collectionLeft _ _ _ _ => exact ⟨s', hs', fun r hr => Or.inl hr⟩
  | filled i isThis _ _ => exact hfilled i _ isThis hs'
  | opened i isThis _ _ => exact hfilled i _ isThis hs'
  | retired _ _ _ _ _ => exact ⟨s', hs', fun r hr => Or.inl hr⟩
  | followed i isDealer _ _ _ =>
    simp only [follow, isDealer] at hs'
    split at hs'
    · cases hs'
    · simp [isDealer] at hs'

end Fate

/-! ## Pointers stay in the family -/

/-- What a contract points to is in its family. -/
structure Settled (l : Ledger) : Prop where
  paired : l.Paired
  child : ∀ {a c d n}, l.contract? a = some c → c.model = .dealer d → l.Family n a →
    l.Family n d.child.address
  told : ∀ {a c s n r}, l.contract? a = some c → c.model = .collection s → l.Family n a →
    r ∈ s.notify → l.Family n r

namespace Settled

theorem empty : Ledger.empty.Settled := by
  constructor
  · rintro n ⟨c, hc, -⟩
    cases hc
  · intro a c d n hc
    cases hc
  · intro a c s n r hc
    cases hc

section Steps

variable {rules : ChainRules} {l l' : Ledger} {m : Msg}

/-- After a step a dealer and its collection are in one family. -/
theorem child_step (h : l.Reached) (hset : l.Settled) (hs : Step rules l m l') {a : String}
    {c' : Contract} {d' : Dealer} {n : Nat} (hc' : l'.contract? a = some c')
    (isDealer : c'.model = .dealer d') (ha : l'.Family n a) : l'.Family n d'.child.address := by
  cases hc : l.contract? a with
  | some c =>
    have hn := ha.of_step h hs hset.paired hc
    obtain ⟨e, he, hfate⟩ := exists_fate h.wellLinked hs hc
    obtain rfl := Option.some.inj (he.symm.trans hc')
    obtain ⟨d, hd, hsame | ⟨sender, address, i, horigin, hnew⟩⟩ := hfate.child_eq_or isDealer
    · exact hsame ▸ (hset.child hc hd hn).step h hs
    · -- The dealer follows its collection along a link.
      have hmove := movesTo_of_migratedFrom h.wellLinked i.found i.comesFrom
      have hdest : l.Family n address := (horigin ▸ hset.child hc hd hn).successor hmove
      rw [hnew, show (i.destination i.total).info.address = address from
        i.address_destination i.total]
      exact hdest.step h hs
  | none =>
    cases exists_birth hs hc hc' with
    | collection _ _ _ _ => cases isDealer
    | child _ _ _ _ => cases isDealer
    | movedCollection _ _ => cases isDealer
    | dealer d _ msg child =>
      obtain rfl := Model.dealer.inj isDealer
      have hfound := family_of_birth h hs hset.paired (Msg.subject?_of_fresh msg) hc hc'
      obtain rfl := ha.unique (h.step hs).wellLinked (hset.paired.step h hs) hfound
      rw [child]
      refine .brought ⟨_, hc', rfl, rfl⟩
    | movedDealer msg d =>
      obtain rfl := Model.dealer.inj isDealer
      obtain ⟨k, hk⟩ := exists_family h.wellLinked d.found
      have hnext := hk.of_birth h hs (Msg.subject?_of_migrate msg) hc hc'
      obtain rfl := ha.unique (h.step hs).wellLinked (hset.paired.step h hs) hnext
      exact (hset.child d.found d.isDealer hk).step h hs

/-- After a step a collection and those it tells are in one family. -/
theorem told_step (h : l.Reached) (hset : l.Settled) (hs : Step rules l m l') {a r : String}
    {c' : Contract} {s' : Collection} {n : Nat} (hc' : l'.contract? a = some c')
    (isCollection : c'.model = .collection s') (ha : l'.Family n a) (hr : r ∈ s'.notify) :
    l'.Family n r := by
  cases hc : l.contract? a with
  | some c =>
    have hn := ha.of_step h hs hset.paired hc
    obtain ⟨e, he, hfate⟩ := exists_fate h.wellLinked hs hc
    obtain rfl := Option.some.inj (he.symm.trans hc')
    obtain ⟨s, hm, hnotify⟩ := hfate.notify_subset_or isCollection
    rcases hnotify r hr with hold | ⟨f, hf, d, hchild, rfl⟩
    · exact (hset.told hc hm hn hold).step h hs
    · -- The new dealer is in the family of the old one, which is that of the collection.
      obtain ⟨k, hk⟩ := exists_family h.wellLinked d.found
      have hka := hset.child d.found d.isDealer hk
      rw [hchild] at hka
      obtain rfl := hka.unique h.wellLinked hset.paired hn
      obtain ⟨e, he⟩ := exists_next_of_migration h hs hf
      have hnone := contract?_addressOf_eq_none h.wellLinked (Nat.lt_succ_self l.instantiated)
      exact hk.of_birth h hs (Msg.subject?_of_migration hf) hnone he
  | none =>
    cases exists_birth hs hc hc' with
    | dealer _ _ _ _ => cases isCollection
    | movedDealer _ _ => cases isCollection
    | collection s _ _ unsubscribed =>
      obtain rfl := Model.collection.inj isCollection
      simp [unsubscribed] at hr
    | child s _ msg notify =>
      obtain rfl := Model.collection.inj isCollection
      rw [notify, List.mem_singleton] at hr
      have hfresh := fun {b e} => family_of_birth (a := b) (c := e) h hs hset.paired
        (Msg.subject?_of_fresh msg)
      obtain rfl := ha.unique (h.step hs).wellLinked (hset.paired.step h hs) (hfresh hc hc')
      obtain ⟨hnone, e, he⟩ := exists_next_of_new h hs hc hc'
      exact hr ▸ hfresh hnone he
    | movedCollection msg d =>
      obtain rfl := Model.collection.inj isCollection
      obtain ⟨k, hk⟩ := exists_family h.wellLinked d.found
      have hnext := hk.of_birth h hs (Msg.subject?_of_migrate msg) hc hc'
      obtain rfl := ha.unique (h.step hs).wellLinked (hset.paired.step h hs) hnext
      exact (hset.told d.found d.isCollection hk hr).step h hs

end Steps

end Settled

/-- On a reached ledger whatever a contract points to is in its family. -/
theorem Reached.settled {l : Ledger} (h : l.Reached) : l.Settled := by
  induction h with
  | empty => exact .empty
  | @block l _ ih =>
    exact ⟨ih.paired, fun hc hd ha => family_nextBlock.2 (ih.child hc hd (family_nextBlock.1 ha)),
      fun hc hs ha hr => family_nextBlock.2 (ih.told hc hs (family_nextBlock.1 ha) hr)⟩
  | step h hs ih =>
    exact ⟨ih.paired.step h hs, ih.child_step h hs, ih.told_step h hs⟩

/-! ## What a message changes -/

/-- A contract changes only if it is in the family of the contract that the message is about. -/
theorem Fate.eq_or_related {rules : ChainRules} {l : Ledger} {a : String} {c c' : Contract}
    {m : Msg} (hf : Fate rules l a c m c') (h : l.registry.WellLinked) (hset : l.Settled)
    (hc : l.contract? a = some c) :
    c' = c ∨ ∃ b n, m.subject? = some b ∧ l.Family n b ∧ l.Family n a := by
  have hself : m.subject? = some a → ∃ b n, m.subject? = some b ∧ l.Family n b ∧ l.Family n a := by
    intro hm
    obtain ⟨n, hn⟩ := exists_family h hc
    exact ⟨a, n, hm, hn, hn⟩
  -- Who imports is in the family of what it imports from.
  have himport : ∀ {sender address : String} (i : Import l sender address),
      ∃ n, l.Family n i.origin.address ∧ l.Family n address := by
    intro sender address i
    obtain ⟨n, hn⟩ := exists_family h i.sourceFound
    exact ⟨n, hn, hn.successor (movesTo_of_migratedFrom h i.found i.comesFrom)⟩
  cases hf with
  | kept => exact Or.inl rfl
  | @sold buyer address _ _ _ sale isChild childAt read =>
    obtain ⟨n, hn⟩ := exists_family h sale.found
    exact Or.inr ⟨address, n, rfl, hn, childAt ▸ hset.child sale.found sale.isDealer hn⟩
  | given _ _ _ => exact Or.inr (hself rfl)
  | handedOver msg d _ childAt =>
    obtain ⟨n, hn⟩ := exists_family h d.found
    exact Or.inr ⟨_, n, Msg.subject?_of_migrate msg, hn,
      childAt ▸ hset.child d.found d.isDealer hn⟩
  | dealerLeft msg _ _ sourceAt => exact Or.inr (hself (sourceAt ▸ Msg.subject?_of_migrate msg))
  | collectionLeft msg _ _ sourceAt =>
    exact Or.inr (hself (sourceAt ▸ Msg.subject?_of_migrate msg))
  | filled _ _ _ _ => exact Or.inr (hself rfl)
  | opened _ _ _ _ => exact Or.inr (hself rfl)
  | @retired _ address _ _ _ _ _ i _ sourceAt _ _ =>
    obtain ⟨n, horigin, hn⟩ := himport i
    exact Or.inr ⟨address, n, rfl, hn, sourceAt ▸ horigin⟩
  | @followed _ address _ _ _ _ _ i _ _ told _ _ =>
    obtain ⟨n, -, hn⟩ := himport i
    exact Or.inr ⟨address, n, rfl, hn, hset.told i.found i.isCollection hn told⟩

/-- The contracts of a ledger have the numbers that were given out, each is in one family, and
whatever it points to is in that too. -/
structure FallsApart (l : Ledger) : Prop where
  numbers : ∀ a, (∃ c, l.contract? a = some c) ↔
    ∃ n, 0 < n ∧ n ≤ l.instantiated ∧ a = addressOf n
  once : (l.contracts.map Contract.address).Nodup
  family : ∀ {a c}, l.contract? a = some c → ∃! n, l.Family n a
  members : ∀ {n a}, l.Family n a → ∃ c, l.contract? a = some c
  links : ∀ {a c b n}, l.contract? a = some c → l.Family n a →
    c.migratedFrom = some b ∨ c.migratedTo = some b → l.Family n b.address
  child : ∀ {a c d n}, l.contract? a = some c → c.model = .dealer d → l.Family n a →
    l.Family n d.child.address
  told : ∀ {a c s n r}, l.contract? a = some c → c.model = .collection s → l.Family n a →
    r ∈ s.notify → l.Family n r

/-- A reached ledger falls apart into families. -/
theorem Reached.fallsApart {l : Ledger} (h : l.Reached) : l.FallsApart where
  numbers := h.exists_contract_iff
  once := h.nodup_addresses
  family hc := existsUnique_family h.wellLinked h.settled.paired hc
  members ha := ha.exists_contract h.settled.paired
  links := by
    rintro a c b n hc ha (hb | hb)
    · -- Who comes before a contract is in its family, since that has only one.
      obtain ⟨d, hd, -⟩ := exists_predecessor h.wellLinked hc hb
      obtain ⟨k, hk⟩ := exists_family h.wellLinked hd
      have hka := hk.successor (movesTo_of_migratedFrom h.wellLinked hc hb)
      exact hka.unique h.wellLinked h.settled.paired ha ▸ hk
    · obtain ⟨d, hd, hp⟩ := exists_successor h.wellLinked hc hb
      exact ha.successor ⟨c, d, hc, hd, hp.next⟩
  child := h.settled.child
  told := h.settled.told

/-- A message changes contracts of one family only, that of the contract it is about. What it
makes has numbers that were not given out before. It is a family of its own if the message is
about no contract, and else it joins the family of that contract. -/
structure ActsWithin (l : Ledger) (m : Msg) (l' : Ledger) : Prop where
  changes : ∀ {a c}, l.contract? a = some c → ∃ c', l'.contract? a = some c' ∧ Advances c c' ∧
    (c' = c ∨ ∃ b n, m.subject? = some b ∧ l.Family n b ∧ l.Family n a)
  makes : ∀ {a c}, l.contract? a = none → l'.contract? a = some c →
    ∃ n, l.instantiated < n ∧ n ≤ l'.instantiated ∧ a = addressOf n
  keeps : ∀ {n a c}, l.contract? a = some c → (l'.Family n a ↔ l.Family n a)
  founds : m.subject? = none → ∀ a, l'.Family (l.instantiated + 1) a ↔
    l.contract? a = none ∧ ∃ c, l'.contract? a = some c
  joins : ∀ {b n a c}, m.subject? = some b → l.Family n b → l.contract? a = none →
    l'.contract? a = some c → l'.Family n a

/-- On a reached ledger a message acts within one family. -/
theorem Reached.actsWithin {rules : ChainRules} {l l' : Ledger} {m : Msg} (h : l.Reached)
    (hs : Step rules l m l') : l.ActsWithin m l' where
  changes {a c} hc := by
    obtain ⟨c', hc', hadvances⟩ := h.advances (.cons hs .nil) a c hc
    obtain ⟨e, he, hfate⟩ := exists_fate h.wellLinked hs hc
    obtain rfl := Option.some.inj (he.symm.trans hc')
    exact ⟨e, he, hadvances, hfate.eq_or_related h.wellLinked h.settled hc⟩
  makes {a c} hn hc := by
    obtain ⟨n, hpos, hle, rfl⟩ := ((h.step hs).exists_contract_iff a).1 ⟨c, hc⟩
    refine ⟨n, Nat.lt_of_not_le fun hold => ?_, hle, rfl⟩
    obtain ⟨d, hd⟩ := (h.exists_contract_iff _).2 ⟨n, hpos, hold, rfl⟩
    simp [hn] at hd
  keeps hc := ⟨fun ha => ha.of_step h hs h.settled.paired hc, fun ha => ha.step h hs⟩
  founds hm a := by
    constructor
    · intro ha
      refine ⟨?_, ha.exists_contract (h.step hs).settled.paired⟩
      by_contra hold
      obtain ⟨c, hc⟩ := Option.ne_none_iff_exists'.1 hold
      have hle := (ha.of_step h hs h.settled.paired hc).le_instantiated h.wellLinked
      exact absurd hle (Nat.not_succ_le_self _)
    · rintro ⟨hn, c, hc⟩
      exact family_of_birth h hs h.settled.paired hm hn hc
  joins hm hb hn hc := hb.of_birth h hs hm hn hc

end Ledger

/-- On a reachable chain every contract is in one family, with all that it points to. A message
that goes through, at any point of a transaction, changes contracts of one family only, and none
if it makes contracts from scratch. What it makes gets numbers of its own, and founds a family or
joins that one. -/
theorem Chain.Reachable.families_stay_apart {c : Chain} (h : c.Reachable) :
    c.ledger.FallsApart ∧ ∀ before outcomes l m o l',
      c.ledger.run c.rules before = .ok (outcomes, l) → Ledger.apply c.rules l m = .ok (o, l') →
        l.FallsApart ∧ l'.FallsApart ∧ l.ActsWithin m l' := by
  refine ⟨h.reached.fallsApart, fun before outcomes l m o l' hrun happly => ?_⟩
  have hl := (Ledger.ran_of_run hrun).reached h.reached.block
  have hs := Ledger.step_of_apply happly
  exact ⟨hl.fallsApart, (hl.step hs).fallsApart, hl.actsWithin hs⟩

namespace Chain

/-- The dealer that moved and its collection make up one family with what took their places. -/
theorem family_crossed : ∀ a ∈ ["secret1contract0001", "secret1contract0002",
    "secret1contract0005", "secret1contract0006"], crossed.ledger.Family 1 a := by
  have hzero : crossed.ledger.contract? (Ledger.addressOf 0) = none := by
    rw [ledger_crossed]
    rfl
  rw [ledger_crossed] at hzero ⊢
  have hmade : (crossedLedger (rivalCollection [] [])).MadeDealer 1 := ⟨_, rfl, rfl, rfl⟩
  have hdealer : (crossedLedger (rivalCollection [] [])).Family 1 "secret1contract0001" := by
    refine .founder (n := 1) (c := oldDealer "secret1contract0005") rfl rfl ?_
    rintro k hk ⟨c, hc, -⟩
    obtain rfl := Nat.succ.inj hk
    simp [hzero] at hc
  have hcollection : (crossedLedger (rivalCollection [] [])).Family 1 "secret1contract0002" :=
    .brought hmade
  have hnext : (crossedLedger (rivalCollection [] [])).Family 1 "secret1contract0005" :=
    hcollection.successor ⟨_, _, rfl, rfl, rfl⟩
  have hheir : (crossedLedger (rivalCollection [] [])).Family 1 "secret1contract0006" :=
    hdealer.successor ⟨_, _, rfl, rfl, rfl⟩
  simp [hdealer, hcollection, hnext, hheir]

/-- The dealer of the other account and its collection are another family. -/
theorem family_rival : ∀ a ∈ ["secret1contract0003", "secret1contract0004"],
    crossed.ledger.Family 3 a := by
  rw [ledger_crossed]
  have hdealer : (crossedLedger (rivalCollection [] [])).Family 3 "secret1contract0003" := by
    refine .founder (n := 3) (c := rivalDealer) rfl rfl ?_
    rintro k hk ⟨c, hc, hkind, -⟩
    obtain rfl : 2 = k := Nat.succ.inj hk
    obtain rfl : oldCollection .migratedOut = c := Option.some.inj hc
    cases hkind
  have hcollection : (crossedLedger (rivalCollection [] [])).Family 3 "secret1contract0004" :=
    .brought ⟨rivalDealer, rfl, rfl, rfl⟩
  simp [hdealer, hcollection]

/-- A sale of the one family changes it, and nothing of the other, which has four contracts. -/
theorem crossed_families_stay_apart :
    (∀ a ∈ ["secret1contract0001", "secret1contract0002", "secret1contract0005",
      "secret1contract0006"], crossed.ledger.Family 1 a) ∧
    ∃ o l', Ledger.apply crossed.rules crossed.ledger.nextBlock
      (purchaseAt "secret1contract0003") = .ok (o, l') ∧
      l'.contract? "secret1contract0004" ≠ crossed.ledger.contract? "secret1contract0004" ∧
      ∀ a, crossed.ledger.Family 1 a → l'.contract? a = crossed.ledger.contract? a := by
  have hsale : (Ledger.apply crossed.rules crossed.ledger.nextBlock
      (purchaseAt "secret1contract0003")).map (fun r => decide
        (r.2.contract? "secret1contract0004" = some (rivalCollection [] []))) = .ok false := by
    rw [rules_crossed, ledger_crossed]
    decide +kernel
  obtain ⟨⟨o, l'⟩, happly, hsold⟩ := map_eq_ok.1 hsale
  have hchild : crossed.ledger.contract? "secret1contract0004" =
      some (rivalCollection [] []) := by
    rw [ledger_crossed]
    rfl
  have hdiffers : l'.contract? "secret1contract0004" ≠ some (rivalCollection [] []) :=
    of_decide_eq_false hsold
  refine ⟨family_crossed, o, l', happly, by rwa [hchild], fun a ha => ?_⟩
  obtain ⟨hapart, hacts⟩ := reachable_crossed.families_stay_apart
  obtain ⟨hnext, -, hwithin⟩ := hacts [] [] _ _ o l' (Ledger.run_nil _ _) happly
  obtain ⟨c, hc⟩ := hapart.members ha
  rw [← Ledger.contract?_nextBlock] at hc
  obtain ⟨c', hc', -, hsame⟩ := hwithin.changes hc
  rcases hsame with rfl | ⟨b, n, hb, hnb, hna⟩
  · rw [hc', ← Ledger.contract?_nextBlock, hc]
  · -- The message is about the other family, and no contract is in both.
    obtain rfl : "secret1contract0003" = b := Option.some.inj hb
    obtain ⟨e, he⟩ := hnext.members hnb
    obtain rfl : n = 3 := (hnext.family he).unique hnb
      (Ledger.family_nextBlock.2 (family_rival _ (by simp)))
    cases (hnext.family hc).unique (Ledger.family_nextBlock.2 ha) hna

end Chain

end Handover

import Handover.Proofs.Ledger.Fate

/-!
# New contracts

What a message makes is made at an address that was not given out before. `Birth` lists the
contracts that messages make, and every contract that is new after a step is one of them
(`exists_birth`). So the contracts of a ledger are those whose numbers were given out, none of
them twice (`Reached.exists_contract_iff`, `Reached.nodup_addresses`), and none is ever
replaced by another one.
-/

namespace Handover

/-! ## Numbers that were given out -/

namespace Registry

/-- A contract stands at every address that was given out, and nowhere else. -/
def Dense (R : Registry) : Prop :=
  ∀ a, R.shell? a ≠ none ↔ ∃ n, 0 < n ∧ n ≤ R.count ∧ a = Ledger.addressOf n

/-- Something stands where a contract was put, and where something stood. -/
theorem shell?_put_ne_none {R : Registry} {c : Contract} {a : String} :
    (R.put c).shell? a ≠ none ↔ a = c.address ∨ R.shell? a ≠ none := by
  rw [shell?_put]
  by_cases ha : a = c.address <;> simp [ha]

/-- Contracts with two addresses can be put in any order. -/
theorem put_comm (R : Registry) {c d : Contract} (h : c.address ≠ d.address) :
    (R.put c).put d = (R.put d).put c := by
  simp [put, Function.update_comm h]

namespace Dense

variable {R R' : Registry}

theorem empty : Ledger.empty.registry.Dense := by
  intro a
  simp only [Ledger.registry, Ledger.empty]
  constructor
  · exact fun h => absurd rfl h
  · rintro ⟨n, hn, hle, -⟩
    exact absurd hn (Nat.not_lt.2 hle)

/-- A contract that was there can change. -/
theorem put (h : R.Dense) {c d : Contract} (hc : R.shell? c.address = some d) :
    (R.put c).Dense := by
  intro a
  rw [shell?_put_ne_none, count_put, ← h a]
  refine ⟨?_, Or.inr⟩
  rintro (rfl | ha)
  · simp [hc]
  · exact ha

/-- A contract can be made at the next address. -/
theorem add (h : R.Dense) {c : Contract} (new : c.address = R.nextAddress) :
    (R.afterAddress.put c).Dense := by
  intro a
  rw [shell?_put_ne_none, shell?_afterAddress, h a, count_put, count_afterAddress, new]
  constructor
  · rintro (rfl | ⟨n, hn, hle, rfl⟩)
    · exact ⟨R.count + 1, Nat.succ_pos _, Nat.le_refl _, rfl⟩
    · exact ⟨n, hn, Nat.le_succ_of_le hle, rfl⟩
  · rintro ⟨n, hn, hle, rfl⟩
    rcases Nat.le_succ_iff.1 hle with hle | rfl
    · exact Or.inr ⟨n, hn, hle, rfl⟩
    · exact Or.inl rfl

/-- Telling subscribers makes no contract. -/
theorem tell (h : R.Dense) (notify : List String) (old : String) (new : ContractInfo) :
    (R.tell notify old new).Dense := by
  intro a
  rw [count_tell, ← h a, Registry.tell]
  by_cases ha : a ∈ notify <;> simp [ha]

/-- A step gives out the addresses at which it makes contracts. -/
theorem step (h : R.Dense) (linked : R.WellLinked) (hs : R.Step R') : R'.Dense := by
  cases hs with
  | quiet => exact h
  | newCollection new _ => exact h.add new
  | @newDealer child address codeHash s d new childNew _ _ _ =>
    -- The dealer has the first of the two addresses.
    have hne : child.address ≠ address := by
      rw [childNew, new]
      intro he
      exact absurd (Ledger.addressOf_injective he) (by simp)
    rw [put_comm _ (by exact hne)]
    exact (h.add (c := .start address codeHash .running none (.dealer d)) new).add childNew
  | @moveDealer site source child d s new found _ _ childFound _ =>
    rw [← (linked.numbered _ child childFound).1] at childFound
    have hchild := h.put (c := child.withCollection
      { s with
        minters := s.minters.map (Ledger.swapped source.address site.address)
        notify := s.notify.map (Ledger.swapped source.address site.address) }) childFound
    obtain ⟨e, he⟩ := Option.ne_none_iff_exists'.1
      (shell?_put_ne_none.2 (Or.inr (Option.ne_none_iff_exists'.2 ⟨_, found⟩)))
    exact (hchild.put (c := Ledger.leaving source .migratedOut site) he).add new
  | @moveCollection site source s t new found _ _ _ _ _ _ =>
    exact (h.put (c := Ledger.leaving source .migrateOutStarted site) found).add new
  | @finish destination source s origin found _ _ comesFrom sourceFound =>
    obtain ⟨hsource, -, -⟩ := linked.precedes_of_import found comesFrom sourceFound
    have hopen := h.put (c := { destination with mode := .running }) found
    obtain ⟨e, he⟩ := Option.ne_none_iff_exists'.1
      (shell?_put_ne_none.2 (Or.inr (Option.ne_none_iff_exists'.2 ⟨_, hsource⟩)))
    exact (hopen.put (c := { source with mode := .migratedOut }) he).tell _ _ _

end Dense

end Registry

namespace Ledger

/-- On a reached ledger contracts stand where addresses were given out. -/
theorem Reached.dense {l : Ledger} (h : l.Reached) : l.registry.Dense := by
  induction h with
  | empty => exact .empty
  | block _ ih => exact ih
  | step h hs ih => exact ih.step h.wellLinked (registryStep_of_step hs)

/-- The contracts are those numbered from one to the number of the last one. -/
theorem Reached.exists_contract_iff {l : Ledger} (h : l.Reached) (a : String) :
    (∃ c, l.contract? a = some c) ↔ ∃ n, 0 < n ∧ n ≤ l.instantiated ∧ a = addressOf n := by
  rw [← Option.ne_none_iff_exists', show l.instantiated = l.registry.count from rfl, ← h.dense a]
  simp [registry]

/-! ## Every contract once -/

/-- Putting a contract adds no address but its own. -/
theorem mem_map_address_putContract {c : Contract} {a : String} :
    ∀ {cs : List Contract}, a ∈ (putContract c cs).map Contract.address →
      a = c.address ∨ a ∈ cs.map Contract.address
  | [], h => by simpa [putContract] using h
  | d :: ds, h => by
    rw [putContract] at h
    split at h
    · rcases List.mem_cons.1 h with ha | ha
      · exact Or.inl ha
      · exact Or.inr (List.mem_cons_of_mem _ ha)
    · rcases List.mem_cons.1 h with ha | ha
      · exact Or.inr (ha ▸ List.mem_cons_self)
      · exact (mem_map_address_putContract ha).imp_right (List.mem_cons_of_mem _)

/-- Putting a contract makes no second one at its address. -/
theorem nodup_putContract (c : Contract) :
    ∀ {cs : List Contract}, (cs.map Contract.address).Nodup →
      ((putContract c cs).map Contract.address).Nodup
  | [], _ => by simp [putContract]
  | d :: ds, h => by
    obtain ⟨hd, hds⟩ := List.nodup_cons.1 h
    rw [putContract]
    split
    · next he => exact List.nodup_cons.2 ⟨he ▸ hd, hds⟩
    · next hne =>
      refine List.nodup_cons.2 ⟨fun hmem => ?_, nodup_putContract c hds⟩
      rcases mem_map_address_putContract hmem with he | hmem
      · exact hne he
      · exact hd hmem

theorem nodup_put {l : Ledger} (h : (l.contracts.map Contract.address).Nodup) (c : Contract) :
    ((l.put c).contracts.map Contract.address).Nodup :=
  nodup_putContract c h

/-- Telling subscribers makes no second contract at an address. -/
theorem nodup_foldl_repoint (old : String) (new : ContractInfo) :
    ∀ (notify : List String) {l : Ledger}, (l.contracts.map Contract.address).Nodup →
      ((notify.foldl (repoint old new) l).contracts.map Contract.address).Nodup
  | [], _, h => h
  | r :: rs, l, h => by
    refine nodup_foldl_repoint old new rs ?_
    unfold repoint
    split
    · split
      · split
        · exact nodup_put h _
        · exact h
      · exact h
    · exact h

/-- No message makes a second contract at an address. -/
theorem nodup_step {rules : ChainRules} {l l' : Ledger} {m : Msg} (hs : Step rules l m l')
    (h : (l.contracts.map Contract.address).Nodup) :
    (l'.contracts.map Contract.address).Nodup := by
  have hafter : (l.afterAddress.contracts.map Contract.address).Nodup := h
  cases hs with
  | storeCode _ _ _ _ => exact h
  | send _ => exact h
  | newCollection _ _ _ _ => exact nodup_put hafter _
  | newDealer _ _ _ _ _ => exact nodup_put (nodup_put (l := l.afterAddress.afterAddress) h _) _
  | moveDealer _ _ d => exact nodup_put (nodup_put (nodup_put hafter _) _) _
  | moveCollection _ _ d => exact nodup_put (nodup_put hafter _) _
  | sell _ _ _ => exact nodup_put h _
  | transfer _ _ _ => exact nodup_put h _
  | importPage _ _ _ _ => exact nodup_put h _
  | finishImport _ _ _ _ _ _ => exact nodup_foldl_repoint _ _ _ (nodup_put (nodup_put h _) _)

/-- No two contracts share an address. -/
theorem Reached.nodup_addresses {l : Ledger} (h : l.Reached) :
    (l.contracts.map Contract.address).Nodup := by
  induction h with
  | empty => exact List.nodup_nil
  | block _ ih => exact ih
  | step _ hs ih => exact nodup_step hs ih

/-! ## What is made -/

/-- The contract `c` is what a message makes at `a` when it goes through. -/
inductive Birth (rules : ChainRules) (l : Ledger) : Msg → String → Contract → Prop
  | collection {sender codeHash label : String} {codeId : UInt64} {initMsg v : Json}
      {admin : Option String} {funds : List Coin} (s : Collection)
      (code : l.code? codeId = some ⟨codeHash, .migratable⟩)
      (msg : ofJson? initMsg = some (InstantiateMsg.fresh v)) (unsubscribed : s.notify = []) :
      Birth rules l (.instantiate sender codeId codeHash initMsg label admin funds) l.nextAddress
        (.start l.nextAddress codeHash .running none (.collection s))
  | dealer {sender codeHash label : String} {codeId : UInt64} {initMsg v : Json}
      {admin : Option String} {funds : List Coin} (d : Dealer)
      (code : l.code? codeId = some ⟨codeHash, .dealer⟩)
      (msg : ofJson? initMsg = some (InstantiateMsg.fresh v))
      (child : d.child.address = l.afterAddress.nextAddress) :
      Birth rules l (.instantiate sender codeId codeHash initMsg label admin funds) l.nextAddress
        (.start l.nextAddress codeHash .running none (.dealer d))
  | child {sender codeHash childHash label : String} {codeId : UInt64} {initMsg v : Json}
      {admin : Option String} {funds : List Coin} (s : Collection)
      (code : l.code? codeId = some ⟨codeHash, .dealer⟩)
      (msg : ofJson? initMsg = some (InstantiateMsg.fresh v)) (notify : s.notify = [l.nextAddress]) :
      Birth rules l (.instantiate sender codeId codeHash initMsg label admin funds)
        l.afterAddress.nextAddress
        (.start l.afterAddress.nextAddress childHash .running none (.collection s))
  | movedDealer {sender codeHash label : String} {codeId : UInt64} {initMsg : Json}
      {admin : Option String} {funds : List Coin} {m : Migration}
      (msg : ofJson? initMsg = some (InstantiateMsg.migrate (α := Json) m))
      (d : DealerMove rules l.afterAddress m.source) :
      Birth rules l (.instantiate sender codeId codeHash initMsg label admin funds) l.nextAddress
        (d.successor (l.nextSite sender codeHash))
  | movedCollection {sender codeHash label : String} {codeId : UInt64} {initMsg : Json}
      {admin : Option String} {funds : List Coin} {m : Migration}
      (msg : ofJson? initMsg = some (InstantiateMsg.migrate (α := Json) m))
      (d : CollectionMove rules l.afterAddress m.source) :
      Birth rules l (.instantiate sender codeId codeHash initMsg label admin funds) l.nextAddress
        (d.successor (l.nextSite sender codeHash))

/-- A contract that was there can change without there being a new one. -/
theorem contract?_put_eq_none {l k : Ledger} {c d : Contract} {a b : String}
    (hn : l.contract? a = none) (hc : l.contract? b = some c) (hd : d.address = c.address)
    (hk : k.contract? a = none) : (k.put d).contract? a = none := by
  rw [contract?_put_of_ne, hk]
  rintro rfl
  rw [hd, address_of_contract? hc, hc] at hn
  cases hn

/-- A contract that a message makes is one of those. -/
theorem exists_birth {rules : ChainRules} {l l' : Ledger} {m : Msg} {a : String} {c : Contract}
    (hs : Step rules l m l') (hn : l.contract? a = none) (hc : l'.contract? a = some c) :
    Birth rules l m a c := by
  have hold : ∀ {k : Ledger}, k.contract? a = none → k.contract? a ≠ some c := fun hk => by simp [hk]
  cases hs with
  | storeCode _ _ _ _ => exact absurd hc (hold hn)
  | send _ => exact absurd hc (hold hn)
  | newCollection init code msg _ =>
    obtain ⟨rfl, rfl⟩ := (of_contract?_put hc).resolve_right (hold hn)
    exact .collection _ code msg rfl
  | newDealer init code msg _ _ =>
    rcases of_contract?_put hc with ⟨rfl, rfl⟩ | hc
    · exact .dealer _ code msg rfl
    · obtain ⟨rfl, rfl⟩ := (of_contract?_put hc).resolve_right (hold hn)
      exact .child _ code msg rfl
  | moveDealer _ msg d =>
    rcases of_contract?_put hc with ⟨rfl, rfl⟩ | hc
    · exact .movedDealer msg d
    · exact absurd hc (hold (contract?_put_eq_none hn d.found rfl
        (contract?_put_eq_none hn d.childFound rfl hn)))
  | moveCollection _ msg d =>
    rcases of_contract?_put hc with ⟨rfl, rfl⟩ | hc
    · exact .movedCollection msg d
    · exact absurd hc (hold (contract?_put_eq_none hn d.found rfl hn))
  | sell sale _ _ => exact absurd hc (hold (contract?_put_eq_none hn sale.childFound rfl hn))
  | transfer t _ _ => exact absurd hc (hold (contract?_put_eq_none hn t.found rfl hn))
  | importPage i _ _ _ => exact absurd hc (hold (contract?_put_eq_none hn i.found rfl hn))
  | finishImport i _ _ _ source hs =>
    have hsource : source.address = i.source.address :=
      (address_of_contract? hs).trans (address_of_contract? i.sourceFound).symm
    have hout : ((i.opened i.total).put { source with mode := .migratedOut }).contract? a = none :=
      contract?_put_eq_none hn i.sourceFound hsource (contract?_put_eq_none hn i.found rfl hn)
    rw [Import.finished, contract?_foldl_repoint, hout] at hc
    simp at hc

end Ledger

end Handover

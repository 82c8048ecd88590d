import Handover.Proofs.Migration.Interleaving

/-!
# Contracts that left

A contract that was moved does not act any more, and what messages do to it is little : the end of
an import retires it, a dealer that moves writes the new address into its collection, and the end
of an import writes the new collection into the dealers that were subscribed to the old one. So
apart from these places (`Contract.bare`) a contract that left stays as it is for good.

The places themselves are written to only for a dealer that runs or by an import that is not over
(`Contract.ActsOn`). When nothing of the kind refers to a retired contract any more, nothing ever
will (`LeadsTo.actedOn`), and then it stays as a whole (`LeadsTo.retired`).
-/

namespace Handover

open Ledger

/-! ## What others write -/

namespace Contract

/-- A contract without what the moves of others write into it : the collection of a dealer, and
the minters and subscribers of a collection. -/
def bare (c : Contract) : Contract :=
  match c.model with
  | .dealer d => { c with model := .dealer { d with child := ⟨"", ""⟩ } }
  | .collection s => c.withCollection { s with minters := [], notify := [] }

theorem bare_of_collection {c : Contract} {s : Collection} (h : c.model = .collection s) :
    c.bare = c.withCollection { s with minters := [], notify := [] } := by
  simp [bare, h]

@[simp] theorem mode_bare (c : Contract) : c.bare.mode = c.mode := by
  unfold bare
  split <;> rfl

@[simp] theorem codeHash_bare (c : Contract) : c.bare.codeHash = c.codeHash := by
  unfold bare
  split <;> rfl

@[simp] theorem bare_mode (c : Contract) (mode : Mode) :
    ({ c with mode } : Contract).bare = { c.bare with mode } := by
  cases hm : c.model <;> simp [bare, hm, withCollection]

@[simp] theorem bare_follow (old : String) (new : ContractInfo) (c : Contract) :
    (follow old new c).bare = c.bare := by
  cases hm : c.model with
  | collection s => simp [follow, hm]
  | dealer d => by_cases hd : d.child.address = old <;> simp [follow, bare, hm, hd]

/-- The contract acts on the one at an address : it is a dealer that sells from there, or a
collection that tells of its successor there, and it is not on its way out. -/
def ActsOn (c : Contract) (a : String) : Prop :=
  match c.model with
  | .dealer d => c.mode = .running ∧ d.child.address = a
  | .collection s => (c.mode = .running ∨ c.mode = .migrateDataIn) ∧ a ∈ s.notify

/-- A dealer acts on its collection while it runs. -/
theorem actsOn_of_dealer {c : Contract} {d : Dealer} {a : String} (h : c.model = .dealer d) :
    c.ActsOn a ↔ c.mode = .running ∧ d.child.address = a := by
  simp [ActsOn, h]

/-- A collection acts on those it tells, while it runs or imports. -/
theorem actsOn_of_collection {c : Contract} {s : Collection} {a : String}
    (h : c.model = .collection s) :
    c.ActsOn a ↔ (c.mode = .running ∨ c.mode = .migrateDataIn) ∧ a ∈ s.notify := by
  simp [ActsOn, h]

@[simp] theorem actsOn_shell {c : Contract} {a : String} : c.shell.ActsOn a ↔ c.ActsOn a := by
  cases hm : c.model with
  | dealer d => rw [shell_of_dealer hm]
  | collection s =>
    rw [actsOn_of_collection (model_shell_of_collection hm), actsOn_of_collection hm, mode_shell]
    rfl

instance (c : Contract) (a : String) : Decidable (c.ActsOn a) :=
  match h : c.model with
  | .dealer _ => decidable_of_iff _ (actsOn_of_dealer h).symm
  | .collection _ => decidable_of_iff _ (actsOn_of_collection h).symm

/-- Who is on the way out acts on nothing. -/
theorem ActsOn.mode_eq_or {c : Contract} {a : String} (h : c.ActsOn a) :
    c.mode = .running ∨ c.mode = .migrateDataIn := by
  cases hm : c.model with
  | dealer d => exact Or.inl ((actsOn_of_dealer hm).1 h).1
  | collection s => exact ((actsOn_of_collection hm).1 h).1

end Contract

/-! ## Who does it -/

/-- Some contract at some address of the registry acts on the one at `a`. -/
def Registry.ActedOn (R : Registry) (a : String) : Prop :=
  ∃ b e, R.shell? b = some e ∧ e.ActsOn a

/-- A step makes nothing act on a contract that is retired : new contracts refer to new ones, or
to what the contract that they come from refers to. -/
theorem Registry.Step.actedOn {R R' : Registry} (hs : R.Step R') (h : R.WellLinked) {a : String}
    {k : Contract} (hk : R.shell? a = some k) (retired : k.mode = .migratedOut)
    (acted : R'.ActedOn a) : R.ActedOn a := by
  obtain ⟨b, e, he, acts⟩ := acted
  have hne : a ≠ R.nextAddress := h.ne_nextAddress hk
  cases hs with
  | quiet => exact ⟨b, e, he, acts⟩
  | newCollection new unsubscribed =>
    rw [shell?_put] at he
    split at he
    · obtain rfl := Option.some.inj he
      have hmem := ((Contract.actsOn_of_collection rfl).1 acts).2
      simp [unsubscribed] at hmem
    · exact ⟨b, e, he, acts⟩
  | @newDealer child address codeHash s d new childNew minters notify isChild =>
    have hchild : a ≠ child.address := by
      rintro rfl
      have hnone := h.shell?_eq_none (Nat.lt_add_of_pos_right (n := R.count) Nat.two_pos)
      exact Option.some_ne_none _ (hk.symm.trans (childNew ▸ hnone))
    rw [shell?_put, shell?_put] at he
    split at he
    · obtain rfl := Option.some.inj he
      have hac := ((Contract.actsOn_of_dealer rfl).1 acts).2
      exact absurd (hac.symm.trans (congrArg ContractInfo.address isChild)) hchild
    · split at he
      · obtain rfl := Option.some.inj he
        have hmem := ((Contract.actsOn_of_collection rfl).1 acts).2
        rw [notify, List.mem_singleton] at hmem
        exact absurd (hmem.trans new) hne
      · exact ⟨b, e, he, acts⟩
  | @moveDealer site source child d s new found isDealer running childFound isCollection =>
    rw [shell?_put, shell?_put, shell?_put] at he
    split at he
    · -- The new dealer has the collection of the old one.
      obtain rfl := Option.some.inj he
      have hac := ((Contract.actsOn_of_dealer rfl).1 acts).2
      exact ⟨_, source, found, (Contract.actsOn_of_dealer isDealer).2 ⟨running, hac⟩⟩
    · split at he
      · obtain rfl := Option.some.inj he
        simpa [leaving] using acts.mode_eq_or
      · split at he
        · -- The collection has one new subscriber, and that is new altogether.
          obtain rfl := Option.some.inj he
          obtain ⟨hmode, hmem⟩ := (Contract.actsOn_of_collection rfl).1 acts
          obtain ⟨x, hx, hxa⟩ := List.mem_map.1 hmem
          have hsame : x = a := by
            unfold swapped at hxa
            split at hxa
            · exact absurd (hxa.symm.trans new) hne
            · exact hxa
          exact ⟨_, child, childFound,
            (Contract.actsOn_of_collection isCollection).2 ⟨hmode, hsame ▸ hx⟩⟩
        · exact ⟨b, e, he, acts⟩
  | @moveCollection site source s t new found isCollection notMoved running admin minters notify =>
    rw [shell?_put, shell?_put] at he
    split at he
    · obtain rfl := Option.some.inj he
      have hmem := ((Contract.actsOn_of_collection rfl).1 acts).2
      exact ⟨_, source, found,
        (Contract.actsOn_of_collection isCollection).2 ⟨Or.inl running, notify ▸ hmem⟩⟩
    · split at he
      · obtain rfl := Option.some.inj he
        simpa [leaving] using acts.mode_eq_or
      · exact ⟨b, e, he, acts⟩
  | @finish destination source s origin found isCollection importing comesFrom sourceFound =>
    have hopened : ∀ {x e}, ((R.put { destination with mode := .running }).put
        { source with mode := .migratedOut }).shell? x = some e → e.ActsOn a → R.ActedOn a := by
      intro x e he acts
      rw [shell?_put, shell?_put] at he
      split at he
      · obtain rfl := Option.some.inj he
        simpa using acts.mode_eq_or
      · split at he
        · obtain rfl := Option.some.inj he
          have hm : ({ destination with mode := .running } : Contract).model = .collection s :=
            isCollection
          have hmem := ((Contract.actsOn_of_collection hm).1 acts).2
          exact ⟨_, destination, found,
            (Contract.actsOn_of_collection isCollection).2 ⟨Or.inr importing, hmem⟩⟩
        · exact ⟨x, e, he, acts⟩
    cases hm : e.model with
    | collection t => exact hopened ((shell?_tell_collection hm).1 he) acts
    | dealer d =>
      -- A dealer that follows has the new collection then, and that is not retired.
      obtain ⟨e₀, d₀, he₀, hd₀, hfollow⟩ := exists_of_tell_dealer hm he
      have hnew : a ≠ destination.address := by
        rintro rfl
        obtain rfl := Option.some.inj (hk.symm.trans found)
        simp [importing] at retired
      obtain ⟨hrun, hac⟩ := (Contract.actsOn_of_dealer hm).1 acts
      by_cases hd : d₀.child.address = origin.address
      · split at hfollow
        · simp only [follow, hd₀, hd, if_true] at hfollow
          subst hfollow
          obtain rfl := Model.dealer.inj hm
          exact absurd hac.symm hnew
        · exact hopened (hfollow ▸ he₀) acts
      · have hsame : e = e₀ := by
          rw [hfollow]
          split
          · simp [follow, hd₀, hd]
          · rfl
        exact hopened (hsame ▸ he₀) acts

namespace Ledger

/-- Some contract acts on the one at `a`. -/
def ActedOn (l : Ledger) (a : String) : Prop :=
  ∃ b e, l.contract? b = some e ∧ e.ActsOn a

theorem actedOn_registry {l : Ledger} {a : String} : l.registry.ActedOn a ↔ l.ActedOn a := by
  constructor
  · rintro ⟨b, e, he, acts⟩
    obtain ⟨c, hc, rfl⟩ := exists_of_shell? he
    exact ⟨b, c, hc, Contract.actsOn_shell.1 acts⟩
  · rintro ⟨b, c, hc, acts⟩
    exact ⟨b, c.shell, shell?_registry hc, Contract.actsOn_shell.2 acts⟩

/-- That nothing acts on an address can be looked up. -/
theorem not_actedOn_of_all {l : Ledger} {a : String}
    (h : (l.contracts.all fun e => ¬e.ActsOn a) = true) : ¬l.ActedOn a := by
  rintro ⟨b, e, he, acts⟩
  have hidle := List.all_eq_true.1 h e (List.mem_of_find?_eq_some he)
  exact of_decide_eq_true hidle acts

/-! ## What stays -/

/-- The second contract is the first one later on, which was on its way out already. -/
structure Stays (k k' : Contract) : Prop where
  bare : k'.bare = { k.bare with mode := k'.mode }
  mode : k'.mode = k.mode ∨ (k.mode = .migrateOutStarted ∧ k'.mode = .migratedOut)

namespace Stays

theorem refl (k : Contract) : Stays k k :=
  ⟨by rw [← Contract.mode_bare], Or.inl rfl⟩

theorem trans {k k' k'' : Contract} (h : Stays k k') (h' : Stays k' k'') : Stays k k'' where
  bare := by rw [h'.bare, h.bare]
  mode := by
    rcases h.mode with hm | ⟨hm, hm'⟩
    · exact hm ▸ h'.mode
    · refine Or.inr ⟨hm, ?_⟩
      rcases h'.mode with hm'' | ⟨hm'', -⟩
      · exact hm''.trans hm'
      · simp [hm'] at hm''

/-- Who is on the way out stays so. -/
theorem left {k k' : Contract} (h : Stays k k')
    (left : k.mode = .migrateOutStarted ∨ k.mode = .migratedOut) :
    k'.mode = .migrateOutStarted ∨ k'.mode = .migratedOut := by
  rcases h.mode with hm | ⟨-, hm⟩
  · rwa [hm]
  · exact Or.inr hm

/-- Of who is retired, everything stays but what others write. -/
theorem of_retired {k k' : Contract} (h : Stays k k') (retired : k.mode = .migratedOut) :
    k'.mode = .migratedOut ∧ k'.bare = k.bare := by
  have hmode : k'.mode = k.mode := h.mode.resolve_right fun hm => by simp [retired] at hm
  refine ⟨hmode.trans retired, ?_⟩
  rw [h.bare, hmode, ← Contract.mode_bare]

end Stays

section Steps

variable {rules : ChainRules} {l l' : Ledger} {m : Msg} {a : String} {k k' : Contract}

/-- Whatever a message does to a contract that was left, the contract stays. -/
theorem Fate.stays (hf : Fate rules l a k m k') (h : l.registry.WellLinked)
    (left : k.mode = .migrateOutStarted ∨ k.mode = .migratedOut) : Stays k k' := by
  have hrun : k.mode ≠ .running := by rcases left with hm | hm <;> simp [hm]
  have himport : k.mode ≠ .migrateDataIn := by rcases left with hm | hm <;> simp [hm]
  cases hf with
  | kept => exact .refl k
  | sold sale isChild _ _ => exact absurd (isChild ▸ sale.childRunning) hrun
  | given t isThis _ => exact absurd (isThis ▸ t.running) hrun
  | handedOver _ d isChild _ =>
    have hm := isChild ▸ d.isCollection
    refine ⟨?_, Or.inl rfl⟩
    rw [Contract.bare_of_collection rfl, Contract.bare_of_collection hm]
    rfl
  | dealerLeft _ d isSource _ => exact absurd (isSource ▸ d.running) hrun
  | collectionLeft _ d isSource _ => exact absurd (isSource ▸ d.running) hrun
  | filled i isThis _ _ => exact absurd (isThis ▸ i.importing) himport
  | opened i isThis _ _ => exact absurd (isThis ▸ i.importing) himport
  | retired i isSource _ _ _ =>
    exact ⟨Contract.bare_mode _ _, Or.inr ⟨isSource ▸ i.mode_source h, rfl⟩⟩
  | followed i isDealer _ _ _ =>
    have hmode : (follow i.origin.address (i.destination i.total).info k).mode = k.mode :=
      (Alike.follow _ _ k).mode
    refine ⟨?_, Or.inl hmode⟩
    rw [Contract.bare_follow, hmode, ← Contract.mode_bare]

/-- What nothing acts on stays as a whole once it is retired. -/
theorem Fate.eq_of_retired (hf : Fate rules l a k m k') (h : l.registry.WellLinked)
    (retired : k.mode = .migratedOut) (idle : ¬l.ActedOn a) : k' = k := by
  cases hf with
  | kept => rfl
  | sold sale isChild _ _ =>
    have hrun := isChild ▸ sale.childRunning
    simp [retired] at hrun
  | given t isThis _ =>
    have hrun := isThis ▸ t.running
    simp [retired] at hrun
  | handedOver _ d _ childAt =>
    have acts := (Contract.actsOn_of_dealer d.isDealer).2 ⟨d.running, childAt⟩
    exact absurd ⟨_, _, d.found, acts⟩ idle
  | dealerLeft _ d isSource _ =>
    have hrun := isSource ▸ d.running
    simp [retired] at hrun
  | collectionLeft _ d isSource _ =>
    have hrun := isSource ▸ d.running
    simp [retired] at hrun
  | filled i isThis _ _ =>
    have himport := isThis ▸ i.importing
    simp [retired] at himport
  | opened i isThis _ _ =>
    have himport := isThis ▸ i.importing
    simp [retired] at himport
  | retired i isSource _ _ _ =>
    have hstarted := isSource ▸ i.mode_source h
    simp [retired] at hstarted
  | followed i _ told _ _ =>
    have acts := (Contract.actsOn_of_collection i.isCollection).2 ⟨Or.inr i.importing, told⟩
    exact absurd ⟨_, _, i.found, acts⟩ idle

end Steps

namespace LeadsTo

variable {l l' : Ledger} {a : String} {k : Contract}

/-- A contract that is on its way out stays. -/
theorem stays (h : l.LeadsTo l') (hl : l.Reached) (hk : l.contract? a = some k)
    (left : k.mode = .migrateOutStarted ∨ k.mode = .migratedOut) :
    ∃ k', l'.contract? a = some k' ∧ Stays k k' := by
  induction h with
  | refl => exact ⟨k, hk, .refl k⟩
  | block _ ih => exact ih
  | step h hs ih =>
    obtain ⟨k₁, hk₁, hstays⟩ := ih
    have hlinked := (h.reached hl).wellLinked
    obtain ⟨k', hk', hfate⟩ := exists_fate hlinked hs hk₁
    exact ⟨k', hk', hstays.trans (hfate.stays hlinked (hstays.left left))⟩

/-- What nothing acts on stays as a whole once it is retired, and nothing acts on it later. -/
theorem retired (h : l.LeadsTo l') (hl : l.Reached) (hk : l.contract? a = some k)
    (retired : k.mode = .migratedOut) (idle : ¬l.ActedOn a) :
    l'.contract? a = some k ∧ ¬l'.ActedOn a := by
  induction h with
  | refl => exact ⟨hk, idle⟩
  | block _ ih => exact ih
  | step h hs ih =>
    obtain ⟨hk₁, hidle⟩ := ih
    have hlinked := (h.reached hl).wellLinked
    obtain ⟨k', hk', hfate⟩ := exists_fate hlinked hs hk₁
    obtain rfl := hfate.eq_of_retired hlinked retired hidle
    refine ⟨hk', fun acted => hidle ?_⟩
    exact actedOn_registry.1 ((registryStep_of_step hs).actedOn hlinked (shell?_registry hk₁)
      (by simpa using retired) (actedOn_registry.2 acted))

end LeadsTo

end Ledger

/-- On a reachable chain, whatever is done later, a retired contract stays as it is, but for the
collection of a dealer and the minters and subscribers of a collection. Those stay too if no
running dealer sells from the contract and no collection that runs or imports tells it of its
successor, and then nothing ever will. -/
theorem Chain.Reachable.retired_stays {c : Chain} (h : c.Reachable) {a : String} {k : Contract}
    (found : c.ledger.contract? a = some k) (retired : k.mode = .migratedOut)
    (moves : List ChainMove) :
    (∃ k', (moves.foldl after c).ledger.contract? a = some k' ∧ k'.bare = k.bare) ∧
      (¬c.ledger.ActedOn a → (moves.foldl after c).ledger.contract? a = some k ∧
        ¬(moves.foldl after c).ledger.ActedOn a) := by
  have hlead := leadsTo_foldl_after moves (.refl (l := c.ledger))
  refine ⟨?_, hlead.retired h.reached found retired⟩
  obtain ⟨k', hk', hstays⟩ := hlead.stays h.reached found (Or.inr retired)
  exact ⟨k', hk', (hstays.of_retired retired).2⟩

/-! ## Contracts that left on a chain -/

namespace Chain

/-- The chain after the collection with three tokens moved. -/
def moved : Chain :=
  moving.after (.send [importCall none none] (.ofGasLimit 200000))

theorem reachable_moved : moved.Reachable :=
  reachable_moving.move _

/-- The old collection there. -/
def retiredContract : Contract :=
  leaving saleContract .migratedOut freshContract.info

/-- Nothing acts on it. -/
theorem moved_retires : moved.ledger.contract? "secret1contract0002" = some retiredContract ∧
    ¬moved.ledger.ActedOn "secret1contract0002" := by
  have hran : ((movingLedger.run
      ⟨"secretdev-1", [(adminKey.publicKey, "secret1admin")], 2, false, false⟩
      [importCall none none]).map fun r => (totalGas r.1, r.2.contract? "secret1contract0002",
        r.2.contracts.all fun e => ¬e.ActsOn "secret1contract0002")) =
          .ok (180000, some retiredContract, true) := by
    decide +kernel
  rw [← rules_moving] at hran
  obtain ⟨⟨outcomes, l⟩, hr, hsame⟩ := map_eq_ok.1 hran
  obtain ⟨hgas, hsame⟩ := Prod.mk.inj hsame
  obtain ⟨hfound, hidle⟩ := Prod.mk.inj hsame
  have hledger : moved.ledger = l := ledger_after_send hr (hgas ▸ by decide)
  exact hledger ▸ ⟨hfound, not_actedOn_of_all hidle⟩

/-- The end of an import is told to a dealer that is retired. It follows to the new collection,
and everything else about it stays. A retired collection that nothing acts on stays as a whole
when there is another sale. -/
theorem crossing_retired_stays :
    (∃ k, crossed.ledger.contract? "secret1contract0001" = some k ∧
      k.bare = (oldDealer "secret1contract0002").bare ∧ k ≠ oldDealer "secret1contract0002" ∧
      crossing.ledger.ActedOn "secret1contract0001") ∧
    (moved.after (.send [purchase] (.ofGasLimit 600000))).ledger.contract? "secret1contract0002" =
      some retiredContract := by
  constructor
  · have hfound : crossing.ledger.contract? "secret1contract0001" =
        some (oldDealer "secret1contract0002") := by
      rw [ledger_crossing]
      rfl
    obtain ⟨⟨k, hk, hbare⟩, -⟩ := reachable_crossing.retired_stays hfound rfl
      [.send [importRest] (.ofGasLimit 200000)]
    rw [List.foldl_cons, List.foldl_nil, ← crossed] at hk
    refine ⟨k, hk, hbare, ?_, ?_⟩
    · rintro rfl
      rw [ledger_crossed] at hk
      exact absurd hk (by decide)
    · rw [ledger_crossing]
      exact ⟨"secret1contract0005", newCollection .migrateDataIn emptyCollection, rfl,
        (Contract.actsOn_of_collection rfl).2 ⟨Or.inr rfl, List.mem_cons_self⟩⟩
  · obtain ⟨hfound, hidle⟩ := moved_retires
    obtain ⟨-, hstays⟩ := reachable_moved.retired_stays hfound rfl
      [.send [purchase] (.ofGasLimit 600000)]
    exact (hstays hidle).1

end Chain

end Handover

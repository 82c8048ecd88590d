import Handover.Proofs.Ledger.Registry

/-!
# Lineages

A contract that was moved names its successor, and the successor names it. The invariant
`Registry.WellLinked` says that the two always agree, which modes they can be in together, and
that the last contract of a line runs unless it still imports. A step of the registry keeps it
(`Registry.WellLinked.step`), and moves every contract forward in its life (`Advances`).
-/

namespace Handover

open Ledger

/-! ## Pairs of contracts -/

/-- How far a contract is in its life. -/
def Mode.rank : Mode → Nat
  | migrateDataIn => 0
  | running => 1
  | migrateOutStarted => 2
  | migratedOut => 3

/-- The second contract took the place of the first, or is about to. -/
structure Precedes (c d : Contract) : Prop where
  next : c.migratedTo = some d.info
  previous : d.migratedFrom = some c.info
  sameKind : c.kind = d.kind
  sameAdmin : c.admin = d.admin
  older : MadeBefore c.address d.address
  modes : (c.kind = .migratable ∧ c.mode = .migrateOutStarted ∧ d.mode = .migrateDataIn) ∨
    (c.mode = .migratedOut ∧ d.mode ≠ .migrateDataIn)

/-- A contract as it is made : it has no successor, and it runs unless it comes from another. -/
structure Contract.Started (c : Contract) : Prop where
  last : c.migratedTo = none
  running : c.migratedFrom = none → c.mode = .running

/-- The contracts agree in all that lineages are about. -/
structure Alike (c d : Contract) : Prop where
  info : d.info = c.info
  mode : d.mode = c.mode
  migratedFrom : d.migratedFrom = c.migratedFrom
  migratedTo : d.migratedTo = c.migratedTo
  kind : d.kind = c.kind
  admin : d.admin = c.admin

/-- The second contract is the first one later in its life. -/
structure Advances (c d : Contract) : Prop where
  info : d.info = c.info
  kind : d.kind = c.kind
  admin : d.admin = c.admin
  migratedFrom : d.migratedFrom = c.migratedFrom
  migratedTo : ∀ b, c.migratedTo = some b → d.migratedTo = some b
  mode : c.mode.rank ≤ d.mode.rank

namespace Alike

theorem refl (c : Contract) : Alike c c := ⟨rfl, rfl, rfl, rfl, rfl, rfl⟩

theorem address {c d : Contract} (h : Alike c d) : d.address = c.address :=
  congrArg ContractInfo.address h.info

/-- Contracts that agree may stand for an earlier and a later one. -/
theorem advances {c d : Contract} (h : Alike c d) : Advances c d :=
  ⟨h.info, h.kind, h.admin, h.migratedFrom, fun _ hb => h.migratedTo.trans hb, h.mode ▸ Nat.le_refl _⟩

/-- Contracts like two in a line are in a line. -/
theorem precedes {c c' d d' : Contract} (hc : Alike c c') (hd : Alike d d') (h : Precedes c d) :
    Precedes c' d' where
  next := by rw [hc.migratedTo, hd.info, h.next]
  previous := by rw [hd.migratedFrom, hc.info, h.previous]
  sameKind := by rw [hc.kind, hd.kind, h.sameKind]
  sameAdmin := by rw [hc.admin, hd.admin, h.sameAdmin]
  older := by
    rw [hc.address, hd.address]
    exact h.older
  modes := by
    rw [hc.kind, hc.mode, hd.mode]
    exact h.modes

/-- Who may mint and who is told does not matter to lineages. -/
theorem withCollection {c : Contract} {s t : Collection} (hm : c.model = .collection s)
    (ht : t.admin = s.admin) : Alike c (c.withCollection t) :=
  ⟨rfl, rfl, rfl, rfl, by simp [Contract.kind, Contract.withCollection, hm],
    by simp [Contract.admin, Contract.withCollection, hm, ht]⟩

/-- A dealer that follows its collection keeps its place in the line. -/
theorem follow (old : String) (new : ContractInfo) (c : Contract) : Alike c (follow old new c) := by
  cases hm : c.model with
  | collection s => simpa [Ledger.follow, hm] using refl c
  | dealer d =>
    by_cases hd : d.child.address = old
    · simp only [Ledger.follow, hm, hd, if_true]
      exact ⟨rfl, rfl, rfl, rfl, by simp [Contract.kind, hm], by simp [Contract.admin, hm]⟩
    · simpa [Ledger.follow, hm, hd] using refl c

end Alike

namespace Advances

theorem refl (c : Contract) : Advances c c := (Alike.refl c).advances

/-- What comes later than later comes later. -/
theorem trans {c d e : Contract} (hcd : Advances c d) (hde : Advances d e) : Advances c e where
  info := hde.info.trans hcd.info
  kind := hde.kind.trans hcd.kind
  admin := hde.admin.trans hcd.admin
  migratedFrom := hde.migratedFrom.trans hcd.migratedFrom
  migratedTo b hb := hde.migratedTo b (hcd.migratedTo b hb)
  mode := Nat.le_trans hcd.mode hde.mode

/-- Whether a contract is another one later does not depend on the tokens. -/
theorem of_shell {c d : Contract} (h : Advances c.shell d.shell) : Advances c d := by
  obtain ⟨hi, hk, ha, hf, ht, hm⟩ := h
  simp only [Contract.info_shell, Contract.kind_shell, Contract.admin_shell,
    Contract.migratedFrom_shell, Contract.migratedTo_shell, Contract.mode_shell] at *
  exact ⟨hi, hk, ha, hf, ht, hm⟩

end Advances

/-- Nor does whether one comes before another. -/
theorem Precedes.of_shell {c d : Contract} (h : Precedes c.shell d.shell) : Precedes c d := by
  obtain ⟨hn, hp, hk, ha, ho, hm⟩ := h
  simp only [Contract.info_shell, Contract.kind_shell, Contract.admin_shell, Contract.address_shell,
    Contract.migratedFrom_shell, Contract.migratedTo_shell, Contract.mode_shell] at *
  exact ⟨hn, hp, hk, ha, ho, hm⟩

/-- The contract before one that no longer imports may see it retire. -/
theorem Precedes.retire {c d d' : Contract} (h : Precedes c d) (hd : d.mode ≠ .migrateDataIn)
    (hd' : (d'.info, d'.migratedFrom, d'.kind, d'.admin) = (d.info, d.migratedFrom, d.kind, d.admin))
    (hm : d'.mode ≠ .migrateDataIn) : Precedes c d' := by
  simp only [Prod.mk.injEq] at hd'
  obtain ⟨hi, hf, hk, ha⟩ := hd'
  refine ⟨hi ▸ h.next, hf ▸ h.previous, hk ▸ h.sameKind, ha ▸ h.sameAdmin, ?_, ?_⟩
  · rw [show d'.address = d.address from congrArg ContractInfo.address hi]
    exact h.older
  · rcases h.modes with ⟨-, -, h'⟩ | ⟨h', -⟩
    · exact absurd h' hd
    · exact Or.inr ⟨h', hm⟩

/-! ## The invariant -/

namespace Registry

/-- Links agree, and the modes are those of linked contracts. -/
structure WellLinked (R : Registry) : Prop where
  numbered : ∀ a c, R.shell? a = some c → c.address = a ∧ ∃ n, n ≤ R.count ∧ a = addressOf n
  next : ∀ a c b, R.shell? a = some c → c.migratedTo = some b →
    ∃ d, R.shell? b.address = some d ∧ Precedes c d
  previous : ∀ a d b, R.shell? a = some d → d.migratedFrom = some b →
    ∃ c, R.shell? b.address = some c ∧ Precedes c d
  last : ∀ a c, R.shell? a = some c → c.migratedTo = none → c.mode = .running ∨
    (c.kind = .migratable ∧ c.mode = .migrateDataIn ∧ c.migratedFrom ≠ none)

namespace WellLinked

variable {R : Registry}

/-- Every contract was made before the next one. -/
theorem madeBefore_nextAddress (h : R.WellLinked) {a : String} {c : Contract}
    (hc : R.shell? a = some c) : MadeBefore a R.nextAddress := by
  obtain ⟨-, n, hn, rfl⟩ := h.numbered a c hc
  exact ⟨n, R.count + 1, Nat.lt_succ_of_le hn, rfl, rfl⟩

theorem ne_nextAddress (h : R.WellLinked) {a : String} {c : Contract}
    (hc : R.shell? a = some c) : a ≠ R.nextAddress :=
  (h.madeBefore_nextAddress hc).ne

/-- Of two contracts at different addresses one is older. -/
theorem older_or_younger (h : R.WellLinked) {a b : String} {c d : Contract}
    (hc : R.shell? a = some c) (hd : R.shell? b = some d) (hne : a ≠ b) :
    MadeBefore a b ∨ MadeBefore b a := by
  obtain ⟨-, m, -, rfl⟩ := h.numbered a c hc
  obtain ⟨-, n, -, rfl⟩ := h.numbered b d hd
  rcases Nat.lt_trichotomy m n with hmn | rfl | hmn
  · exact Or.inl ⟨m, n, hmn, rfl, rfl⟩
  · exact absurd rfl hne
  · exact Or.inr ⟨n, m, hmn, rfl, rfl⟩

/-- A contract with a successor is on its way out. -/
theorem mode_of_migratedTo (h : R.WellLinked) {a : String} {c : Contract} {b : ContractInfo}
    (hc : R.shell? a = some c) (hb : c.migratedTo = some b) :
    c.mode = .migrateOutStarted ∨ c.mode = .migratedOut := by
  obtain ⟨d, -, hp⟩ := h.next a c b hc hb
  rcases hp.modes with ⟨-, hm, -⟩ | ⟨hm, -⟩
  · exact Or.inl hm
  · exact Or.inr hm

/-- A contract that runs or imports has no successor. -/
theorem migratedTo_eq_none (h : R.WellLinked) {a : String} {c : Contract}
    (hc : R.shell? a = some c) (hm : c.mode = .running ∨ c.mode = .migrateDataIn) :
    c.migratedTo = none := by
  cases hb : c.migratedTo with
  | none => rfl
  | some b => rcases h.mode_of_migratedTo hc hb with h' | h' <;> simp [h'] at hm

/-- No contract comes before itself. -/
theorem ne_of_precedes (h : R.WellLinked) {a : String} {c d : Contract}
    (hc : R.shell? a = some c) (hcd : Precedes c d) : a ≠ d.address := by
  rw [← (h.numbered a c hc).1]
  exact hcd.older.ne

/-- Only one contract comes before another one. -/
theorem eq_of_precedes (h : R.WellLinked) {a b : String} {c c' d : Contract}
    (hc : R.shell? a = some c) (hc' : R.shell? b = some c') (hcd : Precedes c d)
    (hcd' : Precedes c' d) : a = b := by
  have hinfo := Option.some.inj (hcd.previous.symm.trans hcd'.previous)
  rw [← (h.numbered a c hc).1, ← (h.numbered b c' hc').1]
  exact congrArg ContractInfo.address hinfo

/-- Only one contract comes after another one. -/
theorem eq_of_precedes_of_precedes (h : R.WellLinked) {a b : String} {c d d' : Contract}
    (hd : R.shell? a = some d) (hd' : R.shell? b = some d') (hcd : Precedes c d)
    (hcd' : Precedes c d') : a = b := by
  have hinfo := Option.some.inj (hcd.next.symm.trans hcd'.next)
  rw [← (h.numbered a d hd).1, ← (h.numbered b d' hd').1]
  exact congrArg ContractInfo.address hinfo

theorem empty : Ledger.empty.registry.WellLinked := by
  constructor <;> intros <;> simp_all [registry, contract?_empty]

end WellLinked

/-! ## What keeps it -/

/-- Both registries have contracts at the same addresses, and they are alike. -/
def AllAlike (R R' : Registry) : Prop :=
  R'.count = R.count ∧ ∀ a, Option.Rel Alike (R.shell? a) (R'.shell? a)

namespace AllAlike

variable {R R' : Registry}

theorem exists_after (h : AllAlike R R') {a : String} {c : Contract} (hc : R.shell? a = some c) :
    ∃ c', R'.shell? a = some c' ∧ Alike c c' := by
  have ha := h.2 a
  rw [hc] at ha
  cases hc' : R'.shell? a <;> rw [hc'] at ha
  · cases ha
  · cases ha with
    | some hcc' => exact ⟨_, rfl, hcc'⟩

theorem exists_before (h : AllAlike R R') {a : String} {c' : Contract}
    (hc' : R'.shell? a = some c') : ∃ c, R.shell? a = some c ∧ Alike c c' := by
  have ha := h.2 a
  rw [hc'] at ha
  cases hc : R.shell? a <;> rw [hc] at ha
  · cases ha
  · cases ha with
    | some hcc' => exact ⟨_, rfl, hcc'⟩

/-- A contract can be put in the place of one like it. -/
theorem put {c c' : Contract} (hc : R.shell? c.address = some c) (h : Alike c c') :
    AllAlike R (R.put c') := by
  refine ⟨rfl, fun a => ?_⟩
  rw [shell?_put, h.address]
  by_cases ha : a = c.address
  · rw [if_pos ha, ha, hc]
    exact .some h
  · rw [if_neg ha]
    cases R.shell? a with
    | none => exact .none
    | some d => exact .some (.refl d)

/-- Telling subscribers leaves all contracts alike. -/
theorem tell (R : Registry) (notify : List String) (old : String) (new : ContractInfo) :
    AllAlike R (R.tell notify old new) := by
  refine ⟨rfl, fun a => ?_⟩
  rw [Registry.tell]
  by_cases ha : a ∈ notify
  · simp only [ha, if_true]
    cases R.shell? a with
    | none => exact .none
    | some d => exact .some (.follow old new d)
  · simp only [ha, if_false]
    cases R.shell? a with
    | none => exact .none
    | some d => exact .some (.refl d)

end AllAlike

theorem shell?_put_put {R : Registry} {c d : Contract} (hcd : c.address ≠ d.address) {a : String}
    {x : Contract} : ((R.put c).put d).shell? a = some x ↔
      (a = d.address ∧ x = d) ∨ (a = c.address ∧ x = c) ∨
        (a ≠ d.address ∧ a ≠ c.address ∧ R.shell? a = some x) := by
  rw [shell?_put, shell?_put]
  by_cases had : a = d.address
  · have hac : a ≠ c.address := fun h => hcd (h.symm.trans had)
    simp [had, hcd.symm, eq_comm]
  · by_cases hac : a = c.address
    · simp [hac, hcd, eq_comm]
    · simp [had, hac]

theorem shell?_put_put_put {R : Registry} {b c d : Contract} (hbc : b.address ≠ c.address)
    (hbd : b.address ≠ d.address) (hcd : c.address ≠ d.address) {a : String} {x : Contract} :
    (((R.put b).put c).put d).shell? a = some x ↔
      (a = d.address ∧ x = d) ∨ (a = c.address ∧ x = c) ∨ (a = b.address ∧ x = b) ∨
        (a ≠ d.address ∧ a ≠ c.address ∧ a ≠ b.address ∧ R.shell? a = some x) := by
  rw [shell?_put_put hcd, shell?_put]
  by_cases hab : a = b.address
  · simp [hab, hbc, hbd, eq_comm]
  · simp [hab]

namespace WellLinked

variable {R : Registry}

/-- What changes no contract in its line leaves the lines. -/
theorem alike {R' : Registry} (h : R.WellLinked) (hR : AllAlike R R') : R'.WellLinked where
  numbered a c' hc' := by
    obtain ⟨c, hc, hcc'⟩ := hR.exists_before hc'
    rw [hR.1, hcc'.address]
    exact h.numbered a c hc
  next a c' b hc' hb := by
    obtain ⟨c, hc, hcc'⟩ := hR.exists_before hc'
    obtain ⟨d, hd, hp⟩ := h.next a c b hc (hcc'.migratedTo.symm.trans hb)
    obtain ⟨d', hd', hdd'⟩ := hR.exists_after hd
    exact ⟨d', hd', hcc'.precedes hdd' hp⟩
  previous a d' b hd' hb := by
    obtain ⟨d, hd, hdd'⟩ := hR.exists_before hd'
    obtain ⟨c, hc, hp⟩ := h.previous a d b hd (hdd'.migratedFrom.symm.trans hb)
    obtain ⟨c', hc', hcc'⟩ := hR.exists_after hc
    exact ⟨c', hc', hcc'.precedes hdd' hp⟩
  last a c' hc' hn := by
    obtain ⟨c, hc, hcc'⟩ := hR.exists_before hc'
    rw [hcc'.mode, hcc'.kind, hcc'.migratedFrom]
    exact h.last a c hc (hcc'.migratedTo.symm.trans hn)

/-- No contract stands at an address that is not given out yet. -/
theorem shell?_eq_none (h : R.WellLinked) {n : Nat} (hn : R.count < n) :
    R.shell? (addressOf n) = none := by
  cases hc : R.shell? (addressOf n) with
  | none => rfl
  | some c =>
    obtain ⟨-, m, hm, hmn⟩ := h.numbered _ c hc
    have hnm := addressOf_injective hmn
    omega

/-- A contract from scratch can be added. -/
theorem add (h : R.WellLinked) {c : Contract} {n : Nat} (hn : R.count ≤ n)
    (new : R.shell? c.address = none) (numbered : ∃ m, m ≤ n ∧ c.address = addressOf m)
    (running : c.mode = .running) (noSource : c.migratedFrom = none)
    (noSuccessor : c.migratedTo = none) : ({ R with count := n }.put c).WellLinked := by
  -- Whoever is named by an old contract is old.
  have hold : ∀ {a d}, R.shell? a = some d → ({ R with count := n }.put c).shell? a = some d := by
    intro a d hd
    rw [shell?_put, if_neg, hd]
    rintro rfl
    rw [new] at hd
    cases hd
  constructor
  · intro a d hd
    rw [shell?_put] at hd
    split at hd
    · next ha =>
      obtain rfl := Option.some.inj hd
      exact ⟨ha.symm, ha ▸ numbered⟩
    · obtain ⟨hda, m, hm, ham⟩ := h.numbered a d hd
      exact ⟨hda, m, Nat.le_trans hm hn, ham⟩
  · intro a d b hd hb
    rw [shell?_put] at hd
    split at hd
    · obtain rfl := Option.some.inj hd
      simp [noSuccessor] at hb
    · obtain ⟨e, he, hp⟩ := h.next a d b hd hb
      exact ⟨e, hold he, hp⟩
  · intro a d b hd hb
    rw [shell?_put] at hd
    split at hd
    · obtain rfl := Option.some.inj hd
      simp [noSource] at hb
    · obtain ⟨e, he, hp⟩ := h.previous a d b hd hb
      exact ⟨e, hold he, hp⟩
  · intro a d hd hnone
    rw [shell?_put] at hd
    split at hd
    · obtain rfl := Option.some.inj hd
      exact Or.inl running
    · exact h.last a d hd hnone

/-- A running contract can get a successor. -/
theorem succeed (h : R.WellLinked) {c d : Contract} {mode : Mode}
    (hc : R.shell? c.address = some c) (running : c.mode = .running)
    (new : d.address = R.nextAddress) (source : d.migratedFrom = some c.info)
    (noSuccessor : d.migratedTo = none) (sameKind : c.kind = d.kind) (sameAdmin : c.admin = d.admin)
    (modes : (c.kind = .migratable ∧ mode = .migrateOutStarted ∧ d.mode = .migrateDataIn) ∨
      (mode = .migratedOut ∧ d.mode = .running)) :
    ((R.afterAddress.put (leaving c mode d.info)).put d).WellLinked := by
  have hcd : c.address ≠ d.address := new ▸ h.ne_nextAddress hc
  have hnone := h.migratedTo_eq_none hc (Or.inl running)
  have hmode : mode ≠ .migrateDataIn := by
    rcases modes with ⟨-, hm, -⟩ | ⟨hm, -⟩ <;> simp [hm]
  have hp : Precedes (leaving c mode d.info) d :=
    ⟨rfl, source, sameKind, sameAdmin, new ▸ h.madeBefore_nextAddress hc,
      modes.imp_right fun ⟨hm, hd⟩ => ⟨hm, by simp [hd]⟩⟩
  have hprev : ∀ {x}, Precedes x c → Precedes x (leaving c mode d.info) := fun hxc =>
    hxc.retire (by simp [running]) rfl hmode
  have hlook := @shell?_put_put R.afterAddress (leaving c mode d.info) d hcd
  have hkept : ∀ {a x}, R.shell? a = some x → a ≠ c.address →
      ((R.afterAddress.put (leaving c mode d.info)).put d).shell? a = some x := fun hx hne =>
    hlook.2 (Or.inr (Or.inr ⟨new ▸ h.ne_nextAddress hx, hne, hx⟩))
  have hleft : ((R.afterAddress.put (leaving c mode d.info)).put d).shell? c.address =
      some (leaving c mode d.info) := hlook.2 (Or.inr (Or.inl ⟨rfl, rfl⟩))
  constructor
  · intro a x hx
    rcases hlook.1 hx with ⟨rfl, rfl⟩ | ⟨rfl, rfl⟩ | ⟨-, -, hx⟩
    · exact ⟨rfl, R.count + 1, Nat.le_refl _, new⟩
    · obtain ⟨-, n, hn, han⟩ := h.numbered _ c hc
      exact ⟨rfl, n, Nat.le_succ_of_le hn, han⟩
    · obtain ⟨hxa, n, hn, han⟩ := h.numbered a x hx
      exact ⟨hxa, n, Nat.le_succ_of_le hn, han⟩
  · intro a x b hx hb
    rcases hlook.1 hx with ⟨rfl, rfl⟩ | ⟨rfl, rfl⟩ | ⟨-, -, hx⟩
    · simp [noSuccessor] at hb
    · obtain rfl := Option.some.inj hb
      exact ⟨d, hlook.2 (Or.inl ⟨rfl, rfl⟩), hp⟩
    · obtain ⟨y, hy, hxy⟩ := h.next a x b hx hb
      by_cases hbc : b.address = c.address
      · rw [hbc] at hy ⊢
        obtain rfl := Option.some.inj (hy.symm.trans hc)
        exact ⟨_, hleft, hprev hxy⟩
      · exact ⟨y, hkept hy hbc, hxy⟩
  · intro a y b hy hb
    rcases hlook.1 hy with ⟨rfl, rfl⟩ | ⟨rfl, rfl⟩ | ⟨-, hne, hy⟩
    · obtain rfl := Option.some.inj (source.symm.trans hb)
      exact ⟨_, hleft, hp⟩
    · obtain ⟨x, hx, hxc⟩ := h.previous _ c b hc hb
      exact ⟨x, hkept hx (h.ne_of_precedes hx hxc), hprev hxc⟩
    · obtain ⟨x, hx, hxy⟩ := h.previous a y b hy hb
      refine ⟨x, hkept hx ?_, hxy⟩
      intro hbc
      rw [hbc] at hx
      obtain rfl := Option.some.inj (hx.symm.trans hc)
      simp [hxy.next] at hnone
  · intro a x hx hn
    rcases hlook.1 hx with ⟨rfl, rfl⟩ | ⟨rfl, rfl⟩ | ⟨-, -, hx⟩
    · rcases modes with ⟨hk, -, hm⟩ | ⟨-, hm⟩
      · exact Or.inr ⟨sameKind.symm.trans hk, hm, by simp [source]⟩
      · exact Or.inl hm
    · cases hn
    · exact h.last a x hx hn

/-- An import can come to its end. -/
theorem close (h : R.WellLinked) {c d : Contract} (hc : R.shell? c.address = some c)
    (hd : R.shell? d.address = some d) (hcd : Precedes c d) (importing : d.mode = .migrateDataIn) :
    ((R.put { d with mode := .running }).put { c with mode := .migratedOut }).WellLinked := by
  have hne : d.address ≠ c.address := hcd.older.ne.symm
  have hout : c.mode = .migrateOutStarted := by
    rcases hcd.modes with ⟨-, hm, -⟩ | ⟨-, hm⟩
    · exact hm
    · exact absurd importing hm
  have hp : Precedes { c with mode := .migratedOut } { d with mode := .running } :=
    ⟨hcd.next, hcd.previous, hcd.sameKind, hcd.sameAdmin, hcd.older, Or.inr ⟨rfl, by simp⟩⟩
  have hprev : ∀ {x}, Precedes x c → Precedes x { c with mode := .migratedOut } := fun hxc =>
    hxc.retire (by simp [hout]) rfl (by simp)
  have hlook := @shell?_put_put R { d with mode := .running } { c with mode := .migratedOut } hne
  have hleft : ((R.put { d with mode := .running }).put
      { c with mode := .migratedOut }).shell? c.address = some { c with mode := .migratedOut } :=
    hlook.2 (Or.inl ⟨rfl, rfl⟩)
  have hdone : ((R.put { d with mode := .running }).put
      { c with mode := .migratedOut }).shell? d.address = some { d with mode := .running } :=
    hlook.2 (Or.inr (Or.inl ⟨rfl, rfl⟩))
  have hkept : ∀ {a x}, R.shell? a = some x → a ≠ c.address → a ≠ d.address →
      ((R.put { d with mode := .running }).put { c with mode := .migratedOut }).shell? a =
        some x := fun hx hac had => hlook.2 (Or.inr (Or.inr ⟨hac, had, hx⟩))
  have hlast := h.migratedTo_eq_none hd (Or.inr importing)
  constructor
  · intro a x hx
    rcases hlook.1 hx with ⟨rfl, rfl⟩ | ⟨rfl, rfl⟩ | ⟨-, -, hx⟩
    · exact ⟨rfl, (h.numbered _ c hc).2⟩
    · exact ⟨rfl, (h.numbered _ d hd).2⟩
    · exact h.numbered a x hx
  · intro a x b hx hb
    rcases hlook.1 hx with ⟨rfl, rfl⟩ | ⟨rfl, rfl⟩ | ⟨hac, -, hx'⟩
    · obtain rfl := Option.some.inj (hcd.next.symm.trans hb)
      exact ⟨_, hdone, hp⟩
    · simp [hlast] at hb
    · obtain ⟨y, hy, hxy⟩ := h.next a x b hx' hb
      by_cases hbc : b.address = c.address
      · rw [hbc] at hy ⊢
        obtain rfl := Option.some.inj (hy.symm.trans hc)
        exact ⟨_, hleft, hprev hxy⟩
      · refine ⟨y, hkept hy hbc ?_, hxy⟩
        intro hbd
        rw [hbd] at hy
        obtain rfl := Option.some.inj (hy.symm.trans hd)
        exact hac (h.eq_of_precedes hx' hc hxy hcd)
  · intro a y b hy hb
    rcases hlook.1 hy with ⟨rfl, rfl⟩ | ⟨rfl, rfl⟩ | ⟨-, had, hy'⟩
    · obtain ⟨x, hx, hxc⟩ := h.previous _ c b hc hb
      refine ⟨x, hkept hx (h.ne_of_precedes hx hxc) ?_, hprev hxc⟩
      rw [← (h.numbered _ x hx).1]
      exact (hxc.older.trans hcd.older).ne
    · obtain rfl := Option.some.inj (hcd.previous.symm.trans hb)
      exact ⟨_, hleft, hp⟩
    · obtain ⟨x, hx, hxy⟩ := h.previous a y b hy' hb
      refine ⟨x, hkept hx ?_ ?_, hxy⟩
      · intro hbc
        rw [hbc] at hx
        obtain rfl := Option.some.inj (hx.symm.trans hc)
        exact had (h.eq_of_precedes_of_precedes hy' hd hxy hcd)
      · intro hbd
        rw [hbd] at hx
        obtain rfl := Option.some.inj (hx.symm.trans hd)
        simp [hxy.next] at hlast
  · intro a x hx hn
    rcases hlook.1 hx with ⟨rfl, rfl⟩ | ⟨rfl, rfl⟩ | ⟨-, -, hx⟩
    · simp [hcd.next] at hn
    · exact Or.inl rfl
    · exact h.last a x hx hn

/-- Who imports is preceded by whom it imports from. -/
theorem precedes_of_import (h : R.WellLinked) {c d : Contract} {origin : ContractInfo}
    (hd : R.shell? d.address = some d) (hf : d.migratedFrom = some origin)
    (hc : (R.put { d with mode := .running }).shell? origin.address = some c) :
    R.shell? c.address = some c ∧ origin = c.info ∧ Precedes c d := by
  obtain ⟨b, hb, hbd⟩ := h.previous _ d origin hd hf
  have ha := (h.numbered _ b hb).1
  have hne : origin.address ≠ d.address := ha ▸ hbd.older.ne
  rw [shell?_put, if_neg hne, hb] at hc
  obtain rfl := Option.some.inj hc
  rw [ha]
  exact ⟨hb, Option.some.inj (hf.symm.trans hbd.previous), hbd⟩

/-! ## Steps keep it -/

/-- Every step leaves well linked contracts. -/
theorem step {R' : Registry} (h : R.WellLinked) (hs : R.Step R') : R'.WellLinked := by
  cases hs with
  | quiet => exact h
  | newCollection new _ =>
    subst new
    exact h.add (Nat.le_succ _) (h.shell?_eq_none (Nat.lt_succ_self _)) ⟨_, Nat.le_refl _, rfl⟩
      rfl rfl rfl
  | @newDealer child address codeHash s d new childNew _ _ _ =>
    subst new
    have hne : R.nextAddress ≠ child.address := by
      rw [childNew]
      intro he
      exact absurd (addressOf_injective he) (by simp)
    have hchild := h.add (c := .start child.address child.codeHash .running none (.collection s))
      (n := R.count + 2) (Nat.le_add_right _ _)
      (childNew ▸ h.shell?_eq_none (Nat.lt_add_of_pos_right Nat.two_pos))
      ⟨_, Nat.le_refl _, childNew⟩ rfl rfl rfl
    refine hchild.add (Nat.le_refl _) ?_ ⟨R.count + 1, Nat.le_succ _, rfl⟩ rfl rfl rfl
    rw [shell?_put, if_neg (by exact hne)]
    exact h.shell?_eq_none (Nat.lt_succ_self _)
  | @moveDealer site source child d s new found isDealer running childFound isCollection =>
    rw [← (h.numbered _ child childFound).1] at childFound
    have hne : source.address ≠ child.address := by
      intro he
      rw [he, childFound] at found
      obtain rfl := Option.some.inj found
      simp [isCollection] at isDealer
    -- The collection only learns of the new dealer, so the links are as before.
    have hR := h.alike (.put childFound (.withCollection isCollection
      (t := { s with
        minters := s.minters.map (swapped source.address site.address)
        notify := s.notify.map (swapped source.address site.address) }) rfl))
    refine hR.succeed (d := .start site.address site.codeHash .running (some source.info)
      (.dealer d)) ?_ running new rfl rfl (by simp [Contract.kind, Contract.start, isDealer])
      (by simp [Contract.admin, Contract.start, isDealer]) (Or.inr ⟨rfl, rfl⟩)
    rw [shell?_put, if_neg (by exact hne), found]
  | @moveCollection site source s t new found isCollection notMoved running admin _ _ =>
    exact h.succeed found running new rfl rfl (by simp [Contract.kind, Contract.start, isCollection])
      (by simp [Contract.admin, Contract.start, isCollection, admin])
      (Or.inl ⟨by simp [Contract.kind, isCollection], rfl, rfl⟩)
  | finish found isCollection importing comesFrom sourceFound =>
    obtain ⟨hsource, -, hp⟩ := h.precedes_of_import found comesFrom sourceFound
    exact (h.close hsource found hp importing).alike (.tell _ _ _ _)

/-- Steps move contracts forward. -/
theorem advances {R' : Registry} (h : R.WellLinked) (hs : R.Step R') {a : String} {c : Contract}
    (hc : R.shell? a = some c) : ∃ c', R'.shell? a = some c' ∧ Advances c c' := by
  have hput : ∀ {S : Registry} {d : Contract}, (a = d.address → Advances c d) →
      (∃ c', S.shell? a = some c' ∧ Advances c c') →
      ∃ c', (S.put d).shell? a = some c' ∧ Advances c c' := by
    intro S d hd hS
    rw [shell?_put]
    split
    · next ha => exact ⟨d, rfl, hd ha⟩
    · exact hS
  have hsame : ∃ c', R.shell? a = some c' ∧ Advances c c' := ⟨c, hc, .refl c⟩
  have hnew : ∀ {n}, R.count < n → a ≠ addressOf n := by
    rintro n hn rfl
    simp [h.shell?_eq_none hn] at hc
  -- What is put in place of `c` is `c` later on.
  have hthis : ∀ {d d' : Contract}, R.shell? d.address = some d → Advances d d' →
      a = d'.address → Advances c d' := by
    intro d d' hd hdd' ha
    have hda : d'.address = d.address := congrArg ContractInfo.address hdd'.info
    rw [ha, hda, hd] at hc
    exact Option.some.inj hc ▸ hdd'
  cases hs with
  | quiet => exact hsame
  | newCollection new _ =>
    exact hput (fun ha => absurd (ha.trans new) (hnew (Nat.lt_succ_self _))) hsame
  | newDealer _ new childNew _ _ _ =>
    exact hput (fun ha => absurd (ha.trans new) (hnew (Nat.lt_succ_self _)))
      (hput (fun ha => absurd (ha.trans childNew) (hnew (Nat.lt_add_of_pos_right Nat.two_pos)))
        hsame)
  | @moveDealer site source child d s new found isDealer running childFound isCollection =>
    rw [← (h.numbered _ child childFound).1] at childFound
    have hleave : Advances source (leaving source .migratedOut site) :=
      ⟨rfl, rfl, rfl, rfl,
        by simp [h.migratedTo_eq_none found (Or.inl running)], by simp [leaving, running, Mode.rank]⟩
    exact hput (fun ha => absurd (ha.trans new) (hnew (Nat.lt_succ_self _)))
      (hput (hthis found hleave)
        (hput (hthis childFound (Alike.withCollection isCollection (by rfl)).advances) hsame))
  | @moveCollection site source s t new found isCollection notMoved running _ _ _ =>
    have hleave : Advances source (leaving source .migrateOutStarted site) :=
      ⟨rfl, rfl, rfl, rfl, by simp [notMoved], by simp [leaving, running, Mode.rank]⟩
    exact hput (fun ha => absurd (ha.trans new) (hnew (Nat.lt_succ_self _)))
      (hput (hthis found hleave) hsame)
  | @finish destination source s origin found isCollection importing comesFrom sourceFound =>
    obtain ⟨hsource, -, hp⟩ := h.precedes_of_import found comesFrom sourceFound
    have hopen : Advances destination { destination with mode := .running } :=
      ⟨rfl, rfl, rfl, rfl, fun _ hb => hb, by simp [importing, Mode.rank]⟩
    have hretire : Advances source { source with mode := .migratedOut } :=
      ⟨rfl, rfl, rfl, rfl, fun _ hb => hb, by cases source.mode <;> simp [Mode.rank]⟩
    obtain ⟨c₁, hc₁, hcc₁⟩ := hput (hthis hsource hretire) (hput (hthis found hopen) hsame)
    obtain ⟨c₂, hc₂, hc₁c₂⟩ := (AllAlike.tell _ s.notify origin.address destination.info).exists_after hc₁
    exact ⟨c₂, hc₂, hcc₁.trans hc₁c₂.advances⟩

/-- A new contract has no successor, and it runs unless it comes from another one. -/
theorem started_of_new {R' : Registry} (h : R.WellLinked) (hs : R.Step R') {a : String}
    {c : Contract} (hn : R.shell? a = none) (hc : R'.shell? a = some c) : c.Started := by
  -- What is put in place of an old contract is not new.
  have hput : ∀ {S : Registry} {d : Contract}, (S.put d).shell? a = some c →
      (a = d.address → R.shell? d.address ≠ none ∨ d.Started) →
      (S.shell? a = some c → c.Started) → c.Started := by
    intro S d hc hd hS
    rw [shell?_put] at hc
    split at hc
    · next ha =>
      obtain rfl := Option.some.inj hc
      exact (hd ha).resolve_left fun ho => ho (ha ▸ hn)
    · exact hS hc
  have hR : R.shell? a = some c → c.Started := fun hc => by simp [hn] at hc
  have hrun : ∀ address codeHash source model,
      (Contract.start address codeHash .running source model).Started :=
    fun _ _ _ _ => ⟨rfl, fun _ => rfl⟩
  cases hs with
  | quiet => exact hR hc
  | newCollection _ _ => exact hput hc (fun _ => Or.inr (hrun _ _ _ _)) hR
  | newDealer _ _ _ _ _ _ =>
    exact hput hc (fun _ => Or.inr (hrun _ _ _ _)) fun hc =>
      hput hc (fun _ => Or.inr (hrun _ _ _ _)) hR
  | @moveDealer site source child d s new found _ _ childFound _ =>
    rw [← (h.numbered _ child childFound).1] at childFound
    refine hput hc (fun _ => Or.inr (hrun _ _ _ _)) fun hc => hput hc (fun _ => Or.inl ?_) fun hc =>
      hput hc (fun _ => Or.inl ?_) hR
    · simp [leaving, found]
    · simp [Contract.withCollection, childFound]
  | moveCollection site new found _ _ _ _ _ _ =>
    refine hput hc (fun _ => Or.inr ⟨rfl, fun hf => ?_⟩) fun hc => hput hc (fun _ => Or.inl ?_) hR
    · cases hf
    · simp [leaving, found]
  | finish found _ _ comesFrom sourceFound =>
    obtain ⟨hsource, -, -⟩ := h.precedes_of_import found comesFrom sourceFound
    obtain ⟨c₀, hc₀, -⟩ := (AllAlike.tell _ _ _ _).exists_before hc
    rw [shell?_put, shell?_put] at hc₀
    split at hc₀
    · next ha => simp [ha, hsource] at hn
    · split at hc₀
      · next ha => simp [ha, found] at hn
      · simp [hn] at hc₀

end WellLinked

end Registry

end Handover

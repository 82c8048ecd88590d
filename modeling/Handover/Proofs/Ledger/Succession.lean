import Handover.Proofs.Ledger.Lineage
import Mathlib.Logic.Relation

/-!
# Lines of contracts

`MovesTo` follows the link from a contract to its successor. In a reached ledger it goes from
older to younger contracts and branches in neither direction, so the contracts that links join
form a line, from one made from scratch to one without successor. In a line of collections
exactly one contract is live, that is, answers what collections are ordinarily asked
(`existsUnique_live`). `Chain.Reachable.wellShaped` is the whole picture.
-/

namespace Handover

open Relation

/-- A collection in this mode answers ordinary queries. -/
def Contract.Live (c : Contract) : Prop :=
  c.mode = .running ∨ c.mode = .migrateOutStarted

namespace Ledger

/-- A query that does not ask for the history is answered by live collections only. -/
theorem answersIn_iff_live {c : Contract} {query : CollectionQuery}
    (hq : query.asksHistory = false) : answersIn c.mode query = true ↔ c.Live := by
  unfold Contract.Live
  cases c.mode <;> simp [answersIn, hq]

/-- The contract at the first address was moved to the second. -/
def MovesTo (l : Ledger) (a b : String) : Prop :=
  ∃ c d, l.contract? a = some c ∧ l.contract? b = some d ∧ c.migratedTo = some d.info

theorem exists_of_shell? {l : Ledger} {a : String} {e : Contract}
    (h : l.registry.shell? a = some e) : ∃ c, l.contract? a = some c ∧ c.shell = e := by
  simpa [registry] using h

/-- On a reached ledger the contracts are well linked. -/
theorem Reached.wellLinked {l : Ledger} (h : l.Reached) : l.registry.WellLinked := by
  induction h with
  | empty => exact .empty
  | block _ ih => exact ih
  | step _ hs ih => exact ih.step (registryStep_of_step hs)

/-- A new contract is as contracts start. -/
theorem started_of_new {rules : ChainRules} {l l' : Ledger} {m : Msg}
    (h : l.registry.WellLinked) (hs : Step rules l m l') {a : String} {c : Contract}
    (hn : l.contract? a = none) (hc : l'.contract? a = some c) : c.Started := by
  have hstarted := h.started_of_new (registryStep_of_step hs) (by simp [registry, hn])
    (shell?_registry hc)
  exact ⟨by simpa using hstarted.last, by simpa using hstarted.running⟩

/-- Messages move contracts forward. -/
theorem Reached.advances {rules : ChainRules} {l l' : Ledger} {msgs : List Msg}
    (h : l.Reached) (hr : Ran (Step rules) l msgs l') :
    ∀ a c, l.contract? a = some c → ∃ c', l'.contract? a = some c' ∧ Advances c c' := by
  refine Ran.fold (R := fun l l' => ∀ a c, l.contract? a = some c →
    ∃ c', l'.contract? a = some c' ∧ Advances c c') (fun _ _ c hc => ⟨c, hc, .refl c⟩) ?_
    (Ran.imp (P := fun l _ l' => ∀ a c, l.contract? a = some c →
      ∃ c', l'.contract? a = some c' ∧ Advances c c') ?_ hr h)
  · intro l m l' l'' hll' hl'l'' a c hc
    obtain ⟨c', hc', hcc'⟩ := hll' a c hc
    obtain ⟨c'', hc'', hc'c''⟩ := hl'l'' a c' hc'
    exact ⟨c'', hc'', hcc'.trans hc'c''⟩
  · intro l m l' hl hs a c hc
    obtain ⟨e, he, hce⟩ := hl.wellLinked.advances (registryStep_of_step hs) (shell?_registry hc)
    obtain ⟨c', hc', rfl⟩ := exists_of_shell? he
    exact ⟨c', hc', hce.of_shell⟩

section WellLinked

variable {l : Ledger} (h : l.registry.WellLinked)

include h

/-! ## Links -/

/-- Where a contract moved to, its successor stands. -/
theorem exists_successor {a : String} {c : Contract} {b : ContractInfo}
    (hc : l.contract? a = some c) (hb : c.migratedTo = some b) :
    ∃ d, l.contract? b.address = some d ∧ Precedes c d := by
  obtain ⟨e, he, hp⟩ := h.next a c.shell b (shell?_registry hc) (by simpa using hb)
  obtain ⟨d, hd, rfl⟩ := exists_of_shell? he
  exact ⟨d, hd, hp.of_shell⟩

/-- Where a contract came from, its predecessor stands. -/
theorem exists_predecessor {a : String} {d : Contract} {b : ContractInfo}
    (hd : l.contract? a = some d) (hb : d.migratedFrom = some b) :
    ∃ c, l.contract? b.address = some c ∧ Precedes c d := by
  obtain ⟨e, he, hp⟩ := h.previous a d.shell b (shell?_registry hd) (by simpa using hb)
  obtain ⟨c, hc, rfl⟩ := exists_of_shell? he
  exact ⟨c, hc, hp.of_shell⟩

/-- A contract without successor runs, or it is a collection that still imports. -/
theorem mode_of_last {a : String} {c : Contract} (hc : l.contract? a = some c)
    (hn : c.migratedTo = none) : c.mode = .running ∨
      (c.kind = .migratable ∧ c.mode = .migrateDataIn ∧ c.migratedFrom ≠ none) := by
  simpa using h.last a c.shell (shell?_registry hc) (by simpa using hn)

theorem precedes_of_migratedTo {a b : String} {c d : Contract} (hc : l.contract? a = some c)
    (hd : l.contract? b = some d) (hcd : c.migratedTo = some d.info) : Precedes c d := by
  obtain ⟨e, he, hp⟩ := exists_successor h hc hcd
  have hb : d.info.address = b := address_of_contract? hd
  rw [hb, hd] at he
  exact Option.some.inj he ▸ hp

theorem precedes_of_migratedFrom {a b : String} {c d : Contract} (hc : l.contract? a = some c)
    (hd : l.contract? b = some d) (hcd : d.migratedFrom = some c.info) : Precedes c d := by
  obtain ⟨e, he, hp⟩ := exists_predecessor h hd hcd
  have ha : c.info.address = a := address_of_contract? hc
  rw [ha, hc] at he
  exact Option.some.inj he ▸ hp

/-- What imports is a collection that comes from another one, which is on its way out. -/
theorem exists_source_of_importing {a : String} {c : Contract} (hc : l.contract? a = some c)
    (hm : c.mode = .migrateDataIn) : ∃ s o e t, c.model = .collection s ∧
      c.migratedFrom = some o ∧ l.contract? o.address = some e ∧ e.model = .collection t ∧
      e.mode = .migrateOutStarted ∧ Precedes e c := by
  have hn := h.migratedTo_eq_none (shell?_registry hc) (Or.inr (by simpa using hm))
  obtain ⟨hk, -, hf⟩ := (mode_of_last h hc (by simpa using hn)).resolve_left (by simp [hm])
  obtain ⟨o, ho⟩ := Option.ne_none_iff_exists'.1 hf
  obtain ⟨e, he, hp⟩ := exists_predecessor h hc ho
  obtain ⟨s, hs⟩ := Contract.exists_collection_of_kind hk
  obtain ⟨t, ht⟩ := Contract.exists_collection_of_kind (hp.sameKind.trans hk)
  have hout : e.mode = .migrateOutStarted := by
    rcases hp.modes with ⟨-, hout, -⟩ | ⟨-, hn'⟩
    · exact hout
    · exact absurd hm hn'
  exact ⟨s, o, e, t, hs, ho, he, ht, hout, hp⟩

/-- A contract names a successor exactly if that is there and names the contract. -/
theorem migratedTo_eq_some_iff {a : String} {c : Contract} (hc : l.contract? a = some c)
    (b : ContractInfo) : c.migratedTo = some b ↔
      ∃ d, l.contract? b.address = some d ∧ d.codeHash = b.codeHash ∧
        d.migratedFrom = some ⟨a, c.codeHash⟩ := by
  have ha : (⟨a, c.codeHash⟩ : ContractInfo) = c.info := by rw [← address_of_contract? hc]; rfl
  constructor
  · intro hb
    obtain ⟨d, hd, hp⟩ := exists_successor h hc hb
    obtain rfl := Option.some.inj (hb.symm.trans hp.next)
    exact ⟨d, hd, rfl, ha ▸ hp.previous⟩
  · rintro ⟨d, hd, hh, hf⟩
    rw [(precedes_of_migratedFrom h hc hd (ha ▸ hf)).next]
    have hb : d.info = b := by
      cases b
      simpa [Contract.info, hh] using address_of_contract? hd
    rw [hb]

/-- Contracts move to ones that were made later. -/
theorem MovesTo.madeBefore {a b : String} (hab : l.MovesTo a b) : MadeBefore a b := by
  obtain ⟨c, d, hc, hd, hcd⟩ := hab
  have hp := (precedes_of_migratedTo h hc hd hcd).older
  rwa [address_of_contract? hc, address_of_contract? hd] at hp

/-- No chain of moves comes back to where it started. -/
theorem not_transGen_movesTo (a : String) : ¬TransGen l.MovesTo a a := by
  have hlt : ∀ {a b}, TransGen l.MovesTo a b → MadeBefore a b := by
    intro a b hab
    induction hab with
    | single hab => exact hab.madeBefore h
    | tail _ hbc ih => exact ih.trans (hbc.madeBefore h)
  exact fun ha => not_madeBefore_self a (hlt ha)

omit h in
/-- A contract moves to one contract at most. -/
theorem movesTo_rightUnique : Relator.RightUnique l.MovesTo := by
  rintro a b b' ⟨c, d, hc, hd, hcd⟩ ⟨c', d', hc', hd', hcd'⟩
  obtain rfl := Option.some.inj (hc.symm.trans hc')
  have hi := congrArg ContractInfo.address (Option.some.inj (hcd.symm.trans hcd'))
  exact (address_of_contract? hd).symm.trans (hi.trans (address_of_contract? hd'))

/-- At most one contract moves to another. -/
theorem movesTo_leftUnique {a a' b : String} (hab : l.MovesTo a b) (hab' : l.MovesTo a' b) :
    a = a' := by
  obtain ⟨c, d, hc, hd, hcd⟩ := hab
  obtain ⟨c', d', hc', hd', hcd'⟩ := hab'
  obtain rfl := Option.some.inj (hd.symm.trans hd')
  have hp := (precedes_of_migratedTo h hc hd hcd).previous
  have hp' := (precedes_of_migratedTo h hc' hd hcd').previous
  have hi := congrArg ContractInfo.address (Option.some.inj (hp.symm.trans hp'))
  exact (address_of_contract? hc).symm.trans (hi.trans (address_of_contract? hc'))

/-! ## Lines -/

/-- Of two contracts that links join, one is led to from the other. -/
theorem movesTo_total {a b : String} (hab : EqvGen l.MovesTo a b) :
    ReflTransGen l.MovesTo a b ∨ ReflTransGen l.MovesTo b a := by
  have hleft : Relator.RightUnique (Function.swap l.MovesTo) := fun _ _ _ hba hca =>
    movesTo_leftUnique h hba hca
  induction hab with
  | rel a b hab => exact Or.inl (.single hab)
  | refl a => exact Or.inl .refl
  | symm a b _ ih => exact ih.symm
  | trans a b c _ _ ihab ihbc =>
    rcases ihab with hab | hba <;> rcases ihbc with hbc | hcb
    · exact Or.inl (hab.trans hbc)
    · rcases ReflTransGen.total_of_right_unique hleft (reflTransGen_swap.2 hab)
        (reflTransGen_swap.2 hcb) with hac | hca
      · exact Or.inr (reflTransGen_swap.1 hac)
      · exact Or.inl (reflTransGen_swap.1 hca)
    · exact ReflTransGen.total_of_right_unique movesTo_rightUnique hba hbc
    · exact Or.inr (hcb.trans hba)

/-- Links keep the kind. -/
theorem kind_eq_of_moves {a b : String} (hab : ReflTransGen l.MovesTo a b) {c d : Contract}
    (hc : l.contract? a = some c) (hd : l.contract? b = some d) : c.kind = d.kind := by
  induction hab generalizing d with
  | refl => rw [Option.some.inj (hc.symm.trans hd)]
  | tail _ hbe ih =>
    obtain ⟨e, d', he, hd', hed⟩ := hbe
    obtain rfl := Option.some.inj (hd.symm.trans hd')
    exact (ih he).trans (precedes_of_migratedTo h he hd hed).sameKind

/-- Every line comes to an end, since addresses are numbered. -/
theorem exists_last {a : String} {c : Contract} (hc : l.contract? a = some c) :
    ∃ b d, ReflTransGen l.MovesTo a b ∧ l.contract? b = some d ∧ d.migratedTo = none := by
  have hnum : ∀ {a c}, l.contract? a = some c → ∃ n, n ≤ l.instantiated ∧ a = addressOf n :=
    fun hc => (h.numbered _ _ (shell?_registry hc)).2
  obtain ⟨n, hn, rfl⟩ := hnum hc
  obtain ⟨k, hk⟩ := Nat.exists_eq_add_of_le hn
  induction k using Nat.strongRecOn generalizing n c with
  | ind k ih =>
    cases hb : c.migratedTo with
    | none => exact ⟨_, c, .refl, hc, hb⟩
    | some b =>
      obtain ⟨d, hd, hp⟩ := exists_successor h hc hb
      obtain ⟨m, hm, hbm⟩ := hnum hd
      obtain rfl := Option.some.inj (hb.symm.trans hp.next)
      have hmove : l.MovesTo (addressOf n) d.info.address := ⟨c, d, hc, hd, hb⟩
      obtain ⟨i, j, hij, hi, hj⟩ := hmove.madeBefore h
      obtain rfl := addressOf_injective hi
      obtain rfl := addressOf_injective (hbm.symm.trans hj)
      rw [hbm] at hd hmove
      obtain ⟨e, f, hde, he, hlast⟩ := ih (l.instantiated - m) (by omega) m hm hd (by omega)
      exact ⟨e, f, .head hmove hde, he, hlast⟩

/-- Nothing live comes after a live contract. -/
theorem eq_of_live {a b : String} {c d : Contract} (hc : l.contract? a = some c)
    (hd : l.contract? b = some d) (hab : ReflTransGen l.MovesTo a b) (hcl : c.Live)
    (hdl : d.Live) : a = b := by
  rcases hab.cases_head with hab | ⟨x, ⟨c', e, hc', he, hce⟩, hxb⟩
  · exact hab
  obtain rfl := Option.some.inj (hc.symm.trans hc')
  -- The successor of a live contract imports, so it is the last of the line.
  have himp : e.mode = .migrateDataIn := by
    rcases (precedes_of_migratedTo h hc he hce).modes with ⟨-, -, hm⟩ | ⟨hm, -⟩
    · exact hm
    · rcases hcl with hl | hl <;> simp [hl] at hm
  have hlast : e.migratedTo = none := by
    simpa using h.migratedTo_eq_none (shell?_registry he) (Or.inr (by simpa using himp))
  rcases hxb.cases_head with rfl | ⟨y, ⟨e', f, he', hf, hef⟩, -⟩
  · obtain rfl := Option.some.inj (hd.symm.trans he)
    rcases hdl with hl | hl <;> simp [hl] at himp
  · obtain rfl := Option.some.inj (he.symm.trans he')
    simp [hlast] at hef

/-- A line has one live contract. -/
theorem existsUnique_live {a : String} {c : Contract} (hc : l.contract? a = some c) :
    ∃! b, EqvGen l.MovesTo a b ∧ ∃ d, l.contract? b = some d ∧ d.Live := by
  obtain ⟨b, d, hab, hd, hlast⟩ := exists_last h hc
  have heqv : EqvGen l.MovesTo a b :=
    EqvGen.reflTransGen_le_eqvGen _ _ _ hab
  refine existsUnique_of_exists_of_unique ?_ ?_
  · rcases mode_of_last h hd hlast with hm | ⟨-, hm, hf⟩
    · exact ⟨b, heqv, d, hd, Or.inl hm⟩
    · -- The end of the line still imports, so the contract before it is live.
      obtain ⟨origin, ho⟩ := Option.ne_none_iff_exists'.1 hf
      obtain ⟨e, he, hp⟩ := exists_predecessor h hd ho
      refine ⟨origin.address, heqv.trans _ _ _ (.symm _ _ (.rel _ _ ⟨e, d, he, hd, hp.next⟩)), e, he, ?_⟩
      rcases hp.modes with ⟨-, hm', -⟩ | ⟨-, hm'⟩
      · exact Or.inr hm'
      · exact absurd hm hm'
  · rintro x y ⟨hax, e, he, hel⟩ ⟨hay, f, hf, hfl⟩
    rcases movesTo_total h ((hax.symm _ _).trans _ _ _ hay) with hxy | hyx
    · exact eq_of_live h he hf hxy hel hfl
    · exact (eq_of_live h hf he hyx hfl hel).symm

end WellLinked

/-! ## The whole picture -/

/-- How links, modes and lines hang together. -/
structure WellShaped (l : Ledger) : Prop where
  /-- Links to successors and links back are the same links. -/
  links : ∀ {a c}, l.contract? a = some c → ∀ b, c.migratedTo = some b ↔
    ∃ d, l.contract? b.address = some d ∧ d.codeHash = b.codeHash ∧
      d.migratedFrom = some ⟨a, c.codeHash⟩
  linked : ∀ {a b c d}, l.contract? a = some c → l.contract? b = some d →
    c.migratedTo = some d.info → c.kind = d.kind ∧ c.admin = d.admin
  acyclic : ∀ a, ¬TransGen l.MovesTo a a
  dealers : ∀ {a c}, l.contract? a = some c → c.kind = .dealer →
    c.mode = if c.migratedTo = none then .running else .migratedOut
  lastCollections : ∀ {a c}, l.contract? a = some c → c.kind = .migratable →
    c.migratedTo = none → c.mode = .running ∨ c.mode = .migrateDataIn
  movedCollections : ∀ {a b c d}, l.contract? a = some c → c.kind = .migratable →
    l.contract? b = some d → c.migratedTo = some d.info →
      c.mode = if d.mode = .migrateDataIn then .migrateOutStarted else .migratedOut
  importing : ∀ {a c}, l.contract? a = some c → c.mode = .migrateDataIn → c.migratedFrom ≠ none
  /-- One contract of a line of collections is live, and it alone answers ordinary queries. -/
  live : ∀ {a c}, l.contract? a = some c → c.kind = .migratable →
    (∃! b, EqvGen l.MovesTo a b ∧ ∃ d, l.contract? b = some d ∧ d.Live) ∧
      ∀ query : CollectionQuery, query.asksHistory = false →
        ∃! b, EqvGen l.MovesTo a b ∧ ∃ d, l.contract? b = some d ∧ answersIn d.mode query = true

/-- Well linked contracts form lines. -/
theorem wellShaped_of_wellLinked {l : Ledger} (h : l.registry.WellLinked) : l.WellShaped where
  links hc b := migratedTo_eq_some_iff h hc b
  linked hc hd hcd := by
    have hp := precedes_of_migratedTo h hc hd hcd
    exact ⟨hp.sameKind, hp.sameAdmin⟩
  acyclic := not_transGen_movesTo h
  dealers {a c} hc hk := by
    cases hb : c.migratedTo with
    | none =>
      rcases mode_of_last h hc hb with hm | ⟨hk', -, -⟩
      · simpa using hm
      · simp [hk] at hk'
    | some b =>
      obtain ⟨d, -, hp⟩ := exists_successor h hc hb
      rcases hp.modes with ⟨hk', -, -⟩ | ⟨hm, -⟩
      · simp [hk] at hk'
      · simpa using hm
  lastCollections hc _ hn := (mode_of_last h hc hn).imp_right fun hm => hm.2.1
  movedCollections hc _ hd hcd := by
    rcases (precedes_of_migratedTo h hc hd hcd).modes with ⟨-, hm, hm'⟩ | ⟨hm, hm'⟩
    · rw [hm, if_pos hm']
    · rw [hm, if_neg hm']
  importing {a c} hc hm := by
    obtain ⟨_, o, _, _, -, hf, -⟩ := exists_source_of_importing h hc hm
    simp [hf]
  live hc _ := by
    refine ⟨existsUnique_live h hc, fun query hq => ?_⟩
    simpa only [answersIn_iff_live hq] using existsUnique_live h hc

end Ledger

/-- On a reachable chain, links and modes form lines of contracts with one live collection in
each line of collections, and an accepted transaction moves every contract forward : its kind,
code, admin and links stay, and its mode never goes back. -/
theorem Chain.Reachable.wellShaped {c : Chain} (h : c.Reachable) :
    c.ledger.WellShaped ∧
      ∀ msgs options r c', c.broadcast msgs options = (.ok r, c') →
        ∀ a k, c.ledger.contract? a = some k →
          ∃ k', c'.ledger.contract? a = some k' ∧ Advances k k' := by
  refine ⟨Ledger.wellShaped_of_wellLinked h.reached.wellLinked, ?_⟩
  intro msgs options r c' hb
  exact h.reached.block.advances (ran_of_broadcast hb)

/-- The links of a dealer and a collection that moved, and the one live collection in the line of
that. The import before moved all contracts forward. -/
theorem Chain.crossed_wellShaped :
    crossed.ledger.MovesTo "secret1contract0001" "secret1contract0006" ∧
    crossed.ledger.MovesTo "secret1contract0002" "secret1contract0005" ∧
    crossed.ledger.WellShaped ∧
    (∀ b d, EqvGen crossed.ledger.MovesTo "secret1contract0002" b →
      crossed.ledger.contract? b = some d → d.Live → b = "secret1contract0005") ∧
    ∀ a k, crossing.ledger.contract? a = some k →
      ∃ k', crossed.ledger.contract? a = some k' ∧ Advances k k' := by
  obtain ⟨hshaped, -⟩ := reachable_crossed.wellShaped
  obtain ⟨-, hadvances⟩ := reachable_crossing.wellShaped
  obtain ⟨r, hr⟩ := crossing_imports
  have hdealer : crossed.ledger.MovesTo "secret1contract0001" "secret1contract0006" := by
    rw [ledger_crossed]
    exact ⟨_, _, rfl, rfl, rfl⟩
  have hcollection : crossed.ledger.MovesTo "secret1contract0002" "secret1contract0005" := by
    rw [ledger_crossed]
    exact ⟨_, _, rfl, rfl, rfl⟩
  refine ⟨hdealer, hcollection, hshaped, fun b d hb hd hlive => ?_, hadvances _ _ r _ hr⟩
  have hold : crossed.ledger.contract? "secret1contract0002" =
      some (oldCollection .migratedOut) := by
    rw [ledger_crossed]
    rfl
  have hnew : crossed.ledger.contract? "secret1contract0005" =
      some (newCollection .running filledCollection) := by
    rw [ledger_crossed]
    rfl
  exact (hshaped.live hold rfl).1.unique ⟨hb, d, hd, hlive⟩
    ⟨.rel _ _ hcollection, _, hnew, Or.inl rfl⟩

end Handover

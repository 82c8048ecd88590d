import Handover.Proofs.Ledger.Stock

/-!
# The cursor of an import

A collection that imports holds the first tokens of the collection it imports from, up to its
cursor (`Cursors`). The cursor is a word and the end of an import is the number of tokens as a
word, so it never passes that, however many pages of whatever size are asked for. The tokens it
counts cannot change meanwhile : a collection on its way out neither sells nor gives any.
-/

namespace Handover

namespace Ledger

/-! ## Where an import stops -/

/-- A number that is cut to a word stops at the greatest one. -/
theorem toNat_saturated (n : Nat) : (saturated n).toNat = min n (UInt32.size - 1) := by
  have hlt : min n (UInt32.size - 1) < UInt32.size :=
    Nat.lt_of_le_of_lt (Nat.min_le_right _ _) (by decide)
  rw [saturated, UInt32.toNat_ofNat_of_lt' hlt]

/-- An import of some pages stops after their tokens or at the end. Words that stop at the largest
one do not matter, since the end is a word. -/
theorem toNat_importEnd (start total pages pageSize : UInt32) :
    (importEnd start total (some pages) pageSize).toNat =
      min (start.toNat + pages.toNat * max pageSize.toNat 1) total.toNat := by
  have ht := total.toNat_lt
  simp only [importEnd, toNat_saturated]
  generalize pages.toNat * max pageSize.toNat 1 = n
  rw [UInt32.toNat_ofNat_of_lt']
  · simp only [UInt32.size]
    omega
  · simp only [UInt32.size]
    omega

/-- An import goes on from where it was, and not over the end. -/
theorem importEnd_bounds {start total : UInt32} (h : start.toNat ≤ total.toNat)
    (pages : Option UInt32) (pageSize : UInt32) :
    start.toNat ≤ (importEnd start total pages pageSize).toNat ∧
      (importEnd start total pages pageSize).toNat ≤ total.toNat := by
  cases pages with
  | none => exact ⟨h, Nat.le_refl _⟩
  | some pages =>
    rw [toNat_importEnd]
    omega

/-! ## What a step can do to a stock -/

namespace StockStep

variable {l l' : Ledger} {m : Msg}

/-- Only running collections sell or give, and only collections that import are filled. -/
theorem stock?_eq_or (hs : StockStep l m l') {a : String} {c : Contract}
    (hc : l.contract? a = some c) : l'.stock? a = l.stock? a ∨ c.mode = .running ∨
      ∃ sender, ∃ i : Import l sender a, ∃ pages size, l'.stock? a =
        some ⟨i.collection.entries ++ (i.slice (i.stop pages size)).map Token.entry,
          i.stop pages size⟩ := by
  cases hs with
  | same stock _ => exact Or.inl (congrFun stock a)
  | added b new stock _ =>
    refine Or.inl ?_
    rw [stock, Function.update_of_ne]
    rintro rfl
    simp [new] at hc
  | sold sale _ stock _ =>
    by_cases ha : a = sale.dealer.child.address
    · rw [ha, sale.childFound] at hc
      exact Or.inr (Or.inl (Option.some.inj hc ▸ sale.childRunning))
    · exact Or.inl (by rw [stock, Function.update_of_ne ha])
  | @given _ b _ _ _ _ _ _ _ t _ _ _ _ stock _ =>
    by_cases ha : a = b
    · rw [ha, t.found] at hc
      exact Or.inr (Or.inl (Option.some.inj hc ▸ t.running))
    · exact Or.inl (by rw [stock, Function.update_of_ne ha])
  | @imported sender b _ _ _ pages _ size _ i _ stock _ =>
    by_cases ha : a = b
    · subst ha
      exact Or.inr (Or.inr ⟨sender, i, pages, size, by rw [stock, Function.update_self]⟩)
    · exact Or.inl (by rw [stock, Function.update_of_ne ha])

/-- A new collection has no tokens. -/
theorem stock_of_new (hs : StockStep l m l') {a : String} {S : Stock}
    (hn : l.contract? a = none) (hS : l'.stock? a = some S) : S = ⟨[], 0⟩ := by
  have hl : l.stock? a = none := stock?_of_none hn
  have hne : ∀ {b c}, l.contract? b = some c → a ≠ b := by
    rintro b c hb rfl
    simp [hn] at hb
  cases hs with
  | same stock _ => simp [stock, hl] at hS
  | added b new stock _ =>
    rw [stock] at hS
    by_cases ha : a = b
    · simpa [ha, eq_comm] using hS
    · simp [ha, hl] at hS
  | sold sale _ stock _ => simp [stock, hne sale.childFound, hl] at hS
  | given t _ _ _ _ stock _ => simp [stock, hne t.found, hl] at hS
  | imported i _ stock _ => simp [stock, hne i.found, hl] at hS

end StockStep

/-! ## The invariant -/

/-- Who imports holds what there is to import up to its cursor, which is not over the end. -/
def Cursors (l : Ledger) : Prop :=
  ∀ a c b S T, l.contract? a = some c → c.mode = .migrateDataIn → c.migratedFrom = some b →
    l.stock? a = some S → l.stock? b.address = some T →
      S.cursor.toNat ≤ T.entries.length % UInt32.size ∧ S.entries = T.entries.take S.cursor.toNat

namespace Import

variable {l : Ledger} {sender address : String} (i : Import l sender address)

/-- The total is a word, so it counts the entries modulo the words. -/
theorem toNat_total_eq_mod :
    i.total.toNat = i.sourceCollection.entries.length % UInt32.size := by
  rw [total, UInt32.toNat_ofNat', Collection.length_entries]

/-- The total counts the entries if their number is a word. -/
theorem toNat_total (hb : i.sourceCollection.tokens.length < UInt32.size) :
    i.total.toNat = i.sourceCollection.entries.length := by
  rw [toNat_total_eq_mod, Nat.mod_eq_of_lt (by rwa [Collection.length_entries])]

/-- An import that stops somewhere holds the tokens up to there. -/
theorem entries_eq_take (h : l.Cursors) (pages : Option UInt32) (pageSize : UInt32) :
    (i.stop pages pageSize).toNat ≤ i.sourceCollection.entries.length % UInt32.size ∧
      i.collection.entries ++ (i.slice (i.stop pages pageSize)).map Token.entry =
        i.sourceCollection.entries.take (i.stop pages pageSize).toNat := by
  obtain ⟨hle, htake⟩ := h _ _ _ _ _ i.found i.importing i.comesFrom
    (stock?_of_collection i.found i.isCollection)
    (stock?_of_collection i.sourceFound i.sourceIsCollection)
  simp only [Collection.stock] at hle htake
  have hstop : i.collection.importCursor.toNat ≤ (i.stop pages pageSize).toNat ∧
      (i.stop pages pageSize).toNat ≤ i.total.toNat :=
    importEnd_bounds (i.toNat_total_eq_mod ▸ hle) pages pageSize
  obtain ⟨hlo, hhi⟩ := hstop
  refine ⟨i.toNat_total_eq_mod ▸ hhi, ?_⟩
  have hsplit : i.sourceCollection.entries.take i.collection.importCursor.toNat =
      (i.sourceCollection.entries.take (i.stop pages pageSize).toNat).take
        i.collection.importCursor.toNat := by
    rw [List.take_take, Nat.min_eq_left hlo]
  rw [htake, slice, List.map_drop, List.map_take, hsplit]
  exact List.take_append_drop _ _

end Import

/-- Who imports after a step has imported before, and what it imports from was on its way out. -/
theorem Reached.importing_before {rules : ChainRules} {l l' : Ledger} {m : Msg} (hl : l.Reached)
    (step : Step rules l m l') {a : String} {c c' : Contract} {b : ContractInfo}
    (hc : l.contract? a = some c) (hc' : l'.contract? a = some c') (hm' : c'.mode = .migrateDataIn)
    (hf' : c'.migratedFrom = some b) : c.mode = .migrateDataIn ∧ c.migratedFrom = some b ∧
      ∃ e, l.contract? b.address = some e ∧ e.mode = .migrateOutStarted := by
  obtain ⟨c'', hc'', hadv⟩ := hl.wellLinked.advances (registryStep_of_step step) (shell?_registry hc)
  obtain ⟨d, hd, rfl⟩ := exists_of_shell? hc''
  obtain rfl := Option.some.inj (hc'.symm.trans hd)
  have hcc' := hadv.of_shell
  have hm : c.mode = .migrateDataIn := by
    have hrank := hcc'.mode
    rw [hm'] at hrank
    cases hcm : c.mode <;> simp [hcm, Mode.rank] at hrank ⊢
  have hf : c.migratedFrom = some b := hcc'.migratedFrom ▸ hf'
  obtain ⟨_, o, e, _, -, ho, he, -, hout, -⟩ := exists_source_of_importing hl.wellLinked hc hm
  obtain rfl := Option.some.inj (hf.symm.trans ho)
  exact ⟨hm, hf, e, he, hout⟩

/-- What is imported from stays as it is until the import is complete. -/
theorem Reached.stock?_source {rules : ChainRules} {l l' : Ledger} {m : Msg} (hl : l.Reached)
    (step : Step rules l m l') {a : String} {c c' : Contract} {b : ContractInfo}
    (hc : l.contract? a = some c) (hc' : l'.contract? a = some c') (hm' : c'.mode = .migrateDataIn)
    (hf' : c'.migratedFrom = some b) : l'.stock? b.address = l.stock? b.address := by
  obtain ⟨-, -, e, he, hout⟩ := hl.importing_before step hc hc' hm' hf'
  rcases (stockStep_of_step hl.wellLinked step).stock?_eq_or he with hsame | hr | ⟨_, i, -, -, -⟩
  · exact hsame
  · simp [hout] at hr
  · have hi := i.importing
    rw [← Option.some.inj (he.symm.trans i.found), hout] at hi
    cases hi

/-- After a step every cursor still tells how far its import is. -/
theorem Cursors.step {rules : ChainRules} {l l' : Ledger} {m : Msg} (h : l.Cursors)
    (hl : l.Reached) (step : Step rules l m l') : l'.Cursors := by
  have hs := stockStep_of_step hl.wellLinked step
  intro a c' b S' T' hc' hm' hf' hS' hT'
  cases hc : l.contract? a with
  | none => simp [hs.stock_of_new hc hS']
  | some c =>
    obtain ⟨hm, hf, -⟩ := hl.importing_before step hc hc' hm' hf'
    have hT : l.stock? b.address = some T' := (hl.stock?_source step hc hc' hm' hf').symm.trans hT'
    rcases hs.stock?_eq_or hc with hsame | hr | ⟨_, i, pages, size, hi⟩
    · exact h a c b S' T' hc hm hf (hsame.symm.trans hS') hT
    · simp [hm] at hr
    · obtain rfl := Option.some.inj (hi.symm.trans hS')
      have hb' : b = i.origin := by
        rw [Option.some.inj (hc.symm.trans i.found)] at hf
        exact Option.some.inj (hf.symm.trans i.comesFrom)
      have hsource := stock?_of_collection i.sourceFound i.sourceIsCollection
      obtain rfl := Option.some.inj ((hb' ▸ hT).symm.trans hsource)
      exact i.entries_eq_take h pages size

/-- On a reached ledger every cursor tells how far its import is. -/
theorem Reached.cursors {l : Ledger} (h : l.Reached) : l.Cursors := by
  induction h with
  | empty => intro a c _ _ _ hc; simp [contract?_empty] at hc
  | block _ ih => exact ih
  | step h hs ih => exact ih.step h hs

end Ledger

end Handover

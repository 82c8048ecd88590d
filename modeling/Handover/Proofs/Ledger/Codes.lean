import Handover.Proofs.Ledger.Step

/-!
# Stored code stays

Nothing takes code from the chain. Each message leaves the codes, or adds one at the end
(`Ledger.Step.codes_grow`), so the codes before any move are the first ones after it
(`Chain.codes_after`), and what the chain once answered for the number of a code it goes on to
answer (`Chain.Knows.mono`).
-/

namespace Handover

namespace Ledger

/-! ## Codes of a ledger -/

theorem codes_foldl_repoint (old : String) (new : ContractInfo) :
    ∀ (notify : List String) (l : Ledger),
      (notify.foldl (repoint old new) l).codes = l.codes
  | [], _ => rfl
  | receiver :: notify, l => by
    rw [List.foldl_cons, codes_foldl_repoint old new notify]
    unfold repoint
    split
    · split
      · split <;> rfl
      · rfl
    · rfl

/-- The codes before a message are the first ones after it. -/
theorem Step.codes_grow {rules : ChainRules} {l l' : Ledger} {m : Msg} (h : Step rules l m l') :
    l.codes <+: l'.codes := by
  cases h with
  | storeCode code => exact List.prefix_append _ _
  | send | newCollection | newDealer | moveDealer | moveCollection | sell | transfer | importPage =>
    exact List.prefix_refl _
  | finishImport i hash read last source sourceFound =>
    rw [Import.finished, codes_foldl_repoint]
    exact List.prefix_refl _

/-- A run adds codes after those that are there. -/
theorem Ran.codes_grow {rules : ChainRules} {l l' : Ledger} {msgs : List Msg}
    (h : Ran (Step rules) l msgs l') : l.codes <+: l'.codes :=
  h.fold (R := fun l l' => l.codes <+: l'.codes) (fun _ => List.prefix_refl _)
    fun _ _ _ _ first rest => first.codes_grow.trans rest

/-- The code of a number stays the code of that number. -/
theorem code?_mono {l l' : Ledger} (h : l.codes <+: l'.codes) {codeId : UInt64}
    {code : StoredCode} (hc : l.code? codeId = some code) : l'.code? codeId = some code := by
  unfold code? at hc ⊢
  split at hc
  · cases hc
  · next hne =>
    rw [if_neg hne]
    obtain ⟨more, hmore⟩ := h
    have hlt : codeId.toNat - 1 < l.codes.length := (List.getElem?_eq_some_iff.1 hc).1
    rw [← hmore, List.getElem?_append_left hlt, hc]

end Ledger

namespace Chain

/-! ## Codes of a chain -/

/-- The codes before a move are the first ones after it. -/
theorem codes_after (c : Chain) (m : ChainMove) : c.ledger.codes <+: (c.after m).ledger.codes := by
  rcases c.ledger_after m with hsame | ⟨rules, msgs, hran⟩
  · simp only [hsame, List.prefix_refl]
  · exact hran.codes_grow

/-- No call takes code from the chain. -/
theorem codes_partner (c : Chain) : ∀ q : Call, c.ledger.codes <+: (partner q c).2.ledger.codes
  | .chainId | .simulate _ | .codeHash _ | .query .. => List.prefix_refl _
  | .broadcast msgs options => c.codes_after (.send msgs options)

/-- The chain answers for the number of an artifact with its hash. -/
def Knows (c : Chain) (a : CodeArtifact) : Prop :=
  (Service.codeHash a.codeId).play partner c = (.ok a.codeHash, c)

/-- The chain knows an artifact if the code with its number has its hash. -/
theorem knows_iff {c : Chain} {a : CodeArtifact} :
    c.Knows a ↔ ∃ kind, c.ledger.code? a.codeId = some ⟨a.codeHash, kind⟩ := by
  simp only [Knows, Service.codeHash, Dialogue.play, partner, Ledger.code]
  cases hc : c.ledger.code? a.codeId with
  | none => exact ⟨nofun, nofun⟩
  | some code =>
    obtain ⟨hash, kind⟩ := code
    refine ⟨fun h => ⟨kind, ?_⟩, ?_⟩
    · cases h
      rfl
    · rintro ⟨kind', h⟩
      cases h
      rfl

/-- A chain goes on to know what it knows. -/
theorem Knows.mono {c c' : Chain} {a : CodeArtifact} (h : c.Knows a)
    (codes : c.ledger.codes <+: c'.ledger.codes) : c'.Knows a := by
  obtain ⟨kind, hc⟩ := knows_iff.1 h
  exact knows_iff.2 ⟨kind, Ledger.code?_mono codes hc⟩

end Chain

end Handover

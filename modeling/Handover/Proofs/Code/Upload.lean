import Handover.Code.Upload
import Handover.Proofs.Ledger.Codes
import Handover.Proofs.Migration.Play
import Handover.Proofs.Text.Count

/-!
# Uploads

An upload that fails leaves the ledger and the number of uploads. One that goes through adds a
code, and its artifact has the number of that code and its hash (`Chain.Uploaded`), so the chain
knows it (`Chain.Uploaded.knows`). The number of a code is a word, so this is for chains with
fewer codes than there are words.
-/

namespace Handover

namespace Chain

variable {c c' : Chain}

/-- The first chain got a code, known as the artifact, and is the second with it. -/
structure Uploaded (c : Chain) (a : CodeArtifact) (c' : Chain) : Prop where
  codes : ∃ kind, c'.ledger.codes = c.ledger.codes ++ [⟨a.codeHash, kind⟩]
  codeId : a.codeId.toNat = c'.ledger.codes.length
  uploads : c'.uploads = c.uploads + 1

/-- The number of the last code is how many codes there are. -/
theorem code?_length {l : Ledger} {codes : List StoredCode} {code : StoredCode} {codeId : UInt64}
    (hcodes : l.codes = codes ++ [code]) (hid : codeId.toNat = l.codes.length) :
    l.code? codeId = some code := by
  have hlength : codeId.toNat = codes.length + 1 := by rw [hid, hcodes]; simp
  have hne : codeId ≠ 0 := by
    rintro rfl
    simp at hlength
  rw [Ledger.code?, if_neg hne, hlength, hcodes]
  simp

/-- The chain knows what was uploaded. -/
theorem Uploaded.knows {a : CodeArtifact} (h : Uploaded c a c') : c'.Knows a := by
  obtain ⟨kind, hcodes⟩ := h.codes
  exact knows_iff.2 ⟨kind, code?_length hcodes h.codeId⟩

/-- An upload adds to the stored code. -/
theorem Uploaded.codes_grow {a : CodeArtifact} (h : Uploaded c a c') :
    c.ledger.codes <+: c'.ledger.codes := by
  obtain ⟨kind, hcodes⟩ := h.codes
  rw [hcodes]
  exact List.prefix_append _ _

/-- A trial run leaves the chain. -/
theorem exists_play_limitFor (g : GasSettings) (msgs : List Msg) (fallback : UInt64) (c : Chain) :
    ∃ limit, (g.limitFor msgs fallback).play partner c = (limit, c) := by
  change ∃ limit, Dialogue.play partner (Dialogue.bind (Service.simulate msgs) _) c = (limit, c)
  have htried : (Service.simulate msgs).play partner c = (c.simulate msgs, c) := rfl
  rw [Dialogue.play_bind, htried]
  cases c.simulate msgs with
  | error why => exact ⟨fallback, rfl⟩
  | ok gas => exact ⟨g.padded gas, rfl⟩

/-- A transaction that is not accepted leaves the number of uploads. -/
theorem uploads_of_broadcast_error {msgs : List Msg} {options : TxOptions} {fault : ChainFault}
    (h : c.broadcast msgs options = (.error fault, c')) : c'.uploads = c.uploads := by
  unfold broadcast at h
  cases hr : c.ledger.run c.rules msgs with
  | error why =>
    simp only [hr, Prod.mk.injEq] at h
    rw [← h.2]
  | ok r' =>
    obtain ⟨outcomes, l'⟩ := r'
    by_cases hg : options.gasLimit.toNat < totalGas outcomes
    · simp only [hr, hg, if_true, Prod.mk.injEq] at h
      rw [← h.2]
    · simp [hr, hg] at h

/-- The number of the code is found in the events of an upload. -/
theorem valueOf_codeId (hash : String) (limit : UInt64) {o : Outcome} {action text : String}
    (h : o.events = [⟨"message", [⟨"action", action⟩, ⟨"code_id", text⟩]⟩]) :
    (response hash limit [o]).valueOf "message" "code_id" = some text := by
  simp [TxResponse.valueOf, TxResponse.eventValue, TxResponse.valueIn, TxResponse.events,
    response, h]

/-- An accepted upload adds its code, and reports its number. -/
theorem exists_uploaded {uploader : String} {wasm : Bytes} {options : TxOptions} {r : TxResponse}
    (h : c.broadcast [.storeCode uploader wasm] options = (.ok r, c'))
    (fits : c'.ledger.codes.length < UInt64.size) :
    ∃ a, r.storedCode = .ok a.codeId ∧ Uploaded c a c' := by
  obtain ⟨outcomes, l', hran, -, rfl, rfl⟩ := broadcast_eq_ok.1 h
  obtain ⟨o, ho, rfl⟩ := run_singleton_eq_ok.1 hran
  change Ledger.storeCode c.rules c.ledger.nextBlock wasm = .ok (o, l') at ho
  unfold Ledger.storeCode at ho
  split at ho
  · cases ho
  split at ho
  · cases ho
  · next kind hkind =>
    cases ho
    have hfits : c.ledger.codes.length + 1 < UInt64.size := by
      simpa [Ledger.nextBlock] using fits
    have hlength : (c.ledger.nextBlock.codes ++
        [(⟨Hex.encode (Sha256.digest wasm), kind⟩ : StoredCode)]).length = c.ledger.codes.length + 1 := by
      simp [Ledger.nextBlock]
    refine ⟨⟨UInt64.ofNat (c.ledger.codes.length + 1), _⟩, ?_, ⟨kind, rfl⟩, ?_,
      by simp [Msg.isUpload]⟩
    · rw [TxResponse.storedCode, valueOf_codeId _ _ rfl, hlength]
      simp only [count?_toString hfits]
    · rw [UInt64.toNat_ofNat_of_lt' hfits, hlength]

end Chain

open Procedure in
/-- An upload sends one transaction. It fails with nothing stored, or stores what it yields. -/
theorem play_storeCode {g : GasSettings} {uploader : String} {wasm : Bytes} {c c' : Chain}
    {r : Except Fault CodeArtifact}
    (h : (storeCode g uploader wasm).run.play Chain.partner c = (r, c'))
    (fits : c'.ledger.codes.length < UInt64.size) :
    (∃ fault, r = .error fault ∧ c'.ledger = c.ledger ∧ c'.uploads = c.uploads) ∨
      ∃ a, r = .ok a ∧ c.Uploaded a c' := by
  obtain ⟨limit, hlimit⟩ := Chain.exists_play_limitFor g [.storeCode uploader wasm]
    g.uploadFallbackLimit c
  rw [storeCode, (yields_lift hlimit).play_bind] at h
  rcases hb : c.broadcast [.storeCode uploader wasm] (.ofGasLimit limit) with ⟨fault | response, c₁⟩
  · have hsent : (liftM (Service.broadcast [.storeCode uploader wasm] (.ofGasLimit limit)) :
        Procedure _).Yields c (.error fault) c₁ := yields_lift hb
    rw [hsent.play_bind] at h
    cases h
    exact Or.inl ⟨_, rfl, Chain.ledger_of_broadcast_error hb, Chain.uploads_of_broadcast_error hb⟩
  · have hsent : (liftM (Service.broadcast [.storeCode uploader wasm] (.ofGasLimit limit)) :
        Procedure _).Yields c (.ok response) c₁ := yields_lift hb
    rw [hsent.play_bind] at h
    dsimp only at h
    cases hid : response.storedCode with
    | error fault =>
      rw [hid, (fails_ofExcept rfl c₁).play_bind] at h
      cases h
      obtain ⟨a, ha, -⟩ := Chain.exists_uploaded hb fits
      exact absurd (hid.symm.trans ha) nofun
    | ok codeId =>
      rw [hid, (yields_ofExcept rfl c₁).play_bind] at h
      obtain ⟨answer, hasked⟩ : ∃ answer,
          (Service.codeHash codeId).play Chain.partner c₁ = (answer, c₁) := ⟨_, rfl⟩
      have hknown : ∀ a, response.storedCode = .ok a.codeId → c₁.Knows a →
          codeId = a.codeId ∧ answer = .ok a.codeHash := by
        intro a ha hknows
        obtain rfl : codeId = a.codeId := Except.ok.inj (hid.symm.trans ha)
        exact ⟨rfl, (Prod.mk.inj (hasked.symm.trans hknows)).1⟩
      cases answer with
      | error why =>
        rw [(fails_ofCall hasked).play_bind] at h
        cases h
        obtain ⟨a, ha, hup⟩ := Chain.exists_uploaded hb fits
        exact absurd (hknown a ha hup.knows).2 nofun
      | ok hash =>
        rw [(yields_ofCall hasked).play_bind] at h
        cases h
        obtain ⟨a, ha, hup⟩ := Chain.exists_uploaded hb fits
        obtain ⟨rfl, hhash⟩ := hknown a ha hup.knows
        obtain rfl := Except.ok.inj hhash
        exact Or.inr ⟨a, rfl, hup⟩

end Handover

import Handover.Proofs.Migration.Interleaving

/-!
# How many calls an import takes

On a reachable chain, whether a run of the orchestrator completes an import depends on the number
of calls alone, as long as the gas of the calls that it makes is covered. With enough calls it
takes exactly as many as the tokens that are left have pages for. With fewer it imports that many
pages, and any later run with enough calls completes the import. Calls of no pages come to
nothing, which the second report shows.
-/

namespace Handover

open Procedure Ledger

namespace Orchestrator

variable {admin a : String} {c : Chain}

/-- The settings suffice for importing so many tokens : calls import something, there are enough
of them, and the gas limit of each is enough. -/
structure Suffices (o : Orchestrator) (c : Chain) (tokens : Nat) : Prop where
  nonzero : o.settings.pagesPerCall ≠ some 0
  enough : o.callsOn c tokens ≤ o.settings.maxPageCalls.toNat
  covers : ∀ call < o.callsOn c tokens, o.CoversCall c (o.tokensIn c tokens call)

/-- A run completes the import in so many calls. -/
def CompletesIn (o : Orchestrator) (i : Import c.ledger admin a) (calls : Nat) : Prop :=
  ∃ s c' t, (o.importTokens i.contract.info admin).Yields c s c' ∧ s.complete = true ∧
    s.calls.toNat = calls ∧ c'.limits.length = c.limits.length + calls ∧ i.Completed c'.ledger t

/-- A run fails when all calls are used up. They have imported their pages in full, and settings
that suffice for what is left complete the import later. -/
def FallsShort (o : Orchestrator) (i : Import c.ledger admin a) (pages : UInt32) : Prop :=
  ∃ c' : Chain, ∃ i' : Import c'.ledger admin a,
    (o.importTokens i.contract.info admin).Fails c
      (.paging (.incomplete a o.settings.maxPageCalls)) c' ∧
    o.Paged pages i o.settings.maxPageCalls.toNat i' ∧
    i'.collection.tokens.length = i.collection.tokens.length +
      o.settings.maxPageCalls.toNat * o.tokensPer c pages ∧
    ∀ o' : Orchestrator, o'.Suffices c' i'.remaining →
      o'.CompletesIn i' (o'.callsOn c' i'.remaining)

variable {i : Import c.ledger admin a}

/-- Enough pages and calls complete the import, in as many calls as it takes. -/
theorem Suffices.completesIn {o : Orchestrator} (h : o.Suffices c i.remaining) (sound : i.Sound) :
    o.CompletesIn i (o.callsOn c i.remaining) := by
  obtain ⟨s, c', t, hyields, hcomplete, hcalls, hlimits, -, -, hdone⟩ :=
    yields_importFrom h.nonzero sound (ImportProgress.fits_start i) h.covers h.enough
  have hword := Nat.lt_of_le_of_lt h.enough o.settings.maxPageCalls.toNat_lt
  refine ⟨s, c', t, hyields, hcomplete, ?_, hlimits, hdone⟩
  rw [hcalls, ImportProgress.start, UInt32.zero_add, UInt32.toNat_ofNat_of_lt' hword]

/-- Too few calls fall short. -/
theorem fallsShort {o : Orchestrator} {pages : UInt32} (hc : c.Reachable)
    (small : i.sourceCollection.tokens.length < UInt32.size)
    (hpages : o.settings.pagesPerCall = some pages) (nonzero : pages ≠ 0)
    (few : o.settings.maxPageCalls.toNat < o.callsOn c i.remaining)
    (covers : ∀ call < o.settings.maxPageCalls.toNat,
      o.CoversCall c (o.tokensIn c i.remaining call)) : o.FallsShort i pages := by
  obtain ⟨c', i', s', hturned, hfails⟩ := fails_importFrom hpages nonzero
    (i.sound hc.reached small) (ImportProgress.fits_start i) few covers
  rw [ImportProgress.start, UInt32.zero_add, UInt32.ofNat_toNat] at hfails
  have hsmall : i'.sourceCollection.tokens.length < UInt32.size :=
    hturned.sourceCollection ▸ small
  have hpart := i'.partOf (hturned.reachable hc).reached hsmall
  refine ⟨c', i', hfails, hturned.toPaged, ?_, fun o' h => h.completesIn hturned.sound⟩
  rw [hpart.length_tokens, (i.partOf hc.reached small).length_tokens, hturned.cursor]

/-- Calls of no pages fail with the second report, or before when there are fewer calls. -/
theorem fails_importTokens_of_zero {o : Orchestrator} (sound : i.Sound)
    (hpages : o.settings.pagesPerCall = some 0) (left : 0 < i.remaining)
    (covers : 0 < o.settings.maxPageCalls.toNat → o.CoversCall c 0) :
    ∃ why, ∃ c' : Chain, ∃ i' : Import c'.ledger admin a,
      (o.importTokens i.contract.info admin).Fails c (.paging why) c' ∧
      o.Paged 0 i (min 2 o.settings.maxPageCalls.toNat) i' := by
  rw [importTokens]
  generalize o.settings.maxPageCalls.toNat = calls at covers ⊢
  have hzero : ∀ c : Chain, o.tokensPer c 0 = 0 := fun _ => Nat.zero_mul _
  cases calls with
  | zero => exact ⟨_, c, i, fails_throw _ c, .refl sound⟩
  | succ calls =>
    have hcovers := covers (Nat.succ_pos calls)
    obtain ⟨c', i', h⟩ := turned_one (s := .start) hpages sound (hzero c ▸ left)
      (fun _ ht => by cases ht) (fun _ hn => by cases hn) (hzero c ▸ hcovers)
    cases calls with
    | zero => exact ⟨_, c', i', (h.goesOn 0).trans (fails_throw _ c'), h.toPaged⟩
    | succ calls =>
      -- The cursor is where it was, which the second report shows.
      have hleft : 0 < i'.remaining := by
        rw [h.remaining, hzero, Nat.mul_zero]
        exact left
      obtain ⟨c'', i'', h', hcall⟩ := paged_one hpages h.sound (hzero c' ▸ hleft)
        (hzero c' ▸ h.coversCall hcovers)
      have hcursor : i''.collection.importCursor = i'.collection.importCursor := by
        refine UInt32.toNat_inj.1 ?_
        rw [h'.cursor, hzero, Nat.mul_zero, Nat.add_zero]
      have htotal : i''.total = i'.total := by rw [Import.total, h'.sourceCollection]; rfl
      obtain ⟨s, hobserve⟩ := ImportProgress.observe_stalled
        (s := ⟨false, some i'.collection.importCursor, some i'.total, ImportProgress.start.calls + 1⟩)
        rfl rfl
      rw [hcursor, htotal] at hcall
      have hfails := (h.goesOn (calls + 1)).trans (fails_importFrom_refused hcall hobserve calls)
      have hcalls : 1 + (calls + 1) = calls + 1 + 1 := by omega
      have hmin : min 2 (calls + 1 + 1) = 1 + 1 := by omega
      rw [hcalls] at hfails
      exact ⟨_, c'', i'', hfails, hmin ▸ h.toPaged.trans h'⟩

end Orchestrator

/-- On a reachable chain, a run of the orchestrator for the admin goes on with an import from
wherever it is. If the settings suffice it completes the import in exactly the calls that are
needed : one without a number of pages, and else as many as what is left has pages for, but at
least one. With fewer calls it falls short. With calls of no pages it fails after at most two of
them, which import nothing. -/
theorem Chain.Reachable.import_calls {c : Chain} (h : c.Reachable) {a : String} {k : Contract}
    (found : c.ledger.contract? a = some k) (importing : k.mode = .migrateDataIn) :
    ∃ admin, ∃ i : Import c.ledger admin a, i.contract = k ∧
      (i.sourceCollection.tokens.length < UInt32.size → ∀ o : Orchestrator,
        (o.Suffices c i.remaining → o.CompletesIn i (o.callsOn c i.remaining)) ∧
        (∀ pages, o.settings.pagesPerCall = some pages → pages ≠ 0 →
          o.settings.maxPageCalls.toNat < o.callsOn c i.remaining →
          (∀ call < o.settings.maxPageCalls.toNat,
            o.CoversCall c (o.tokensIn c i.remaining call)) → o.FallsShort i pages) ∧
        (o.settings.pagesPerCall = some 0 → 0 < i.remaining →
          (0 < o.settings.maxPageCalls.toNat → o.CoversCall c 0) →
          ∃ why, ∃ c' : Chain, ∃ i' : Import c'.ledger admin a,
            (o.importTokens i.contract.info admin).Fails c (.paging why) c' ∧
            o.Paged 0 i (min 2 o.settings.maxPageCalls.toNat) i')) := by
  obtain ⟨admin, i, rfl⟩ := exists_import h.reached.wellLinked found importing
  refine ⟨admin, i, rfl, fun small o => ⟨fun hsuffices => ?_, ?_, ?_⟩⟩
  · exact hsuffices.completesIn (i.sound h.reached small)
  · exact fun pages hpages nonzero few covers =>
      Orchestrator.fallsShort h small hpages nonzero few covers
  · exact fun hpages left covers =>
      Orchestrator.fails_importTokens_of_zero (i.sound h.reached small) hpages left covers

namespace Chain

/-- An orchestrator that asks for so many pages of two tokens in a call. -/
def pager (pages : Option UInt32) (maxPageCalls : UInt32) : Orchestrator :=
  ⟨.standard, ⟨"test", some 2, pages, maxPageCalls⟩, ⟨0, "0.5"⟩⟩

theorem covers_pager (pages : Option UInt32) (maxPageCalls : UInt32) (call : Nat) :
    (pager pages maxPageCalls).CoversCall moving
      ((pager pages maxPageCalls).tokensIn moving 3 call) :=
  (covers_standard.2 _ (Orchestrator.tokensIn_le _ _ 3 call)).on failSimulations_moving

/-- The three tokens are imported by two calls of a page of two tokens. One such call falls short,
and of five calls without pages two are made. -/
theorem moving_import_calls :
    (∃ s c', ((pager (some 1) 2).importTokens freshContract.info "secret1admin").Yields moving s c' ∧
      s.complete = true ∧ s.calls.toNat = 2) ∧
    (∃ c', ((pager (some 1) 1).importTokens freshContract.info "secret1admin").Fails moving
      (.paging (.incomplete "secret1contract0003" 1)) c') ∧
    ∃ why c', ((pager (some 0) 5).importTokens freshContract.info "secret1admin").Fails moving
      (.paging why) c' ∧ c'.limits.length = moving.limits.length + 2 := by
  have hfound : moving.ledger.contract? "secret1contract0003" = some freshContract := rfl
  obtain ⟨admin, i, hi, hall⟩ := reachable_moving.import_calls hfound rfl
  obtain ⟨-, hcollection, hsource⟩ := movingImport.eq_of_same i
  obtain rfl : admin = "secret1admin" := i.isAdmin.trans (by rw [hcollection]; rfl)
  have hleft : i.remaining = 3 := by
    rw [Import.remaining, hcollection, hsource]
    rfl
  have hruns := hall (by rw [hsource]; decide)
  simp only [hleft, Orchestrator.CompletesIn, Orchestrator.FallsShort, hi] at hruns
  refine ⟨?_, ?_, ?_⟩
  · obtain ⟨s, c', t, hyields, hcomplete, hcalls, -, -⟩ := (hruns (pager (some 1) 2)).1
      ⟨by decide, Nat.le_refl 2, fun call _ => covers_pager _ _ call⟩
    exact ⟨s, c', hyields, hcomplete, hcalls⟩
  · obtain ⟨c', i', hfails, -⟩ := (hruns (pager (some 1) 1)).2.1 1 rfl (by decide) Nat.one_lt_two
      fun call _ => covers_pager _ _ call
    exact ⟨c', hfails⟩
  · obtain ⟨why, c', i', hfails, hpaged⟩ := (hruns (pager (some 0) 5)).2.2 rfl (by decide)
      fun _ => covers_pager (some 0) 5 0
    have htwo : min 2 (pager (some 0) 5).settings.maxPageCalls.toNat = 2 := rfl
    rw [htwo] at hpaged
    exact ⟨why, c', hfails, hpaged.limits⟩

end Chain

end Handover

import Handover.Migration.Orchestrator
import Handover.Proofs.Contract.Lawful
import Handover.Proofs.Ledger.Importing
import Handover.Proofs.Migration.Play

/-!
# Importing until it is complete

The orchestrator calls until the collection reports that the import is complete. Its own checks
of the reports never fail on those of the chain : the total stays, and the cursor moves forward
as long as a call imports at least one page. `Turned` is how the loop stands after calls of full
pages. So the number of calls decides : enough of them complete the import
(`yields_importFrom`), and fewer import that many pages and no more (`fails_importFrom`).
-/

namespace Handover

open Procedure Ledger

namespace ImportProgress

/-- A report of more to come is taken in if the total is the one seen and the cursor is new. -/
theorem observe_more {s : ImportProgress} {stop total : UInt32}
    (seenTotal : ∀ t ∈ s.total, t = total) (seenIndex : ∀ n ∈ s.nextIndex, n < stop)
    (inside : stop ≤ total) : s.observe ⟨false, some stop, some total⟩ =
      (⟨false, some stop, some total, s.calls + 1⟩, none) := by
  obtain ⟨complete, nextIndex, seen, calls⟩ := s
  have htotal : observeTotal ⟨complete, nextIndex, seen, calls + 1⟩ (some total) =
      (⟨complete, nextIndex, some total, calls + 1⟩, none) := by
    cases seen with
    | none => rfl
    | some t =>
      obtain rfl : t = total := seenTotal t rfl
      simp [observeTotal]
  have hnot : ¬total < stop := UInt32.not_lt.2 inside
  have hcursor : observeCursor ⟨complete, nextIndex, some total, calls + 1⟩ (some stop) =
      (⟨complete, some stop, some total, calls + 1⟩, none) := by
    cases nextIndex with
    | none => simp [observeCursor, observeCursor.place, hnot]
    | some n =>
      have hn : ¬stop ≤ n := UInt32.not_le.2 (seenIndex n rfl)
      simp [observeCursor, observeCursor.place, hn, hnot]
  simp [observe, htotal, hcursor]

/-- The last report is taken in as it is. -/
theorem observe_last (s : ImportProgress) :
    s.observe ⟨true, none, none⟩ = (⟨true, s.nextIndex, s.total, s.calls + 1⟩, none) := rfl

/-- A report of the same cursor again is refused. -/
theorem observe_stalled {s : ImportProgress} {cursor total : UInt32}
    (seenTotal : s.total = some total) (seenIndex : s.nextIndex = some cursor) :
    ∃ s', s.observe ⟨false, some cursor, some total⟩ =
      (s', some (.cursorStalled cursor (s.calls + 1))) := by
  obtain ⟨complete, nextIndex, seen, calls⟩ := s
  obtain rfl : seen = some total := seenTotal
  obtain rfl : nextIndex = some cursor := seenIndex
  exact ⟨⟨complete, some cursor, some total, calls + 1⟩,
    by simp [observe, observeTotal, observeCursor]⟩

/-- What was observed fits to an import. -/
structure Fits {l : Ledger} {admin a : String} (s : ImportProgress) (i : Import l admin a) :
    Prop where
  total : ∀ t ∈ s.total, t = i.total
  index : ∀ n ∈ s.nextIndex, n ≤ i.collection.importCursor

/-- The first state of the loop fits every import. -/
theorem fits_start {l : Ledger} {admin a : String} (i : Import l admin a) :
    ImportProgress.start.Fits i where
  total _ ht := by cases ht
  index _ hn := by cases hn

end ImportProgress

namespace Orchestrator

/-- The size of a page on a chain, which picks when the settings do not. -/
def pageSizeOn (o : Orchestrator) (c : Chain) : UInt32 :=
  o.settings.pageSize.getD c.rules.pageSize

/-- The number of calls that importing some tokens takes. -/
def callsOn (o : Orchestrator) (c : Chain) (tokens : Nat) : Nat :=
  callsFor o.settings.pagesPerCall (o.pageSizeOn c) tokens

/-- The number of tokens in so many pages. -/
def tokensPer (o : Orchestrator) (c : Chain) (pages : UInt32) : Nat :=
  pages.toNat * max (o.pageSizeOn c).toNat 1

/-- How many tokens a call imports, counted from zero, if so many are left before all calls. -/
def tokensIn (o : Orchestrator) (c : Chain) (tokens call : Nat) : Nat :=
  match o.settings.pagesPerCall with
  | none => tokens
  | some pages => min (o.tokensPer c pages) (tokens - call * o.tokensPer c pages)

/-- The gas of a call that imports so many tokens is covered. -/
def CoversCall (o : Orchestrator) (c : Chain) (tokens : Nat) : Prop :=
  o.gas.CoversOn c (executeGas + tokens * 10000)

/-- A call of some pages imports at least one token. -/
theorem tokensPer_pos (o : Orchestrator) (c : Chain) {pages : UInt32} (h : pages ≠ 0) :
    0 < o.tokensPer c pages := by
  have hpos : 0 < pages.toNat := Nat.pos_of_ne_zero fun hz => h (UInt32.toNat_inj.1 hz)
  exact Nat.mul_pos hpos (Nat.lt_of_lt_of_le Nat.one_pos (Nat.le_max_right _ _))

/-- No call imports more tokens than there are. -/
theorem tokensIn_le (o : Orchestrator) (c : Chain) (tokens call : Nat) :
    o.tokensIn c tokens call ≤ tokens := by
  unfold tokensIn
  split
  · exact Nat.le_refl _
  · exact Nat.le_trans (Nat.min_le_right _ _) (Nat.sub_le _ _)

/-- A call that is not the last one imports its pages in full. -/
theorem tokensIn_of_lt {o : Orchestrator} {c : Chain} {tokens call : Nat} {pages : UInt32}
    (hpages : o.settings.pagesPerCall = some pages)
    (hlt : (call + 1) * o.tokensPer c pages ≤ tokens) :
    o.tokensIn c tokens call = o.tokensPer c pages := by
  rw [Nat.succ_mul] at hlt
  simp only [tokensIn, hpages]
  omega

/-- The last call imports what is left. -/
theorem tokensIn_of_le {o : Orchestrator} {c : Chain} {tokens call : Nat} {pages : UInt32}
    (hpages : o.settings.pagesPerCall = some pages)
    (hle : tokens ≤ (call + 1) * o.tokensPer c pages) :
    o.tokensIn c tokens call = tokens - call * o.tokensPer c pages := by
  rw [Nat.succ_mul] at hle
  simp only [tokensIn, hpages]
  omega

/-! ## One call -/

variable {admin a : String}

section Call

variable {c : Chain} {i : Import c.ledger admin a}

/-- Where a call stops. -/
def stopOn (o : Orchestrator) (i : Import c.ledger admin a) : UInt32 :=
  i.stop o.settings.pagesPerCall (o.pageSizeOn c)

/-- The message of a call runs the import. -/
theorem apply_importMsg (o : Orchestrator) {l : Ledger} {stop : UInt32}
    (ran : c.ledger.nextBlock.importTokens admin a o.settings.pagesPerCall (o.pageSizeOn c) =
      .ok (i.outcome stop, l)) :
    apply c.rules c.ledger.nextBlock (i.contract.info.executeMsg admin (toJson
      (CollectionMsg.migrateTokensIn o.settings.pagesPerCall o.settings.pageSize)) []) =
        .ok (i.outcome stop, l) := by
  have hmsg := ofObject?_toJson
    (CollectionMsg.migrateTokensIn o.settings.pagesPerCall o.settings.pageSize)
  have ha : i.contract.address = a := address_of_contract? i.found
  change apply c.rules c.ledger.nextBlock (.execute admin i.contract.address _ _ _) = _
  rw [ha]
  exact (i.inNextBlock.apply_eq c.rules [] hmsg).trans ran

/-- A call of an import yields what the collection reports. -/
theorem yields_importCall (o : Orchestrator) {l : Ledger} {stop : UInt32}
    (ran : c.ledger.nextBlock.importTokens admin a o.settings.pagesPerCall (o.pageSizeOn c) =
      .ok (i.outcome stop, l)) (covers : o.gas.CoversOn c (i.outcome stop).gasUsed) :
    (o.importCall i.contract.info admin).Yields c (i.answer stop)
      (c.sent l (o.gas.limitOn c (i.outcome stop).gasUsed)) := by
  refine Yields.bind
    (yields_execute o.gas (o.apply_importMsg ran) rfl covers (readBytes_importAnswer _)) ?_
  exact Yields.bind (yields_ofExcept rfl _) (yields_pure _ _)

/-- After a report of more to come, the loop goes on. -/
theorem play_importFrom_more {o : Orchestrator} {destination : ContractInfo} {c' : Chain}
    {s s' : ImportProgress} {answer : ImportAnswer}
    (hcall : (o.importCall destination admin).Yields c answer c')
    (observed : s.observe answer = (s', none)) (more : s'.complete = false) (calls : Nat) :
    Dialogue.play Chain.partner (o.importFrom destination admin (calls + 1) s).run c =
      Dialogue.play Chain.partner (o.importFrom destination admin calls s').run c' := by
  refine (hcall.play_bind _).trans ?_
  simp only [observed, more, Bool.false_eq_true, if_false]

/-- The last report ends the loop. -/
theorem yields_importFrom_last {o : Orchestrator} {destination : ContractInfo} {c' : Chain}
    {s s' : ImportProgress} {answer : ImportAnswer}
    (hcall : (o.importCall destination admin).Yields c answer c')
    (observed : s.observe answer = (s', none)) (complete : s'.complete = true) (calls : Nat) :
    (o.importFrom destination admin (calls + 1) s).Yields c s' c' := by
  refine hcall.bind ?_
  simp only [observed, complete, if_true]
  exact yields_pure s' c'

/-- A report that is refused ends the loop with a fault. -/
theorem fails_importFrom_refused {o : Orchestrator} {destination : ContractInfo} {c' : Chain}
    {s s' : ImportProgress} {answer : ImportAnswer} {why : PagingFault}
    (hcall : (o.importCall destination admin).Yields c answer c')
    (observed : s.observe answer = (s', some why)) (calls : Nat) :
    (o.importFrom destination admin (calls + 1) s).Fails c (.paging why) c' := by
  refine (hcall.play_bind _).trans ?_
  simp only [observed]
  exact fails_throw _ c'

/-- A call for all that is left, or for as many pages as that has, completes the import. -/
theorem yields_importFrom_one (o : Orchestrator) (sound : i.Sound)
    (last : o.stopOn i = i.total)
    (covers : o.CoversCall c i.remaining) (s : ImportProgress) (calls : Nat) :
    ∃ c' t, (o.importFrom i.contract.info admin (calls + 1) s).Yields c
        ⟨true, s.nextIndex, s.total, s.calls + 1⟩ c' ∧ c'.rules = c.rules ∧
      c'.limits.length = c.limits.length + 1 ∧ (c.Reachable → c'.Reachable) ∧
      i.Completed c'.ledger t := by
  have hsound : i.inNextBlock.Sound := ⟨sound.cursor_le, sound.small, sound.apart⟩
  have hran : c.ledger.nextBlock.importTokens admin a o.settings.pagesPerCall (o.pageSizeOn c) =
      .ok (i.outcome i.total, i.inNextBlock.finished i.total i.source) :=
    Import.importTokens_of_eq hsound last
  have hgas : o.gas.CoversOn c (i.outcome i.total).gasUsed := by
    rw [CoversCall, Import.remaining, ← sound.toNat_total] at covers
    exact covers
  have hcall := o.yields_importCall hran hgas
  rw [Import.answer, if_pos rfl] at hcall
  refine ⟨_, _, yields_importFrom_last hcall s.observe_last rfl calls, rfl, ?_, ?_,
    (Import.completed_finished hsound).of_inNextBlock⟩
  · simp [Chain.sent]
  · exact fun h => h.sent (o.apply_importMsg hran) rfl hgas

end Call

/-! ## Many calls -/

/-- `n` calls of full pages lead to another chain and leave another import there. -/
structure Paged (o : Orchestrator) (pages : UInt32) {c c' : Chain} (i : Import c.ledger admin a)
    (n : Nat) (i' : Import c'.ledger admin a) : Prop where
  reachable : c.Reachable → c'.Reachable
  rules : c'.rules = c.rules
  failSimulations : c'.failSimulations = c.failSimulations
  limits : c'.limits.length = c.limits.length + n
  sound : i'.Sound
  sourceCollection : i'.sourceCollection = i.sourceCollection
  info : i'.contract.info = i.contract.info
  cursor : i'.collection.importCursor.toNat =
    i.collection.importCursor.toNat + n * o.tokensPer c pages
  completes : ∀ l t, i'.Completed l t → i.Completed l t

namespace Paged

variable {o : Orchestrator} {pages : UInt32} {c c' c'' : Chain} {i : Import c.ledger admin a}
  {i' : Import c'.ledger admin a} {i'' : Import c''.ledger admin a} {n m : Nat}

/-- No calls leave the import where it is. -/
theorem refl (sound : i.Sound) : Paged o pages i 0 i where
  reachable h := h
  rules := rfl
  failSimulations := rfl
  limits := rfl
  sound := sound
  sourceCollection := rfl
  info := rfl
  cursor := by rw [Nat.zero_mul, Nat.add_zero]
  completes _ _ h := h

theorem tokensPer (h : Paged o pages i n i') (pages' : UInt32) :
    o.tokensPer c' pages' = o.tokensPer c pages' := by
  rw [Orchestrator.tokensPer, pageSizeOn, h.rules]
  rfl

/-- The gas of a call is covered after other calls if it was before. -/
theorem coversCall (h : Paged o pages i n i') {tokens : Nat} (covers : o.CoversCall c tokens) :
    o.CoversCall c' tokens := by
  rw [CoversCall, GasSettings.CoversOn, GasSettings.limitOn, h.failSimulations]
  exact covers

/-- Calls after calls are calls. -/
theorem trans (h : Paged o pages i n i') (h' : Paged o pages i' m i'') :
    Paged o pages i (n + m) i'' where
  reachable hc := h'.reachable (h.reachable hc)
  rules := h'.rules.trans h.rules
  failSimulations := h'.failSimulations.trans h.failSimulations
  limits := by rw [h'.limits, h.limits, Nat.add_assoc]
  sound := h'.sound
  sourceCollection := h'.sourceCollection.trans h.sourceCollection
  info := h'.info.trans h.info
  cursor := by rw [h'.cursor, h.cursor, h.tokensPer, Nat.add_assoc, Nat.add_mul]
  completes l t hl := h.completes l t (h'.completes l t hl)

/-- What is left after some calls. -/
theorem remaining (h : Paged o pages i n i') :
    i'.remaining = i.remaining - n * o.tokensPer c pages := by
  rw [Import.remaining, h.sourceCollection, h.cursor, ← Nat.sub_sub]
  rfl

end Paged

/-- After such calls the loop is where it would be with the calls that are left. -/
structure Turned (o : Orchestrator) (pages : UInt32) {c c' : Chain} (i : Import c.ledger admin a)
    (s : ImportProgress) (n : Nat) (i' : Import c'.ledger admin a) (s' : ImportProgress) : Prop
    extends Paged o pages i n i' where
  goesOn : ∀ calls,
    Dialogue.play Chain.partner (o.importFrom i.contract.info admin (n + calls) s).run c =
      Dialogue.play Chain.partner (o.importFrom i'.contract.info admin calls s').run c'
  calls : s'.calls = s.calls + UInt32.ofNat n
  fits : s'.Fits i'

theorem Turned.trans {o : Orchestrator} {pages : UInt32} {c c' c'' : Chain}
    {i : Import c.ledger admin a} {i' : Import c'.ledger admin a} {i'' : Import c''.ledger admin a}
    {s s' s'' : ImportProgress} {n m : Nat} (h : Turned o pages i s n i' s')
    (h' : Turned o pages i' s' m i'' s'') : Turned o pages i s (n + m) i'' s'' where
  toPaged := h.toPaged.trans h'.toPaged
  goesOn calls := by rw [Nat.add_assoc, h.goesOn, h'.goesOn]
  calls := by rw [h'.calls, h.calls, UInt32.add_assoc, UInt32.ofNat_add]
  fits := h'.fits

section Loop

variable {o : Orchestrator} {pages : UInt32} {c : Chain} {i : Import c.ledger admin a}
  {s : ImportProgress}

/-- A call of fewer pages than are left imports them and reports the cursor. -/
theorem paged_one (hpages : o.settings.pagesPerCall = some pages) (sound : i.Sound)
    (hlt : o.tokensPer c pages < i.remaining) (covers : o.CoversCall c (o.tokensPer c pages)) :
    ∃ c' : Chain, ∃ i' : Import c'.ledger admin a, Paged o pages i 1 i' ∧
      (o.importCall i.contract.info admin).Yields c
        ⟨false, some i'.collection.importCursor, some i'.total⟩ c' := by
  have hsound : i.inNextBlock.Sound := ⟨sound.cursor_le, sound.small, sound.apart⟩
  obtain ⟨hstop, more⟩ := sound.stop_of_lt hlt
  rw [← hpages] at hstop more
  change (o.stopOn i).toNat = _ + o.tokensPer c pages at hstop
  change o.stopOn i ≠ i.total at more
  have hran : c.ledger.nextBlock.importTokens admin a o.settings.pagesPerCall (o.pageSizeOn c) =
      .ok (i.outcome (o.stopOn i), c.ledger.nextBlock.put
        (i.inNextBlock.destination (o.stopOn i))) :=
    i.inNextBlock.importTokens_of_ne more
  have hgas : o.gas.CoversOn c (i.outcome (o.stopOn i)).gasUsed := by
    change o.gas.CoversOn c (executeGas + (_ - _) * 10000)
    rw [hstop, Nat.add_sub_cancel_left]
    exact covers
  have hcall := o.yields_importCall hran hgas
  rw [Import.answer, if_neg more] at hcall
  refine ⟨c.sent (c.ledger.nextBlock.put (i.inNextBlock.destination (o.stopOn i)))
    (o.gas.limitOn c (i.outcome (o.stopOn i)).gasUsed),
    i.inNextBlock.next hsound (o.stopOn i), ?_, hcall⟩
  exact {
    reachable := fun h => h.sent (o.apply_importMsg hran) rfl hgas
    rules := rfl
    failSimulations := rfl
    limits := by simp [Chain.sent]
    sound := hsound.next _ _
    sourceCollection := rfl
    info := rfl
    cursor := by rw [Nat.one_mul]; exact hstop
    completes := fun _ _ hdone => (Import.Completed.of_next hsound hdone).of_inNextBlock }

/-- Such a call turns the loop once, if its report is new. -/
theorem turned_one (hpages : o.settings.pagesPerCall = some pages) (sound : i.Sound)
    (hlt : o.tokensPer c pages < i.remaining) (seenTotal : ∀ t ∈ s.total, t = i.total)
    (new : ∀ n ∈ s.nextIndex,
      n.toNat < i.collection.importCursor.toNat + o.tokensPer c pages)
    (covers : o.CoversCall c (o.tokensPer c pages)) :
    ∃ c' : Chain, ∃ i' : Import c'.ledger admin a, Turned o pages i s 1 i'
      ⟨false, some i'.collection.importCursor, some i'.total, s.calls + 1⟩ := by
  obtain ⟨c', i', h, hcall⟩ := paged_one hpages sound hlt covers
  have hcursor := h.cursor
  rw [Nat.one_mul] at hcursor
  have htotal : i'.total = i.total := by rw [Import.total, h.sourceCollection]; rfl
  have hnew : ∀ n ∈ s.nextIndex, n < i'.collection.importCursor := by
    intro n hn
    rw [UInt32.lt_iff_toNat_lt, hcursor]
    exact new n hn
  have hinside : i'.collection.importCursor ≤ i'.total := by
    rw [UInt32.le_iff_toNat_le, h.sound.toNat_total]
    exact h.sound.cursor_le
  have hobserve := ImportProgress.observe_more (htotal ▸ seenTotal) hnew hinside
  refine ⟨c', i', h, fun calls => ?_, rfl, fun _ ht => (Option.some.inj ht).symm,
    fun _ hn => UInt32.le_of_eq (Option.some.inj hn).symm⟩
  rw [Nat.add_comm, h.info]
  exact play_importFrom_more hcall hobserve rfl calls

/-- The loop turns as often as calls of full pages leave something. -/
theorem exists_turned (hpages : o.settings.pagesPerCall = some pages) (sound : i.Sound)
    (fits : s.Fits i) (hpos : 0 < o.tokensPer c pages) :
    ∀ n, n = 0 ∨ n * o.tokensPer c pages < i.remaining →
      (0 < n → o.CoversCall c (o.tokensPer c pages)) →
      ∃ c' : Chain, ∃ i' : Import c'.ledger admin a, ∃ s', Turned o pages i s n i' s'
  | 0, _, _ => ⟨c, i, s, .refl sound, fun calls => by rw [Nat.zero_add],
      (UInt32.add_zero _).symm, fits⟩
  | n + 1, hleft, covers => by
    have hlt : n * o.tokensPer c pages + o.tokensPer c pages < i.remaining := by
      rw [← Nat.succ_mul]
      exact hleft.resolve_left (Nat.succ_ne_zero n)
    obtain ⟨c', i', s', h⟩ := exists_turned hpages sound fits hpos n (Or.inr (by omega))
      fun _ => covers (Nat.succ_pos n)
    have hmore : o.tokensPer c' pages < i'.remaining := by
      rw [h.tokensPer, h.remaining]
      omega
    have hnew : ∀ m ∈ s'.nextIndex,
        m.toNat < i'.collection.importCursor.toNat + o.tokensPer c' pages := by
      intro m hm
      have hle := UInt32.le_iff_toNat_le.1 (h.fits.index m hm)
      rw [h.tokensPer]
      omega
    have hcovers : o.CoversCall c' (o.tokensPer c' pages) := by
      rw [h.tokensPer]
      exact h.coversCall (covers (Nat.succ_pos n))
    obtain ⟨c'', i'', h'⟩ := turned_one hpages h.sound hmore h.fits.total hnew hcovers
    exact ⟨c'', i'', _, h.trans h'⟩

/-- Enough calls complete an import, from wherever it is. -/
theorem yields_importFrom (nonzero : o.settings.pagesPerCall ≠ some 0) (sound : i.Sound)
    (fits : s.Fits i)
    (covers : ∀ call < o.callsOn c i.remaining, o.CoversCall c (o.tokensIn c i.remaining call))
    {calls : Nat} (enough : o.callsOn c i.remaining ≤ calls) :
    ∃ s' c' t, (o.importFrom i.contract.info admin calls s).Yields c s' c' ∧
      s'.complete = true ∧ s'.calls = s.calls + UInt32.ofNat (o.callsOn c i.remaining) ∧
      c'.limits.length = c.limits.length + o.callsOn c i.remaining ∧ c'.rules = c.rules ∧
      (c.Reachable → c'.Reachable) ∧ i.Completed c'.ledger t := by
  obtain ⟨rest, rfl⟩ := Nat.exists_eq_add_of_le enough
  cases hpages : o.settings.pagesPerCall with
  | none =>
    have hone : o.callsOn c i.remaining = 1 := by rw [callsOn, hpages]; rfl
    have hlast : o.stopOn i = i.total := by rw [stopOn, hpages]; rfl
    have hcovers : o.CoversCall c i.remaining := by
      simpa [tokensIn, hpages] using covers 0 (hone ▸ Nat.one_pos)
    obtain ⟨c', t, hyields, hrules, hlimits, hreach, hdone⟩ :=
      o.yields_importFrom_one sound hlast hcovers s rest
    rw [hone, Nat.add_comm]
    exact ⟨_, c', t, hyields, rfl, rfl, hlimits, hrules, hreach, hdone⟩
  | some pages =>
    have hpos : 0 < o.tokensPer c pages := o.tokensPer_pos c fun h => nonzero (h ▸ hpages)
    have hneeded : ∀ n, n < o.callsOn c i.remaining ↔
        n = 0 ∨ n * o.tokensPer c pages < i.remaining := by
      intro n
      rw [callsOn, hpages]
      exact lt_callsFor _ hpos
    -- The last call takes what the calls of full pages before it have left.
    obtain ⟨n, hn⟩ := Nat.exists_eq_add_of_lt ((hneeded 0).2 (Or.inl rfl))
    rw [Nat.zero_add] at hn
    rw [hn] at hneeded covers ⊢
    have hleft := (hneeded n).1 (Nat.lt_succ_self n)
    have hlast : i.remaining ≤ (n + 1) * o.tokensPer c pages := by
      have hnot := mt (hneeded (n + 1)).2 (Nat.lt_irrefl _)
      omega
    have hfull : 0 < n → o.CoversCall c (o.tokensPer c pages) := by
      intro hn
      have hle := Nat.mul_le_mul_right (o.tokensPer c pages) (Nat.succ_le_of_lt hn)
      have hfirst := covers 0 (Nat.succ_pos n)
      rwa [tokensIn_of_lt hpages (by omega)] at hfirst
    obtain ⟨c', i', s', h⟩ := exists_turned hpages sound fits hpos n hleft hfull
    have hrest : i'.remaining ≤ o.tokensPer c' pages := by
      rw [Nat.succ_mul] at hlast
      rw [h.remaining, h.tokensPer]
      omega
    have hstop : o.stopOn i' = i'.total := by
      rw [stopOn, hpages]
      exact h.sound.stop_of_le hrest
    have hcovers : o.CoversCall c' i'.remaining := by
      have hcall := covers n (Nat.lt_succ_self n)
      rw [tokensIn_of_le hpages hlast, ← h.remaining] at hcall
      exact h.coversCall hcall
    obtain ⟨c'', t, hyields, hrules, hlimits, hreach, hdone⟩ :=
      o.yields_importFrom_one h.sound hstop hcovers s' rest
    have hcalls : n + 1 + rest = n + (rest + 1) := by omega
    have hplayed := (h.goesOn (rest + 1)).trans hyields
    rw [← hcalls] at hplayed
    refine ⟨_, c'', t, hplayed, rfl, ?_, ?_, hrules.trans h.rules,
      fun hc => hreach (h.reachable hc), h.completes _ t hdone⟩
    · rw [h.calls, UInt32.ofNat_add, UInt32.add_assoc]
      rfl
    · rw [hlimits, h.limits, Nat.add_assoc]

/-- Fewer calls import as many full pages, and leave the rest to be imported. -/
theorem fails_importFrom (hpages : o.settings.pagesPerCall = some pages) (nonzero : pages ≠ 0)
    (sound : i.Sound) (fits : s.Fits i) {calls : Nat} (few : calls < o.callsOn c i.remaining)
    (covers : ∀ call < calls, o.CoversCall c (o.tokensIn c i.remaining call)) :
    ∃ c' : Chain, ∃ i' : Import c'.ledger admin a, ∃ s', Turned o pages i s calls i' s' ∧
      (o.importFrom i.contract.info admin calls s).Fails c
        (.paging (.incomplete a (s.calls + UInt32.ofNat calls))) c' := by
  have hpos := o.tokensPer_pos c nonzero
  have hleft : calls = 0 ∨ calls * o.tokensPer c pages < i.remaining := by
    rw [callsOn, hpages] at few
    exact (lt_callsFor _ hpos).1 few
  have hfull : 0 < calls → o.CoversCall c (o.tokensPer c pages) := by
    intro hcalls
    have hle := Nat.mul_le_mul_right (o.tokensPer c pages) (Nat.succ_le_of_lt hcalls)
    have hfirst := covers 0 hcalls
    rwa [tokensIn_of_lt hpages (by omega)] at hfirst
  obtain ⟨c', i', s', h⟩ := exists_turned hpages sound fits hpos calls hleft hfull
  refine ⟨c', i', s', h, ?_⟩
  have ha : i'.contract.info.address = a := address_of_contract? i'.found
  have hstops : (o.importFrom i'.contract.info admin 0 s').Fails c'
      (.paging (.incomplete i'.contract.info.address s'.calls)) c' := fails_throw _ c'
  rw [ha, h.calls] at hstops
  exact (h.goesOn 0).trans hstops

end Loop

end Orchestrator

end Handover

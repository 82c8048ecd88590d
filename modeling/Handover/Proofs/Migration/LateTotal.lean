import Handover.Proofs.Migration.Reports

/-!
# A cursor past the total

A cursor is compared with the total that is known when it is reported. A total is compared with
the totals before it, but not with the cursor. So reports may all be accepted and still leave the
cursor past the total : when the total is reported for the first time after the last cursor, and
only then (`ImportProgress.cursor_past_total_iff`).
-/

namespace Handover

open ImportAnswer

/-! ## Reports up to the last cursor -/

namespace ImportAnswer

variable {as : List ImportAnswer} {early late : List ImportAnswer} {n t : UInt32}

theorem totals_append (as bs : List ImportAnswer) : totals (as ++ bs) = totals as ++ totals bs :=
  List.filterMap_append

theorem cursors_append (as bs : List ImportAnswer) :
    cursors (as ++ bs) = cursors as ++ cursors bs :=
  List.filterMap_append

/-- Reports end with a last one of a cursor and some that have none. -/
theorem exists_split_at_last_cursor (h : (cursors as).getLast? = some n) :
    ∃ before a late, as = before ++ a :: late ∧ a.nextMintIndex = some n ∧ cursors late = [] := by
  obtain ⟨init, hinit⟩ := List.getLast?_eq_some_iff.1 h
  obtain ⟨before, rest, rfl, -, hrest⟩ := List.filterMap_eq_append_iff.1 hinit
  obtain ⟨between, a, late, rfl, -, ha, hlate⟩ := List.filterMap_eq_cons_iff.1 hrest
  exact ⟨before ++ between, a, late, by simp, ha, hlate⟩

/-- Where the last cursor is past the total, no report up to that cursor has a total. -/
theorem FitTogether.totals_before (fit : FitTogether as) (last : (cursors as).getLast? = some n)
    (known : t ∈ totals as) (past : t < n) :
    ∃ early late, as = early ++ late ∧ totals early = [] ∧ cursors late = [] := by
  obtain ⟨before, a, late, rfl, hn, hlate⟩ := exists_split_at_last_cursor last
  refine ⟨before ++ [a], late, by simp, ?_, hlate⟩
  refine List.eq_nil_iff_forall_not_mem.2 fun t' ht' => ?_
  have hmem : t' ∈ totals (before ++ a :: late) := by
    rw [List.append_cons, totals_append]
    exact List.mem_append_left _ ht'
  have hinside : n ≤ t' := fit.inside before a late rfl n hn t' ht'
  rw [fit.total t' hmem t known] at hinside
  exact absurd past (UInt32.not_lt.2 hinside)

/-- A cursor comes early, where no total is known yet. -/
theorem prefix_early (noCursor : cursors late = []) {before after : List ImportAnswer}
    {a : ImportAnswer} (hsplit : early ++ late = before ++ a :: after)
    (hn : a.nextMintIndex = some n) : before ++ [a] <+: early := by
  have hbefore : before ++ [a] <+: early ++ late := ⟨after, by simp [hsplit]⟩
  rcases List.prefix_or_prefix_of_prefix hbefore (List.prefix_append early late) with h | ⟨rest, h⟩
  · exact h
  · rcases List.eq_nil_or_concat rest with rfl | ⟨rest, b, rfl⟩
    · exact ⟨[], by simpa using h.symm⟩
    · -- The report of the cursor would be one of the late ones.
      rw [List.concat_eq_append, ← List.append_assoc] at h
      obtain ⟨rfl, hb⟩ := List.append_inj' h rfl
      obtain rfl := (List.cons.inj hb).1
      have hmem : b ∈ late := by
        have hlate : rest ++ b :: after = late := by simpa using hsplit.symm
        simp [← hlate]
      have hcursor : n ∈ cursors late := List.mem_filterMap.2 ⟨b, hmem, hn⟩
      simp [noCursor] at hcursor

/-- Cursors that go up fit together with one total after all of them. -/
theorem fitTogether_append (noTotal : totals early = []) (noCursor : cursors late = [])
    (forward : (cursors early).Pairwise (· < ·)) (sameTotal : ∀ t' ∈ totals late, t' = t) :
    FitTogether (early ++ late) where
  total t₁ h₁ t₂ h₂ := by
    rw [totals_append, noTotal, List.nil_append] at h₁ h₂
    rw [sameTotal t₁ h₁, sameTotal t₂ h₂]
  cursor := by rwa [cursors_append, noCursor, List.append_nil]
  inside before a after hsplit n hn t' ht' := by
    have hearly : t' ∈ totals early :=
      ((prefix_early noCursor hsplit hn).filterMap _).subset ht'
    simp [noTotal] at hearly

end ImportAnswer

/-! ## Accepted reports -/

namespace ImportProgress

/-- Takes in reports one after the other, up to the first that does not fit. -/
def observeAll (s : ImportProgress) : List ImportAnswer → Except PagingFault ImportProgress
  | [] => .ok s
  | a :: as =>
    match s.observe a with
    | (_, some fault) => .error fault
    | (s, none) => s.observeAll as

/-- Accepted reports fit together, and the state is what they came to. -/
theorem observeAll_ofReports : ∀ (bs : List ImportAnswer) {as : List ImportAnswer}
    {s : ImportProgress}, FitTogether as →
      ((ofReports as).observeAll bs = .ok s ↔ FitTogether (as ++ bs) ∧ s = ofReports (as ++ bs))
  | [], as, s, fit => by simp [observeAll, fit, eq_comm]
  | b :: bs, as, s, fit => by
    rw [List.append_cons]
    rcases observe_ofReports fit b with ⟨after, hobserve⟩ | ⟨t, fault, breaks, hobserve⟩
    · rw [observeAll, hobserve]
      exact observeAll_ofReports bs (fit.append_singleton after)
    · have hrefused : (ofReports as).observeAll (b :: bs) = .error fault := by
        rw [observeAll, hobserve]
      have hbroken : ¬FitTogether ((as ++ [b]) ++ bs) := fun h =>
        breaks.not_fitTogether (h.of_prefix (List.prefix_append _ _))
      simp only [hrefused, hbroken, false_and, reduceCtorEq]

/-- Reports are accepted from the start exactly if they fit together. -/
theorem observeAll_start {as : List ImportAnswer} {s : ImportProgress} :
    start.observeAll as = .ok s ↔ FitTogether as ∧ s = ofReports as :=
  observeAll_ofReports as fitTogether_nil

/-- Accepted reports leave the cursor past the total exactly when all totals were reported after
the last cursor, and are too small for it. Whichever total that is, nothing refuses it. -/
theorem cursor_past_total_iff (as : List ImportAnswer) (n t : UInt32) :
    (∃ s, start.observeAll as = .ok s ∧ s.nextIndex = some n ∧ s.total = some t ∧ t < n) ↔
      t < n ∧ ∃ early late, as = early ++ late ∧ totals early = [] ∧ cursors late = [] ∧
        (cursors early).Pairwise (· < ·) ∧ (cursors early).getLast? = some n ∧
        totals late ≠ [] ∧ ∀ t' ∈ totals late, t' = t := by
  constructor
  · rintro ⟨s, haccepted, hn, ht, past⟩
    obtain ⟨fit, rfl⟩ := observeAll_start.1 haccepted
    have known : t ∈ totals as := List.mem_of_getLast? ht
    obtain ⟨early, late, rfl, noTotal, noCursor⟩ := fit.totals_before hn known past
    have htotals : totals (early ++ late) = totals late := by
      rw [totals_append, noTotal, List.nil_append]
    have hcursors : cursors (early ++ late) = cursors early := by
      rw [cursors_append, noCursor, List.append_nil]
    refine ⟨past, early, late, rfl, noTotal, noCursor, hcursors ▸ fit.cursor, hcursors ▸ hn,
      List.ne_nil_of_mem (htotals ▸ known), fun t' ht' => ?_⟩
    exact fit.total t' (htotals ▸ ht') t known
  · rintro ⟨past, early, late, rfl, noTotal, noCursor, forward, last, hasTotal, sameTotal⟩
    have fit := fitTogether_append noTotal noCursor forward sameTotal
    refine ⟨_, observeAll_start.2 ⟨fit, rfl⟩, ?_, ?_, past⟩
    · change (cursors (early ++ late)).getLast? = some n
      rwa [cursors_append, noCursor, List.append_nil]
    · change (totals (early ++ late)).getLast? = some t
      rw [totals_append, noTotal, List.nil_append]
      obtain ⟨init, t', hlate⟩ := List.eq_nil_or_concat (totals late) |>.resolve_left hasTotal
      have hlast : (totals late).getLast? = some t' := by simp [hlate]
      rw [hlast, sameTotal t' (List.mem_of_getLast? hlast)]

/-- A total of three after a cursor of five is accepted. -/
example : start.observeAll [⟨false, some 5, none⟩, ⟨false, none, some 3⟩] =
    .ok ⟨false, some 5, some 3, 2⟩ := rfl

end ImportProgress

end Handover

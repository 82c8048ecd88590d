import Handover.Proofs.Migration.Trace

/-!
# Which reports an import accepts

What the calls of an import report has to fit together : there is one total, the cursors move
forward, and no cursor is past a total reported by then (`FitTogether`). The loop only keeps the
last total, the last cursor and the number of calls (`ImportProgress.ofReports`). That is enough
to tell whether the next report fits (`ImportProgress.observe_ofReports`).

So a run of the loop is decided by the replies of the client, one call after the other, up to the
first that completes the import, fails or does not fit (`Verdict`). The loop asks exactly so far
(`Orchestrator.importTokens_accepts_iff`).
-/

namespace Handover

open Procedure

/-! ## Reports that fit together -/

namespace ImportAnswer

/-- The totals that were reported, in order. -/
def totals (as : List ImportAnswer) : List UInt32 :=
  as.filterMap ImportAnswer.total

/-- The cursors that were reported, in order. -/
def cursors (as : List ImportAnswer) : List UInt32 :=
  as.filterMap ImportAnswer.nextMintIndex

/-- All totals are the same, cursors move forward, and none is past a total that the same report
or an earlier one has. -/
structure FitTogether (as : List ImportAnswer) : Prop where
  total : ∀ t ∈ totals as, ∀ t' ∈ totals as, t = t'
  cursor : (cursors as).Pairwise (· < ·)
  inside : ∀ before a after, as = before ++ a :: after → ∀ n ∈ a.nextMintIndex,
    ∀ t ∈ totals (before ++ [a]), n ≤ t

/-- The report fits to those before it. -/
structure ComesAfter (as : List ImportAnswer) (a : ImportAnswer) : Prop where
  total : ∀ t ∈ a.total, ∀ t' ∈ totals as, t' = t
  cursor : ∀ n ∈ a.nextMintIndex, ∀ n' ∈ cursors as, n' < n
  inside : ∀ n ∈ a.nextMintIndex, ∀ t ∈ totals (as ++ [a]), n ≤ t

/-- How a report does not fit to those before it, if they fit together. -/
inductive Breaks (as : List ImportAnswer) (a : ImportAnswer) : PagingFault → Prop
  | totalChanged {seen total : UInt32} (before : seen ∈ totals as) (now : a.total = some total)
      (changed : seen ≠ total) : Breaks as a (.totalChanged seen total (.ofNat (as.length + 1)))
  | cursorStalled {seen n : UInt32} (sameTotal : ∀ t ∈ a.total, ∀ t' ∈ totals as, t' = t)
      (before : (cursors as).getLast? = some seen) (now : a.nextMintIndex = some n)
      (stalled : n ≤ seen) : Breaks as a (.cursorStalled seen (.ofNat (as.length + 1)))
  | cursorPastTotal {n total : UInt32} (sameTotal : ∀ t ∈ a.total, ∀ t' ∈ totals as, t' = t)
      (forward : ∀ n' ∈ cursors as, n' < n) (now : a.nextMintIndex = some n)
      (known : total ∈ totals (as ++ [a])) (past : total < n) :
      Breaks as a (.cursorPastTotal n total)

variable {as : List ImportAnswer} {a : ImportAnswer}

theorem totals_append_singleton (as : List ImportAnswer) (a : ImportAnswer) :
    totals (as ++ [a]) = totals as ++ a.total.toList := by
  cases h : a.total <;> simp [totals, List.filterMap_append, h]

theorem cursors_append_singleton (as : List ImportAnswer) (a : ImportAnswer) :
    cursors (as ++ [a]) = cursors as ++ a.nextMintIndex.toList := by
  cases h : a.nextMintIndex <;> simp [cursors, List.filterMap_append, h]

theorem fitTogether_nil : FitTogether [] := by
  refine ⟨by simp [totals], by simp [cursors], ?_⟩
  intro before a after h
  simp at h

/-- The first of reports that fit together do so too. -/
theorem FitTogether.of_prefix {bs : List ImportAnswer} (h : FitTogether bs) (hp : as <+: bs) :
    FitTogether as where
  total t ht t' ht' := h.total t ((hp.filterMap _).subset ht) t' ((hp.filterMap _).subset ht')
  cursor := h.cursor.sublist (hp.filterMap _).sublist
  inside before a after heq := by
    obtain ⟨rest, rfl⟩ := hp
    exact h.inside before a (after ++ rest) (by simp [heq])

/-- With a report of the same total or none there is still one total. -/
theorem FitTogether.total_append_singleton (h : FitTogether as)
    (sameTotal : ∀ t ∈ a.total, ∀ t' ∈ totals as, t' = t) :
    ∀ t ∈ totals (as ++ [a]), ∀ t' ∈ totals (as ++ [a]), t = t' := by
  rw [totals_append_singleton]
  intro t ht t' ht'
  rcases List.mem_append.1 ht with ht | ht <;> rcases List.mem_append.1 ht' with ht' | ht'
  · exact h.total t ht t' ht'
  · exact sameTotal t' (by simpa using ht') t ht
  · exact (sameTotal t (by simpa using ht) t' ht').symm
  · simp only [Option.mem_toList] at ht ht'
    exact Option.mem_unique ht ht'

/-- A report that comes after others which fit together fits too. -/
theorem FitTogether.append_singleton (h : FitTogether as) (ha : ComesAfter as a) :
    FitTogether (as ++ [a]) where
  total := h.total_append_singleton ha.total
  cursor := by
    rw [cursors_append_singleton]
    refine List.pairwise_append.2 ⟨h.cursor, ?_, fun n' hn' n hn => ?_⟩
    · cases a.nextMintIndex <;> simp
    · exact ha.cursor n (by simpa using hn) n' hn'
  inside before b after hb n hn t ht := by
    rcases List.eq_nil_or_concat after with rfl | ⟨after, last, rfl⟩
    · obtain ⟨rfl, hab⟩ := List.append_inj' hb rfl
      obtain rfl := (List.cons.inj hab).1
      exact ha.inside n hn t ht
    · have hb' : as ++ [a] = (before ++ b :: after) ++ [last] := by simpa using hb
      exact h.inside before b after (List.append_inj' hb' rfl).1 n hn t ht

/-- A report that does not fit to those before it, does not fit together with them. -/
theorem Breaks.not_fitTogether {fault : PagingFault} (h : Breaks as a fault) :
    ¬FitTogether (as ++ [a]) := by
  intro hfit
  cases h with
  | @totalChanged seen total before now changed =>
    refine changed (hfit.total seen ?_ total ?_) <;> rw [totals_append_singleton] <;>
      simp [before, now]
  | @cursorStalled seen n _ before now stalled =>
    have hcursor := hfit.cursor
    rw [cursors_append_singleton, now] at hcursor
    have hlt := (List.pairwise_append.1 hcursor).2.2 seen (List.mem_of_getLast? before) n (by simp)
    exact absurd stalled (UInt32.not_le.2 hlt)
  | cursorPastTotal _ _ now known past =>
    exact absurd (hfit.inside as a [] rfl _ now _ known) (UInt32.not_le.2 past)

end ImportAnswer

open ImportAnswer

/-! ## What the loop keeps of them -/

namespace ImportProgress

/-- What reports came to. -/
def ofReports (as : List ImportAnswer) : ImportProgress where
  complete := as.getLast?.any ImportAnswer.complete
  nextIndex := (cursors as).getLast?
  total := (totals as).getLast?
  calls := .ofNat as.length

variable {as : List ImportAnswer} {a : ImportAnswer} {s : ImportProgress}

/-- A total fits if it is the one that was reported last. -/
theorem observeTotal_ofReports (h : FitTogether as) (seen : s.total = (totals as).getLast?) :
    ((∀ t ∈ a.total, ∀ t' ∈ totals as, t' = t) ∧
      s.observeTotal a.total = ({ s with total := (totals (as ++ [a])).getLast? }, none)) ∨
    ∃ before ∈ totals as, ∃ total, a.total = some total ∧ before ≠ total ∧
      s.observeTotal a.total = (s, some (.totalChanged before total s.calls)) := by
  rw [totals_append_singleton]
  cases ha : a.total with
  | none =>
    refine Or.inl ⟨by simp, ?_⟩
    rw [Option.toList_none, List.append_nil, ← seen]
    rfl
  | some total =>
    have hlast : (totals as ++ [total]).getLast? = some total := List.getLast?_concat
    cases hs : s.total with
    | none =>
      have hnil := List.getLast?_eq_none_iff.1 (seen.symm.trans hs)
      exact Or.inl ⟨by simp [hnil], by simp [observeTotal, hs, hlast]⟩
    | some before =>
      have hmem := List.mem_of_getLast? (seen.symm.trans hs)
      by_cases heq : before = total
      · subst heq
        refine Or.inl ⟨fun t ht t' ht' => ?_, ?_⟩
        · obtain rfl := Option.some.inj ht
          exact h.total t' ht' before hmem
        · have hsame : ({ s with total := some before } : ImportProgress) = s := by rw [← hs]
          rw [Option.toList_some, hlast, hsame]
          simp [observeTotal, hs]
      · exact Or.inr ⟨before, hmem, total, rfl, heq, by simp [observeTotal, hs, heq]⟩

/-- In a list that goes up the last number is the largest. -/
theorem lt_of_getLast?_lt {ns : List UInt32} (h : ns.Pairwise (· < ·)) {last n : UInt32}
    (hlast : ns.getLast? = some last) (hn : last < n) : ∀ n' ∈ ns, n' < n := by
  obtain ⟨init, rfl⟩ := List.getLast?_eq_some_iff.1 hlast
  intro n' hn'
  rcases List.mem_append.1 hn' with hinit | hlast'
  · exact UInt32.lt_trans ((List.pairwise_append.1 h).2.2 n' hinit last (by simp)) hn
  · rwa [List.mem_singleton.1 hlast']

/-- A cursor that moved forward fits if it is not past the total. -/
theorem place_ofReports (h : FitTogether as)
    (sameTotal : ∀ t ∈ a.total, ∀ t' ∈ totals as, t' = t)
    (known : s.total = (totals (as ++ [a])).getLast?) {n : UInt32} (now : a.nextMintIndex = some n)
    (forward : ∀ n' ∈ cursors as, n' < n) :
    (ComesAfter as a ∧ observeCursor.place s n = ({ s with nextIndex := some n }, none)) ∨
      ∃ fault, Breaks as a fault ∧ observeCursor.place s n = (s, some fault) := by
  have hafter : (∀ t ∈ totals (as ++ [a]), n ≤ t) → ComesAfter as a := fun hinside =>
    ⟨sameTotal, by simpa [now] using forward, by simpa [now] using hinside⟩
  cases ht : s.total with
  | none =>
    have hnil := List.getLast?_eq_none_iff.1 (known.symm.trans ht)
    exact Or.inl ⟨hafter (by simp [hnil]), by simp [observeCursor.place, ht]⟩
  | some total =>
    have hmem := List.mem_of_getLast? (known.symm.trans ht)
    by_cases hpast : total < n
    · exact Or.inr ⟨_, .cursorPastTotal sameTotal forward now hmem hpast,
        by simp [observeCursor.place, ht, hpast]⟩
    · refine Or.inl ⟨hafter fun t htotal => ?_, by simp [observeCursor.place, ht, hpast]⟩
      rw [h.total_append_singleton sameTotal t htotal total hmem]
      exact UInt32.not_lt.1 hpast

/-- A cursor fits if it is after the last one and not past the total. -/
theorem observeCursor_ofReports (h : FitTogether as)
    (sameTotal : ∀ t ∈ a.total, ∀ t' ∈ totals as, t' = t)
    (seen : s.nextIndex = (cursors as).getLast?)
    (known : s.total = (totals (as ++ [a])).getLast?)
    (calls : s.calls = .ofNat (as.length + 1)) :
    (ComesAfter as a ∧ s.observeCursor a.nextMintIndex =
      ({ s with nextIndex := (cursors (as ++ [a])).getLast? }, none)) ∨
    ∃ fault, Breaks as a fault ∧ s.observeCursor a.nextMintIndex = (s, some fault) := by
  rw [cursors_append_singleton]
  cases ha : a.nextMintIndex with
  | none =>
    refine Or.inl ⟨⟨sameTotal, by simp [ha], by simp [ha]⟩, ?_⟩
    rw [Option.toList_none, List.append_nil, ← seen]
    rfl
  | some n =>
    rw [Option.toList_some, List.getLast?_concat]
    cases hs : s.nextIndex with
    | none =>
      have hnil := List.getLast?_eq_none_iff.1 (seen.symm.trans hs)
      have hplace : s.observeCursor (some n) = observeCursor.place s n := by
        simp [observeCursor, hs]
      rw [hplace]
      exact place_ofReports h sameTotal known ha (by simp [hnil])
    | some before =>
      have hbefore := seen.symm.trans hs
      by_cases hstalled : n ≤ before
      · refine Or.inr ⟨_, .cursorStalled sameTotal hbefore ha hstalled, ?_⟩
        simp [observeCursor, hs, hstalled, calls]
      · have hplace : s.observeCursor (some n) = observeCursor.place s n := by
          simp [observeCursor, hs, hstalled]
        rw [hplace]
        exact place_ofReports h sameTotal known ha
          (lt_of_getLast?_lt h.cursor hbefore (UInt32.not_le.1 hstalled))

/-- Whether a report fits to those before it can be told from what was kept of them. -/
theorem observe_ofReports (h : FitTogether as) (a : ImportAnswer) :
    (ComesAfter as a ∧ (ofReports as).observe a = (ofReports (as ++ [a]), none)) ∨
      ∃ s fault, Breaks as a fault ∧ (ofReports as).observe a = (s, some fault) := by
  have hcalls : (ofReports as).calls + 1 = .ofNat (as.length + 1) := (UInt32.ofNat_add _ 1).symm
  -- The states before the total is taken in, and before the cursor is.
  let called : ImportProgress := { ofReports as with calls := (ofReports as).calls + 1 }
  let totalled : ImportProgress := { called with total := (totals (as ++ [a])).getLast? }
  rcases observeTotal_ofReports (a := a) (s := called) h rfl with
    ⟨sameTotal, htotal⟩ | ⟨before, hbefore, total, now, changed, htotal⟩
  · rcases observeCursor_ofReports (s := totalled) h sameTotal rfl rfl hcalls with
      ⟨hafter, hcursor⟩ | ⟨fault, hbreaks, hcursor⟩
    · refine Or.inl ⟨hafter, ?_⟩
      simp only [called, totalled] at htotal hcursor
      simp only [observe, htotal, hcursor]
      simp [ofReports, UInt32.ofNat_add]
    · refine Or.inr ⟨totalled, fault, hbreaks, ?_⟩
      simp only [called, totalled] at htotal hcursor ⊢
      simp only [observe, htotal, hcursor]
  · have hbreaks : Breaks as a (.totalChanged before total ((ofReports as).calls + 1)) :=
      hcalls ▸ .totalChanged hbefore now changed
    refine Or.inr ⟨called, _, hbreaks, ?_⟩
    simp only [called] at htotal ⊢
    simp only [observe, htotal]

end ImportProgress

/-! ## Rounds with a client -/

namespace Round

variable {σ : Type} {g : GasSettings} {client : Partner service σ} {m : Msg} {s s' : σ}

/-- What a client makes of a round, and its state then. -/
def between (g : GasSettings) (client : Partner service σ) (m : Msg) (s : σ) : Round × σ :=
  let (tried, s) := client (.simulate [m]) s
  let (sent, s) := client (.broadcast [m] (.ofGasLimit (g.limitAfter tried))) s
  (⟨m, tried, sent⟩, s)

/-- What a client makes of so many rounds of one message. -/
def series (g : GasSettings) (client : Partner service σ) (m : Msg) : Nat → σ → List Round
  | 0, _ => []
  | n + 1, s => (between g client m s).1 :: series g client m n (between g client m s).2

/-- A series has as many rounds as it is asked for. -/
theorem length_series (g : GasSettings) (client : Partner service σ) (m : Msg) (n : Nat) :
    ∀ s : σ, (series g client m n s).length = n := by
  induction n with
  | zero => exact fun _ => rfl
  | succ n ih => exact fun s => congrArg Nat.succ (ih _)

/-- A shorter series is the start of a longer one. -/
theorem series_prefix (g : GasSettings) (client : Partner service σ) (m : Msg) {n k : Nat}
    (h : n ≤ k) : ∀ s : σ, series g client m n s <+: series g client m k s := by
  induction n generalizing k with
  | zero => exact fun _ => List.nil_prefix
  | succ n ih =>
    obtain ⟨k, rfl⟩ := Nat.exists_eq_add_one_of_ne_zero (Nat.ne_zero_of_lt h)
    exact fun s => (List.prefix_cons_inj _).2 (ih (Nat.le_of_succ_le_succ h) _)

/-- A round whose replies are those of a client is what the client makes of it. -/
theorem eq_between {round : Round} {xs : List (Exchange service)}
    (h : Dialogue.FromPartner client s (round.exchanges g ++ xs) s') :
    round = (between g client round.msg s).1 ∧
      Dialogue.FromPartner client (between g client round.msg s).2 xs s' := by
  obtain ⟨m, tried, sent⟩ := round
  change Dialogue.FromPartner client s (⟨.simulate [m], tried⟩ ::
    ⟨.broadcast [m] (.ofGasLimit (g.limitAfter tried)), sent⟩ :: xs) s' at h
  cases h with
  | cons rest =>
    cases rest with
    | cons rest => exact ⟨rfl, rest⟩

/-- So rounds of one message whose replies are those of a client are its series. -/
theorem eq_series {rounds : List Round} (hmsg : ∀ round ∈ rounds, round.msg = m)
    (h : Dialogue.FromPartner client s (rounds.flatMap (exchanges g)) s') :
    rounds = series g client m rounds.length s := by
  induction rounds generalizing s with
  | nil => rfl
  | cons round rounds ih =>
    obtain ⟨rfl, hrest⟩ := List.forall_mem_cons.1 hmsg
    rw [List.flatMap_cons] at h
    obtain ⟨heq, hfrom⟩ := eq_between h
    rw [List.length_cons, series, ← heq, ← ih hrest hfrom]

end Round

/-! ## What decides an import -/

/-- With these replies to its calls an import from a contract comes to the result, if it makes so
many calls at most. -/
inductive Verdict (address : String) (calls : UInt32) :
    List (Except Fault ImportAnswer) → Except Fault ImportProgress → Prop
  | complete {as : List ImportAnswer} {a : ImportAnswer} (few : as.length < calls.toNat)
      (goesOn : ∀ b ∈ as, b.complete = false) (last : a.complete = true)
      (fit : FitTogether (as ++ [a])) :
      Verdict address calls ((as ++ [a]).map .ok) (.ok (.ofReports (as ++ [a])))
  | failed {as : List ImportAnswer} {why : Fault} (few : as.length < calls.toNat)
      (goesOn : ∀ b ∈ as, b.complete = false) (fit : FitTogether as) :
      Verdict address calls (as.map .ok ++ [.error why]) (.error why)
  | broken {as : List ImportAnswer} {a : ImportAnswer} {fault : PagingFault}
      (few : as.length < calls.toNat) (goesOn : ∀ b ∈ as, b.complete = false)
      (fit : FitTogether as) (breaks : Breaks as a fault) :
      Verdict address calls ((as ++ [a]).map .ok) (.error (.paging fault))
  | spent {as : List ImportAnswer} (all : as.length = calls.toNat)
      (goesOn : ∀ b ∈ as, b.complete = false) (fit : FitTogether as) :
      Verdict address calls (as.map .ok) (.error (.paging (.incomplete address calls)))

namespace Verdict

variable {address : String} {calls : UInt32} {replies : List (Except Fault ImportAnswer)}
  {r : Except Fault ImportProgress} {as : List ImportAnswer} {a : ImportAnswer}

/-- What it takes to complete an import. -/
theorem of_ok {state : ImportProgress} (h : Verdict address calls replies (.ok state)) :
    ∃ as a, as.length < calls.toNat ∧ replies = (as ++ [a]).map .ok ∧
      (∀ b ∈ as, b.complete = false) ∧ a.complete = true ∧ FitTogether (as ++ [a]) ∧
      state = .ofReports (as ++ [a]) := by
  cases h with
  | complete few goesOn last fit => exact ⟨_, _, few, rfl, goesOn, last, fit, rfl⟩

/-- Every reply but the last reports more to come. -/
theorem goesOn (h : Verdict address calls replies r) {before : List (Except Fault ImportAnswer)}
    {last : Except Fault ImportAnswer} (heq : replies = before ++ [last])
    (complete : .ok a ∈ before) : a.complete = false := by
  have hmem : ∀ {as : List ImportAnswer}, before = as.map .ok → a ∈ as := by
    rintro as rfl
    simpa using complete
  cases h with
  | complete _ goesOn | broken _ goesOn =>
    rw [List.map_append] at heq
    exact goesOn a (hmem (List.append_inj' heq rfl).1.symm)
  | failed _ goesOn => exact goesOn a (hmem (List.append_inj' heq rfl).1.symm)
  | spent _ goesOn =>
    refine goesOn a ?_
    have hall : Except.ok a ∈ before ++ [last] := List.mem_append_left _ complete
    rw [← heq] at hall
    simpa using hall

/-- Replies that begin with reports up to a complete one end there. -/
theorem eq_of_prefix (h : Verdict address calls replies r) (last : a.complete = true)
    (hp : (as ++ [a]).map .ok <+: replies) : (as ++ [a]).map .ok = replies := by
  rcases List.eq_nil_or_concat replies with rfl | ⟨before, reply, rfl⟩
  · exact List.prefix_nil.1 hp
  · rw [List.concat_eq_append] at h hp ⊢
    rcases List.prefix_concat_iff.1 hp with heq | hbefore
    · exact heq
    · have hmem : Except.ok a ∈ before := hbefore.subset (by simp)
      cases last.symm.trans (h.goesOn rfl hmem)

/-- Replies that are the first of reports that complete the import are all of them. -/
theorem eq_ok_of_prefix (h : Verdict address calls replies r) (few : as.length < calls.toNat)
    (goesOn : ∀ b ∈ as, b.complete = false) (last : a.complete = true)
    (fit : FitTogether (as ++ [a])) (hp : replies <+: (as ++ [a]).map .ok) :
    r = .ok (.ofReports (as ++ [a])) := by
  have hreports : ∀ {bs : List ImportAnswer},
      bs.map (.ok : _ → Except Fault _) <+: (as ++ [a]).map .ok → bs <+: as ++ [a] :=
    (List.prefix_map_iff_of_injective fun _ _ h => Except.ok.inj h).1
  cases h with
  | @complete bs b _ _ last' =>
    rcases List.prefix_concat_iff.1 (hreports hp) with heq | hbefore
    · rw [heq]
    · cases last'.symm.trans (goesOn b (hbefore.subset (by simp)))
  | @failed _ why =>
    have hmem : Except.error why ∈ (as ++ [a]).map .ok := hp.subset (by simp)
    simp at hmem
  | broken _ _ _ breaks => exact absurd (fit.of_prefix (hreports hp)) breaks.not_fitTogether
  | @spent bs all goesOn' =>
    have hbefore := hreports hp
    have hlength : bs.length = (as ++ [a]).length :=
      Nat.le_antisymm hbefore.length_le (by simpa [all] using Nat.succ_le_of_lt few)
    have hmem : a ∈ bs := by simp [hbefore.eq_of_length hlength]
    cases last.symm.trans (goesOn' a hmem)

end Verdict

namespace Orchestrator

variable {o : Orchestrator} {destination : ContractInfo} {admin : String}

/-- The loop goes on to a verdict. -/
theorem verdict_of_runs : ∀ (n : Nat) {as : List ImportAnswer} {xs : List (Exchange service)}
    {r : Except Fault ImportProgress}, as.length + n = o.settings.maxPageCalls.toNat →
      (∀ b ∈ as, b.complete = false) → FitTogether as →
      (o.importFrom destination admin n (.ofReports as)).Runs xs r →
        ∃ rounds : List Round, (∀ round ∈ rounds, round.msg = o.importMsg destination admin) ∧
          xs = rounds.flatMap (Round.exchanges o.gas) ∧
          Verdict destination.address o.settings.maxPageCalls
            (as.map .ok ++ rounds.map Round.imported) r
  | 0, as, xs, r, hcalls, goesOn, fit, h => by
    obtain ⟨rfl, rfl⟩ := h.of_throw
    refine ⟨[], by simp, rfl, ?_⟩
    have hspent : Verdict destination.address _ _ _ := .spent hcalls goesOn fit
    have hcount : (ImportProgress.ofReports as).calls = o.settings.maxPageCalls := by
      change UInt32.ofNat as.length = _
      rw [← Nat.add_zero as.length, hcalls, UInt32.ofNat_toNat]
    rw [hcount]
    simpa using hspent
  | n + 1, as, xs, r, hcalls, goesOn, fit, h => by
    have few : as.length < o.settings.maxPageCalls.toNat := by omega
    obtain ⟨why, hcall, rfl⟩ | ⟨a, _, _, hcall, hrest, rfl⟩ := h.of_bind
    · obtain ⟨round, hmsg, rfl, himported⟩ := runs_importCall hcall
      refine ⟨[round], by simpa using hmsg, by simp, ?_⟩
      rw [List.map_singleton, ← himported]
      exact .failed few goesOn fit
    · obtain ⟨round, hmsg, rfl, himported⟩ := runs_importCall hcall
      have hlast : as.map .ok ++ [round.imported] = (as ++ [a]).map .ok := by simp [himported]
      rcases ImportProgress.observe_ofReports fit a with
        ⟨hafter, hobserve⟩ | ⟨s, fault, breaks, hobserve⟩
      · simp only [hobserve] at hrest
        have hcomplete : (ImportProgress.ofReports (as ++ [a])).complete = a.complete := by
          simp [ImportProgress.ofReports]
        rw [hcomplete] at hrest
        cases hmore : a.complete with
        | true =>
          rw [if_pos hmore] at hrest
          obtain ⟨rfl, rfl⟩ := hrest.of_pure
          refine ⟨[round], by simpa using hmsg, by simp, ?_⟩
          rw [List.map_singleton, hlast]
          exact .complete few goesOn hmore (fit.append_singleton hafter)
        | false =>
          rw [if_neg (by simp [hmore])] at hrest
          have goesOn' : ∀ b ∈ as ++ [a], b.complete = false := by
            simpa [or_imp, forall_and, hmore] using goesOn
          obtain ⟨rounds, hmsgs, rfl, hverdict⟩ := verdict_of_runs n (by simp; omega) goesOn'
            (fit.append_singleton hafter) hrest
          refine ⟨round :: rounds, by simpa using ⟨hmsg, hmsgs⟩, by simp, ?_⟩
          rwa [List.map_cons, List.append_cons, hlast]
      · simp only [hobserve] at hrest
        obtain ⟨rfl, rfl⟩ := hrest.of_throw
        refine ⟨[round], by simpa using hmsg, by simp, ?_⟩
        rw [List.map_singleton, hlast]
        exact .broken few goesOn fit breaks

/-- An import comes to an end when reports of the client that fit together come to a complete one,
within the calls it may make. It has then made as many calls as there are reports, and keeps the
last cursor and the last total. Otherwise it comes to the fault of the first call that fails,
reports nothing or does not fit to those before it, or runs out of calls. -/
theorem importTokens_accepts_iff {σ : Type} (o : Orchestrator) (destination : ContractInfo)
    (admin : String) (client : Partner service σ) (s : σ) :
    let rounds := fun n => Round.series o.gas client (o.importMsg destination admin) n s
    let recorded := (o.importTokens destination admin).run.record client s
    (∀ state, recorded.1 = .ok state ↔ ∃ as a, as.length < o.settings.maxPageCalls.toNat ∧
      (rounds (as.length + 1)).map Round.imported = (as ++ [a]).map .ok ∧
      (∀ b ∈ as, b.complete = false) ∧ a.complete = true ∧ FitTogether (as ++ [a]) ∧
      state = ⟨true, (cursors (as ++ [a])).getLast?, (totals (as ++ [a])).getLast?,
        .ofNat (as.length + 1)⟩) ∧
    ∃ n, recorded.2.2 = (rounds n).flatMap (Round.exchanges o.gas) ∧
      Verdict destination.address o.settings.maxPageCalls ((rounds n).map Round.imported)
        recorded.1 ∧
      ∀ state, recorded.1 = .ok state → state.calls.toNat = n := by
  intro rounds recorded
  have hruns : (o.importFrom destination admin _ (.ofReports [])).Runs recorded.2.2 recorded.1 :=
    Dialogue.runs_record client (o.importTokens destination admin).run s
  have hfrom := Dialogue.fromPartner_record client (o.importTokens destination admin).run s
  obtain ⟨asked, hmsg, hasked, hverdict⟩ :=
    verdict_of_runs _ (Nat.zero_add _) (by simp) fitTogether_nil hruns
  rw [hasked] at hfrom
  obtain ⟨n, rfl⟩ : ∃ n, asked = rounds n := ⟨_, Round.eq_series hmsg hfrom⟩
  rw [List.map_nil, List.nil_append] at hverdict
  -- As many reports as rounds were asked for complete the import.
  have hof : ∀ {state}, recorded.1 = .ok state → ∃ as a,
      as.length < o.settings.maxPageCalls.toNat ∧ n = as.length + 1 ∧
      (rounds n).map Round.imported = (as ++ [a]).map .ok ∧ (∀ b ∈ as, b.complete = false) ∧
      a.complete = true ∧ FitTogether (as ++ [a]) ∧ state = .ofReports (as ++ [a]) := by
    intro state hok
    obtain ⟨as, a, few, hreplies, h⟩ := (hok ▸ hverdict).of_ok
    have hlength := congrArg List.length hreplies
    rw [List.length_map, Round.length_series] at hlength
    exact ⟨as, a, few, by simpa using hlength, hreplies, h⟩
  have hstate : ∀ as a, ImportAnswer.complete a = true →
      ImportProgress.ofReports (as ++ [a]) = ⟨true, (cursors (as ++ [a])).getLast?,
        (totals (as ++ [a])).getLast?, .ofNat (as.length + 1)⟩ := by
    intro as a last
    simp [ImportProgress.ofReports, last]
  refine ⟨fun state => ⟨fun hok => ?_, ?_⟩, n, hasked, hverdict, fun state hok => ?_⟩
  · obtain ⟨as, a, few, rfl, hreplies, goesOn, last, fit, rfl⟩ := hof hok
    exact ⟨as, a, few, hreplies, goesOn, last, fit, hstate as a last⟩
  · rintro ⟨as, a, few, hreplies, goesOn, last, fit, rfl⟩
    rw [← hstate as a last]
    refine hverdict.eq_ok_of_prefix few goesOn last fit ?_
    rw [← hreplies]
    rcases Nat.le_total n (as.length + 1) with hle | hle
    · exact (Round.series_prefix _ _ _ hle s).map _
    · have hall : (rounds (as.length + 1)).map Round.imported <+: (rounds n).map Round.imported :=
        (Round.series_prefix _ _ _ hle s).map _
      rw [hreplies] at hall ⊢
      exact (hverdict.eq_of_prefix last hall).symm ▸ List.prefix_rfl
  · obtain ⟨as, a, few, rfl, -, -, last, -, rfl⟩ := hof hok
    rw [hstate as a last]
    exact UInt32.toNat_ofNat_of_lt' (Nat.lt_of_le_of_lt few o.settings.maxPageCalls.toNat_lt)

end Orchestrator

end Handover

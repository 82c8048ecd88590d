import Handover.Migration.Verifier
import Handover.Proofs.Migration.Stripping

/-!
# What it means to be equivalent

Two answers agree outside some paths when they have the same places, but for those that a path covers
(`Json.AgreeOutside`). A verifier strips both answers by one path after the other and compares what
is left, which comes to the same (`Json.same_stripAll_iff`). So for snapshots that answer the same
queries it decides an equivalence relation, which depends only on which paths are ignored, and is
the wider the more they are. When it fails, it reports the first query on which the snapshots do
not agree (`StateVerifier.assertEquivalent_decides`).
-/

namespace Handover

open Json (Place)

/-! ## Agreement of answers -/

namespace Json

variable {paths paths' : List String} {x y z : Json}

/-- The answers have the same places that no path covers, in the same order. The sign of a zero
does not count. -/
def AgreeOutside (paths : List String) (x y : Json) : Prop :=
  (x.unsignedZeros.places.filter fun p => Uncovered paths p.way) =
    y.unsignedZeros.places.filter fun p => Uncovered paths p.way

/-- Stripping and leaving out the signs of zeros do not interfere. -/
theorem places_unsignedZeros_stripAll (paths : List String) (v : Json) :
    (v.stripAll paths).unsignedZeros.places =
      v.unsignedZeros.places.filter fun p => Uncovered paths p.way := by
  rw [places_unsignedZeros, places_unsignedZeros, places_stripAll, List.filter_map]
  rfl

/-- Stripped answers are the same if the answers agree outside the paths. -/
theorem same_stripAll_iff :
    (x.stripAll paths).same (y.stripAll paths) = true ↔ AgreeOutside paths x y := by
  rw [same, beq_iff_eq, ← places_injective.eq_iff, places_unsignedZeros_stripAll,
    places_unsignedZeros_stripAll, AgreeOutside]

/-- Between ordered answers it is enough to look at one place after the other. -/
theorem agreeOutside_iff_of_ordered (hx : x.Ordered) (hy : y.Ordered) :
    AgreeOutside paths x y ↔ ∀ p : Place, Uncovered paths p.way →
      (p ∈ x.unsignedZeros.places ↔ p ∈ y.unsignedZeros.places) := by
  rw [AgreeOutside, filter_places_eq_iff hx.unsignedZeros hy.unsignedZeros
    fun way => decide (Uncovered paths way)]
  simp only [decide_eq_true_eq]

theorem AgreeOutside.symm (h : AgreeOutside paths x y) : AgreeOutside paths y x :=
  Eq.symm h

theorem AgreeOutside.trans (hxy : AgreeOutside paths x y) (hyz : AgreeOutside paths y z) :
    AgreeOutside paths x z :=
  Eq.trans hxy hyz

/-- More paths cover more places. -/
theorem AgreeOutside.mono (h : AgreeOutside paths x y) (hsub : paths ⊆ paths') :
    AgreeOutside paths' x y := by
  have hfilter : ∀ v : Json, (v.unsignedZeros.places.filter fun p => Uncovered paths' p.way) =
      (v.unsignedZeros.places.filter fun p => Uncovered paths p.way).filter
        fun p => Uncovered paths' p.way := by
    intro v
    rw [List.filter_filter]
    refine List.filter_congr fun p _ => ?_
    rw [← Bool.decide_and]
    exact decide_eq_decide.2 ⟨fun hp => ⟨hp, fun path hpath => hp path (hsub hpath)⟩, And.left⟩
  rw [AgreeOutside, hfilter, hfilter]
  exact congrArg _ h

end Json

/-! ## Agreement of snapshots -/

namespace Snapshot

variable {ignored : List String} {e a b : Snapshot} {q : VerifyQuery}

/-- The snapshots answer the same queries. -/
def SameQueries (e a : Snapshot) : Prop :=
  ∀ q, (e.answers q).isSome = (a.answers q).isSome

theorem SameQueries.symm (h : e.SameQueries a) : a.SameQueries e :=
  fun q => (h q).symm

theorem SameQueries.trans (hea : e.SameQueries a) (hab : a.SameQueries b) : e.SameQueries b :=
  fun q => (hea q).trans (hab q)

/-- The answers to every query are related. -/
def Related (r : Json → Json → Prop) (e a : Snapshot) : Prop :=
  ∀ q x y, e.answers q = some x → a.answers q = some y → r x y

/-- A query is asked of both snapshots, or of none. -/
theorem SameQueries.cases (h : e.SameQueries a) (q : VerifyQuery) :
    (e.answers q = none ∧ a.answers q = none) ∨
      ∃ x y, e.answers q = some x ∧ a.answers q = some y := by
  have hq := h q
  cases he : e.answers q <;> cases ha : a.answers q <;> simp_all

theorem differenceAt_of_none (he : e.answers q = none) : differenceAt ignored e a q = none := by
  simp [differenceAt, he]

/-- Answers differ at a query unless they are the same without the ignored fields. -/
theorem differenceAt_of_some {x y : Json} (he : e.answers q = some x) (ha : a.answers q = some y) :
    differenceAt ignored e a q = if (x.stripAll ignored).same (y.stripAll ignored) then none
      else some ⟨q, x.stripAll ignored, y.stripAll ignored⟩ := by
  simp [differenceAt, he, ha]

/-- No difference at a query means that the answers agree without the ignored fields. -/
theorem differenceAt_eq_none_iff (asked : e.SameQueries a) :
    differenceAt ignored e a q = none ↔ ∀ x y, e.answers q = some x → a.answers q = some y →
      (x.stripAll ignored).same (y.stripAll ignored) = true := by
  rcases asked.cases q with ⟨he, ha⟩ | ⟨x, y, he, ha⟩
  · simp [differenceAt_of_none he, he]
  · rw [differenceAt_of_some he ha]
    cases hsame : (x.stripAll ignored).same (y.stripAll ignored) <;> simp [he, ha, hsame]

/-- A difference at a query shows both answers, without the ignored fields. -/
theorem differenceAt_eq_some_iff (asked : e.SameQueries a) {d : Difference} :
    differenceAt ignored e a q = some d ↔ ∃ x y, e.answers q = some x ∧ a.answers q = some y ∧
      (x.stripAll ignored).same (y.stripAll ignored) = false ∧
      d = ⟨q, x.stripAll ignored, y.stripAll ignored⟩ := by
  rcases asked.cases q with ⟨he, ha⟩ | ⟨x, y, he, ha⟩
  · simp [differenceAt_of_none he, he]
  · rw [differenceAt_of_some he ha]
    constructor
    · intro h
      split_ifs at h with hsame
      exact ⟨x, y, he, ha, Bool.eq_false_iff.2 hsame, (Option.some.inj h).symm⟩
    · rintro ⟨x', y', hx, hy, hdiffer, rfl⟩
      obtain rfl := Option.some.inj (he.symm.trans hx)
      obtain rfl := Option.some.inj (ha.symm.trans hy)
      rw [if_neg (by simp [hdiffer])]

/-- Without a difference the answers agree outside the ignored paths. -/
theorem difference_eq_none_iff (asked : e.SameQueries a) :
    difference ignored e a = none ↔ Related (Json.AgreeOutside ignored) e a := by
  have hall : ∀ q, q ∈ VerifyQuery.all := by
    intro q
    cases q <;> decide
  simp only [difference, List.findSome?_eq_none_iff, hall, forall_const,
    differenceAt_eq_none_iff asked, Json.same_stripAll_iff, Related]

end Snapshot

/-! ## The verdict of a verifier -/

namespace StateVerifier

variable {v : StateVerifier} {e a : Snapshot}

/-- A verifier passes snapshots exactly if it finds no difference. -/
theorem assertEquivalent_eq_ok_iff :
    v.assertEquivalent e a = .ok () ↔ Snapshot.difference v.ignored e a = none := by
  rw [assertEquivalent]
  cases Snapshot.difference v.ignored e a <;> simp

/-- It fails with the difference that it finds, and with nothing else. -/
theorem assertEquivalent_eq_error_iff {fault : Fault} :
    v.assertEquivalent e a = .error fault ↔
      ∃ d, Snapshot.difference v.ignored e a = some d ∧ fault = .different d := by
  rw [assertEquivalent]
  cases Snapshot.difference v.ignored e a <;> simp [eq_comm]

/-- A verifier passes snapshots exactly if they agree outside the ignored paths. -/
theorem assertEquivalent_iff (asked : e.SameQueries a) :
    v.assertEquivalent e a = .ok () ↔ e.Related (Json.AgreeOutside v.ignored) a :=
  assertEquivalent_eq_ok_iff.trans (Snapshot.difference_eq_none_iff asked)

/-- Which paths are ignored is all that matters. -/
theorem assertEquivalent_congr {w : StateVerifier}
    (h : ∀ path, path ∈ v.ignored ↔ path ∈ w.ignored) (e a : Snapshot) :
    v.assertEquivalent e a = w.assertEquivalent e a := by
  have hdifference : Snapshot.differenceAt v.ignored e a = Snapshot.differenceAt w.ignored e a := by
    funext q
    simp only [Snapshot.differenceAt, Json.stripAll_congr h]
  rw [assertEquivalent, assertEquivalent, Snapshot.difference, Snapshot.difference, hdifference]

/-- Of snapshots that answer the same queries those pass that agree outside the ignored paths. That
is an equivalence relation. Only the set of the ignored paths counts, and with more of them more
snapshots pass. Of those that fail, the first query without agreement is reported. -/
theorem assertEquivalent_decides (v : StateVerifier) {e a : Snapshot} (asked : e.SameQueries a) :
    (v.assertEquivalent e a = .ok () ↔ e.Related (Json.AgreeOutside v.ignored) a) ∧
    ((∀ s ∈ [e, a], ∀ q x, s.answers q = some x → x.Ordered) →
      (v.assertEquivalent e a = .ok () ↔ e.Related (fun x y => ∀ p : Place,
        Uncovered v.ignored p.way →
          (p ∈ x.unsignedZeros.places ↔ p ∈ y.unsignedZeros.places)) a)) ∧
    v.assertEquivalent e e = .ok () ∧
    (v.assertEquivalent e a = .ok () → v.assertEquivalent a e = .ok ()) ∧
    (∀ b, a.SameQueries b → v.assertEquivalent e a = .ok () → v.assertEquivalent a b = .ok () →
      v.assertEquivalent e b = .ok ()) ∧
    (∀ w : StateVerifier, (∀ path, path ∈ v.ignored ↔ path ∈ w.ignored) →
      v.assertEquivalent e a = w.assertEquivalent e a) ∧
    (∀ w : StateVerifier, v.ignored ⊆ w.ignored → v.assertEquivalent e a = .ok () →
      w.assertEquivalent e a = .ok ()) ∧
    ∀ fault, v.assertEquivalent e a = .error fault ↔
      ∃ before q after x y, VerifyQuery.all = before ++ q :: after ∧
        e.answers q = some x ∧ a.answers q = some y ∧
        (x.stripAll v.ignored).same (y.stripAll v.ignored) = false ∧
        (∀ r ∈ before, ∀ x y, e.answers r = some x → a.answers r = some y →
          (x.stripAll v.ignored).same (y.stripAll v.ignored) = true) ∧
        fault = .different ⟨q, x.stripAll v.ignored, y.stripAll v.ignored⟩ := by
  refine ⟨assertEquivalent_iff asked, fun ordered => ?_, ?_, fun h => ?_, fun b asked' hea hab => ?_,
    fun w hw => assertEquivalent_congr hw e a, fun w hsub h => ?_, fun fault => ?_⟩
  · rw [assertEquivalent_iff asked]
    refine forall_congr' fun q => forall₂_congr fun x y => forall₂_congr fun hx hy => ?_
    exact Json.agreeOutside_iff_of_ordered (ordered e (by simp) q x hx) (ordered a (by simp) q y hy)
  · refine (assertEquivalent_iff fun _ => rfl).2 fun q x y hx hy => ?_
    rw [Option.some.inj (hx.symm.trans hy)]
    exact rfl
  · rw [assertEquivalent_iff asked] at h
    exact (assertEquivalent_iff asked.symm).2 fun q x y hx hy => (h q y x hy hx).symm
  · rw [assertEquivalent_iff asked] at hea
    rw [assertEquivalent_iff asked'] at hab
    refine (assertEquivalent_iff (asked.trans asked')).2 fun q x z hx hz => ?_
    rcases asked.cases q with ⟨he, -⟩ | ⟨_, y, -, hy⟩
    · cases he.symm.trans hx
    · exact (hea q x y hx hy).trans (hab q y z hy hz)
  · rw [assertEquivalent_iff asked] at h ⊢
    exact fun q x y hx hy => (h q x y hx hy).mono hsub
  · rw [assertEquivalent_eq_error_iff]
    simp only [Snapshot.difference, List.findSome?_eq_some_iff,
      Snapshot.differenceAt_eq_some_iff asked, Snapshot.differenceAt_eq_none_iff asked]
    constructor
    · rintro ⟨d, ⟨before, q, after, hall, ⟨x, y, hx, hy, hdiffer, rfl⟩, hbefore⟩, rfl⟩
      exact ⟨before, q, after, x, y, hall, hx, hy, hdiffer, hbefore, rfl⟩
    · rintro ⟨before, q, after, x, y, hall, hx, hy, hdiffer, hbefore, rfl⟩
      exact ⟨_, ⟨before, q, after, hall, ⟨x, y, hx, hy, hdiffer, rfl⟩, hbefore⟩, rfl⟩

/-! ## A token minted twice -/

/-- The dossiers of a token that was minted by somebody. -/
def mintedBy (creator : String) : Json :=
  .obj [("nft_dossiers", .arr [.obj [
    ("mint_run_info", .obj [("mint_run", .ofNat 1), ("token_creator", .str creator)]),
    ("owner", .str "secret1buyer")]])]

/-- The count and the dossiers of a collection with one token. -/
def snapshotBy (creator : String) : Snapshot :=
  ((Snapshot.empty ⟨"secret1collection", "00"⟩).put .numTokens (.ofNat 1)).put .batchNftDossier
    (mintedBy creator)

/-- Who minted a token is ignored as a rule. A verifier that ignores nothing reports the dossiers. -/
theorem reminted_assertEquivalent :
    (snapshotBy "secret1old").SameQueries (snapshotBy "secret1new") ∧
    (∀ s ∈ [snapshotBy "secret1old", snapshotBy "secret1new"], ∀ q x, s.answers q = some x →
      x.Ordered) ∧
    (standard "test" ["0"]).assertEquivalent (snapshotBy "secret1old") (snapshotBy "secret1new") =
      .ok () ∧
    (StateVerifier.mk VerifyQuery.standard [] ["0"] "test").assertEquivalent
        (snapshotBy "secret1old") (snapshotBy "secret1new") =
      .error (.different ⟨.batchNftDossier, mintedBy "secret1old", mintedBy "secret1new"⟩) := by
  have asked : (snapshotBy "secret1old").SameQueries (snapshotBy "secret1new") := by
    intro q
    cases q <;> rfl
  have hordered : ∀ creator, (mintedBy creator).Ordered := by
    intro creator
    simp only [mintedBy, Json.ofNat, Json.Ordered, Json.OrderedFields, Json.OrderedItems,
      List.map_cons, List.map_nil]
    decide
  have hanswers : ∀ creator q x, (snapshotBy creator).answers q = some x →
      (q = .numTokens ∧ x = .ofNat 1) ∨ (q = .batchNftDossier ∧ x = mintedBy creator) := by
    intro creator q x h
    cases q <;> simp [snapshotBy, Snapshot.put, Snapshot.empty] at h <;> simp [h]
  refine ⟨asked, fun s hs q x hx => ?_,
    (assertEquivalent_decides (standard "test" ["0"]) asked).1.2 fun q x y hx hy => ?_,
    ((assertEquivalent_decides ⟨VerifyQuery.standard, [], ["0"], "test"⟩ asked).2.2.2.2.2.2.2 _).2
      ⟨[.contractInfo, .contractConfig, .numTokens, .minters], .batchNftDossier,
        [.transactionHistory], _, _, rfl, rfl, rfl, by decide, fun r hr x y hx hy => ?_, rfl⟩⟩
  · obtain ⟨creator, rfl⟩ : ∃ creator, s = snapshotBy creator := by
      rcases List.mem_pair.1 hs with rfl | rfl
      · exact ⟨_, rfl⟩
      · exact ⟨_, rfl⟩
    rcases hanswers creator q x hx with ⟨-, rfl⟩ | ⟨-, rfl⟩
    · trivial
    · exact hordered creator
  · rcases hanswers _ q x hx with ⟨rfl, rfl⟩ | ⟨rfl, rfl⟩
    · obtain rfl : y = .ofNat 1 := by simpa using hanswers _ _ y hy
      exact rfl
    · obtain rfl : y = mintedBy "secret1new" := by simpa using hanswers _ _ y hy
      rw [Json.AgreeOutside]
      decide
  · rcases hanswers _ r x hx with ⟨rfl, rfl⟩ | ⟨rfl, rfl⟩
    · obtain rfl : y = .ofNat 1 := by simpa using hanswers _ _ y hy
      decide
    · simp at hr

end StateVerifier

end Handover

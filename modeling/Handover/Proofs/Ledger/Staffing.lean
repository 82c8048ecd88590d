import Handover.Proofs.Ledger.Succession

/-!
# Dealers and their collections

A dealer names its collection, and the collection names its minters and whom it tells of its
successor. `Registry.WellStaffed` says how far the two sides agree, over every order in which
dealers and collections move. A collection copies its subscribers to its successor when it
starts to move, and they are told when the move is over. So a dealer that was there at the start
follows, and one that came in the meantime was not copied and stays with the old collection.
-/

namespace Handover

open Ledger

namespace Registry

/-! ## The invariant -/

/-- What the collection `k` of a running dealer at `a` knows of it : it does not import, it has
the dealer as a subscriber, and so has its successor if that is younger than the dealer. It only
retired if its successor is older. -/
structure Serves (R : Registry) (a : String) (k : Contract) (s : Collection) : Prop where
  imported : k.mode ≠ .migrateDataIn
  subscribed : a ∈ s.notify
  copied : ∀ b e t, k.migratedTo = some b → R.shell? b.address = some e → e.model = .collection t →
    MadeBefore a b.address → a ∈ t.notify
  overtaken : ∀ b, k.migratedTo = some b → k.mode = .migratedOut → MadeBefore b.address a

/-- Subscribers may mint, every dealer has a collection, and that serves it while it runs. -/
structure WellStaffed (R : Registry) : Prop where
  linked : R.WellLinked
  minters : ∀ a c s, R.shell? a = some c → c.model = .collection s → s.notify ⊆ s.minters
  child : ∀ a c d, R.shell? a = some c → c.model = .dealer d →
    ∃ k s, R.shell? d.child.address = some k ∧ k.info = d.child ∧ k.model = .collection s ∧
      (c.mode = .running → R.Serves a k s)

/-- Whatever a collection is to its subscribers it stays when its successor keeps them. -/
theorem Serves.mono {R R' : Registry} {a b : String} {k k' : Contract} {s s' : Collection}
    (h : R.Serves a k s) (hl : R.WellLinked) (hk : R.shell? b = some k) (mode : k'.mode = k.mode)
    (moved : k'.migratedTo = k.migratedTo) (notify : a ∈ s.notify → a ∈ s'.notify)
    (kept : ∀ b e e' t', R.shell? b = some e → R'.shell? b = some e' → e'.model = .collection t' →
      ∃ t, e.model = .collection t ∧ (a ∈ t.notify → a ∈ t'.notify)) : R'.Serves a k' s' where
  imported := mode ▸ h.imported
  subscribed := notify h.subscribed
  copied i e' t' hb he' ht' hai := by
    obtain ⟨e, he, -⟩ := hl.next b k i hk (moved ▸ hb)
    obtain ⟨t, ht, hkept⟩ := kept _ e e' t' he he' ht'
    exact hkept (h.copied i e t (moved ▸ hb) he ht hai)
  overtaken i hb hm := h.overtaken i (moved ▸ hb) (mode ▸ hm)

/-- A subscriber that is younger than the successor is served. -/
theorem Serves.of_younger {R : Registry} {a : String} {k : Contract} {s : Collection}
    (imported : k.mode ≠ .migrateDataIn) (subscribed : a ∈ s.notify)
    (younger : ∀ b, k.migratedTo = some b → MadeBefore b.address a) : R.Serves a k s where
  imported := imported
  subscribed := subscribed
  copied b _ _ hb _ _ hab := absurd hab (younger b hb).asymm
  overtaken b hb _ := younger b hb

namespace WellStaffed

variable {R R' : Registry}

/-- The collection that a dealer names is the one that serves it. -/
theorem serves (h : R.WellStaffed) {a : String} {c k : Contract} {d : Dealer} {s : Collection}
    (hc : R.shell? a = some c) (isDealer : c.model = .dealer d)
    (hk : R.shell? d.child.address = some k) (isCollection : k.model = .collection s) :
    k.info = d.child ∧ (c.mode = .running → R.Serves a k s) := by
  obtain ⟨k', s', hk', hi, hs, hserves⟩ := h.child a c d hc isDealer
  obtain rfl := Option.some.inj (hk.symm.trans hk')
  obtain rfl := Model.collection.inj (isCollection.symm.trans hs)
  exact ⟨hi, hserves⟩

theorem empty : Ledger.empty.registry.WellStaffed := by
  refine ⟨.empty, ?_, ?_⟩ <;> intros <;> simp_all [registry, contract?_empty]

/-! ## What keeps it -/

/-- New contracts can be added if they are in order among themselves. -/
theorem extend (h : R.WellStaffed) (linked : R'.WellLinked)
    (old : ∀ a c, R.shell? a = some c → R'.shell? a = some c)
    (minters : ∀ a c s, R'.shell? a = some c → R.shell? a = none → c.model = .collection s →
      s.notify ⊆ s.minters)
    (child : ∀ a c d, R'.shell? a = some c → R.shell? a = none → c.model = .dealer d →
      ∃ k s, R'.shell? d.child.address = some k ∧ k.info = d.child ∧ k.model = .collection s ∧
        (c.mode = .running → R'.Serves a k s)) : R'.WellStaffed where
  linked := linked
  minters a c s hc hs := by
    cases hR : R.shell? a with
    | none => exact minters a c s hc hR hs
    | some c₀ =>
      obtain rfl := Option.some.inj ((old a c₀ hR).symm.trans hc)
      exact h.minters a c₀ s hR hs
  child a c d hc hd := by
    cases hR : R.shell? a with
    | none => exact child a c d hc hR hd
    | some c₀ =>
      obtain rfl := Option.some.inj ((old a c₀ hR).symm.trans hc)
      obtain ⟨k, s, hk, hi, hs, hserves⟩ := h.child a c₀ d hR hd
      refine ⟨k, s, old _ k hk, hi, hs, fun hm => ?_⟩
      refine (hserves hm).mono h.linked hk rfl rfl id fun b e e' t' he he' ht' => ?_
      obtain rfl := Option.some.inj ((old b e he).symm.trans he')
      exact ⟨t', ht', id⟩

/-- A collection from scratch, which tells nobody, can be added. -/
theorem newCollection (h : R.WellStaffed) {c : Contract} {s : Collection}
    (hs : R.Step (R.afterAddress.put c)) (new : c.address = R.nextAddress)
    (isCollection : c.model = .collection s) (unsubscribed : s.notify = []) :
    (R.afterAddress.put c).WellStaffed := by
  refine h.extend (h.linked.step hs) ?_ ?_ ?_
  · intro a d hd
    rw [shell?_put, if_neg (new ▸ h.linked.ne_nextAddress hd)]
    exact hd
  · intro a d t hd hR ht
    rw [shell?_put, shell?_afterAddress, hR] at hd
    obtain rfl := Option.some.inj (Option.ite_none_right_eq_some.1 hd).2
    obtain rfl := Model.collection.inj (isCollection.symm.trans ht)
    simp [unsubscribed]
  · intro a d t hd hR ht
    rw [shell?_put, shell?_afterAddress, hR] at hd
    obtain rfl := Option.some.inj (Option.ite_none_right_eq_some.1 hd).2
    simp [isCollection] at ht

/-- A dealer from scratch can be added with its collection. -/
theorem newDealer (h : R.WellStaffed) {c k : Contract} {d : Dealer} {s : Collection}
    (hs : R.Step ((R.afterAddress.afterAddress.put k).put c)) (new : c.address = R.nextAddress)
    (childNew : k.address = R.afterAddress.nextAddress) (isDealer : c.model = .dealer d)
    (isCollection : k.model = .collection s) (isChild : k.info = d.child)
    (running : k.mode = .running) (last : k.migratedTo = none) (minters : s.minters = [c.address])
    (notify : s.notify = [c.address]) :
    ((R.afterAddress.afterAddress.put k).put c).WellStaffed := by
  have hne : k.address ≠ c.address := by
    rw [childNew, new]
    intro he
    exact absurd (addressOf_injective he) (by simp)
  have hlook := @shell?_put_put R.afterAddress.afterAddress k c hne
  refine h.extend (h.linked.step hs) ?_ ?_ ?_
  · intro a e he
    refine hlook.2 (Or.inr (Or.inr ⟨new ▸ h.linked.ne_nextAddress he, ?_, he⟩))
    rintro rfl
    have hnone := h.linked.shell?_eq_none (Nat.lt_add_of_pos_right (n := R.count) Nat.two_pos)
    exact Option.some_ne_none _ (he.symm.trans (childNew ▸ hnone))
  · intro a e t he hR ht
    rcases hlook.1 he with ⟨rfl, rfl⟩ | ⟨rfl, rfl⟩ | ⟨-, -, he'⟩
    · simp [isDealer] at ht
    · obtain rfl := Model.collection.inj (isCollection.symm.trans ht)
      simp [minters, notify]
    · exact absurd (he'.symm.trans hR) (Option.some_ne_none _)
  · intro a e t he hR ht
    rcases hlook.1 he with ⟨rfl, rfl⟩ | ⟨rfl, rfl⟩ | ⟨-, -, he'⟩
    · obtain rfl := Model.dealer.inj (isDealer.symm.trans ht)
      refine ⟨k, s, hlook.2 (Or.inr (Or.inl ⟨?_, rfl⟩)), isChild, isCollection, fun _ => ?_⟩
      · rw [← isChild]
        rfl
      · exact .of_younger (by simp [running]) (by simp [notify]) (by simp [last])
    · simp [isCollection] at ht
    · exact absurd (he'.symm.trans hR) (Option.some_ne_none _)

/-- A dealer that moves takes the places of the old one at their collection. -/
theorem moveDealer (h : R.WellStaffed) {source k c : Contract} {d : Dealer} {s : Collection}
    {site : ContractInfo} (new : site.address = R.nextAddress)
    (found : R.shell? source.address = some source) (isDealer : source.model = .dealer d)
    (running : source.mode = .running) (childFound : R.shell? d.child.address = some k)
    (isCollection : k.model = .collection s) (hc : c.address = site.address)
    (sameDealer : c.model = .dealer d) {s' : Collection}
    (minters : s'.minters = s.minters.map (swapped source.address site.address))
    (notify : s'.notify = s.notify.map (swapped source.address site.address))
    (linked : (((R.afterAddress.put (k.withCollection s')).put
      (leaving source .migratedOut site)).put c).WellLinked) :
    (((R.afterAddress.put (k.withCollection s')).put
      (leaving source .migratedOut site)).put c).WellStaffed := by
  have hka := (h.linked.numbered _ k childFound).1
  rw [← hka] at childFound
  have hks : k.address ≠ source.address := by
    intro he
    obtain rfl := Option.some.inj ((he ▸ childFound).symm.trans found)
    simp [isCollection] at isDealer
  have hold : ∀ {a e}, R.shell? a = some e → a ≠ c.address := fun he =>
    (hc.trans new) ▸ h.linked.ne_nextAddress he
  have hlook := @shell?_put_put_put R.afterAddress (k.withCollection s')
    (leaving source .migratedOut site) c hks (hold childFound) (hold found)
  have hchild := hlook.2 (Or.inr (Or.inr (Or.inl ⟨rfl, rfl⟩)))
  -- Every other subscriber keeps its places.
  have hmem : ∀ {a}, a ≠ source.address → a ∈ s.notify → a ∈ s'.notify := by
    intro a ha hm
    rw [notify]
    exact List.mem_map.2 ⟨a, hm, if_neg ha⟩
  have hkept : ∀ {a}, a ≠ source.address → ∀ b e e' t', R.shell? b = some e →
      (((R.afterAddress.put (k.withCollection s')).put
        (leaving source .migratedOut site)).put c).shell? b = some e' →
      e'.model = .collection t' → ∃ t, e.model = .collection t ∧ (a ∈ t.notify → a ∈ t'.notify) := by
    intro a ha b e e' t' he he' ht'
    rcases hlook.1 he' with ⟨hb, -⟩ | ⟨rfl, rfl⟩ | ⟨rfl, rfl⟩ | ⟨-, -, -, hb⟩
    · exact absurd hb (hold he)
    · simp [leaving, isDealer] at ht'
    · obtain rfl := Option.some.inj (childFound.symm.trans he)
      obtain rfl := Model.collection.inj ht'
      exact ⟨s, isCollection, hmem ha⟩
    · obtain rfl := Option.some.inj (he.symm.trans hb)
      exact ⟨t', ht', id⟩
  refine ⟨linked, ?_, ?_⟩
  · intro a x t hx ht
    rcases hlook.1 hx with ⟨rfl, rfl⟩ | ⟨rfl, rfl⟩ | ⟨rfl, rfl⟩ | ⟨-, -, -, hx'⟩
    · simp [sameDealer] at ht
    · simp [leaving, isDealer] at ht
    · obtain rfl := Model.collection.inj ht
      rw [minters, notify]
      exact List.map_subset _ (h.minters _ k s childFound isCollection)
    · exact h.minters a x t hx' ht
  · intro a x t hx ht
    rcases hlook.1 hx with ⟨rfl, rfl⟩ | ⟨rfl, rfl⟩ | ⟨rfl, rfl⟩ | ⟨-, has, -, hx'⟩
    · -- The new dealer is younger than all others.
      obtain rfl := Model.dealer.inj (sameDealer.symm.trans ht)
      obtain ⟨hi, hserves⟩ := h.serves found isDealer (hka ▸ childFound) isCollection
      rw [← hka]
      refine ⟨_, s', hchild, hi, rfl, fun _ => .of_younger (hserves running).imported ?_ ?_⟩
      · rw [notify]
        exact List.mem_map.2 ⟨_, (hserves running).subscribed, (if_pos rfl).trans hc.symm⟩
      · intro b hb
        obtain ⟨e, he, -⟩ := h.linked.next _ k b childFound hb
        rw [hc, new]
        exact h.linked.madeBefore_nextAddress he
    · obtain rfl := Model.dealer.inj (isDealer.symm.trans ht)
      obtain ⟨hi, -⟩ := h.serves found isDealer (hka ▸ childFound) isCollection
      rw [← hka]
      exact ⟨_, s', hchild, hi, rfl, fun hm => by cases hm⟩
    · cases ht
    · by_cases hkk : t.child.address = k.address
      · obtain ⟨hi, hserves⟩ := h.serves hx' ht (hkk ▸ childFound) isCollection
        rw [hkk]
        exact ⟨_, s', hchild, hi, rfl, fun hm =>
          (hserves hm).mono h.linked childFound rfl rfl (hmem has) (hkept has)⟩
      · obtain ⟨k', s₀, hk', hi, hs₀, hserves⟩ := h.child a x t hx' ht
        refine ⟨k', s₀, hlook.2 (Or.inr (Or.inr (Or.inr ⟨hold hk', ?_, hkk, hk'⟩))), hi, hs₀,
          fun hm => (hserves hm).mono h.linked hk' rfl rfl id (hkept has)⟩
        intro (he : t.child.address = source.address)
        rw [he, found] at hk'
        obtain rfl := Option.some.inj hk'
        simp [isDealer] at hs₀

/-- A collection that starts to move tells its successor of all its dealers. -/
theorem moveCollection (h : R.WellStaffed) {source c : Contract} {s t : Collection}
    {site : ContractInfo} (new : site.address = R.nextAddress)
    (found : R.shell? source.address = some source) (isCollection : source.model = .collection s)
    (hc : c.info = site) (isNew : c.model = .collection t)
    (minters : t.minters = s.minters) (notify : t.notify = s.notify)
    (linked : ((R.afterAddress.put (leaving source .migrateOutStarted site)).put c).WellLinked) :
    ((R.afterAddress.put (leaving source .migrateOutStarted site)).put c).WellStaffed := by
  subst hc
  have hnew : c.address = R.nextAddress := new
  have hold : ∀ {a e}, R.shell? a = some e → a ≠ c.address := fun he =>
    hnew ▸ h.linked.ne_nextAddress he
  have hlook := @shell?_put_put R.afterAddress (leaving source .migrateOutStarted c.info) c
    (hold found)
  refine ⟨linked, ?_, ?_⟩
  · intro a x t' hx ht
    rcases hlook.1 hx with ⟨rfl, rfl⟩ | ⟨rfl, rfl⟩ | ⟨-, -, hx'⟩
    · obtain rfl := Model.collection.inj (isNew.symm.trans ht)
      rw [minters, notify]
      exact h.minters _ source s found isCollection
    · exact h.minters _ source t' found ht
    · exact h.minters a x t' hx' ht
  · intro a x d hx hd
    rcases hlook.1 hx with ⟨rfl, rfl⟩ | ⟨rfl, rfl⟩ | ⟨-, -, hx'⟩
    · simp [isNew] at hd
    · simp [leaving, isCollection] at hd
    · by_cases hks : d.child.address = source.address
      · obtain ⟨hi, hserves⟩ := h.serves hx' hd (hks ▸ found) isCollection
        rw [hks]
        refine ⟨_, s, hlook.2 (Or.inr (Or.inl ⟨rfl, rfl⟩)), hi, isCollection, fun hm =>
          ⟨by simp [leaving], (hserves hm).subscribed, ?_, by simp [leaving]⟩⟩
        intro b e t' hb he ht' _
        obtain rfl := Option.some.inj hb
        obtain rfl := Option.some.inj ((hlook.2 (Or.inl ⟨rfl, rfl⟩)).symm.trans he)
        obtain rfl := Model.collection.inj (isNew.symm.trans ht')
        rw [notify]
        exact (hserves hm).subscribed
      · obtain ⟨k, s₀, hk, hi, hs₀, hserves⟩ := h.child a x d hx' hd
        refine ⟨k, s₀, hlook.2 (Or.inr (Or.inr ⟨hold hk, hks, hk⟩)), hi, hs₀, fun hm =>
          (hserves hm).mono h.linked hk rfl rfl id fun b e e' t' he he' ht' => ?_⟩
        rcases hlook.1 he' with ⟨hb, -⟩ | ⟨rfl, rfl⟩ | ⟨-, -, hb⟩
        · exact absurd hb (hold he)
        · obtain rfl := Option.some.inj (found.symm.trans he)
          exact ⟨t', ht', id⟩
        · obtain rfl := Option.some.inj (he.symm.trans hb)
          exact ⟨t', ht', id⟩

/-- A dealer that the new collection does not know is younger, and the retired one serves it. -/
theorem serves_retired (h : R.WellStaffed) {a : String} {c d e : Contract} {s t : Collection}
    {dealer : Dealer} (hd : R.shell? d.address = some d) (hcd : Precedes c d)
    (isCollection : d.model = .collection t) (he : R.shell? a = some e)
    (isDealer : e.model = .dealer dealer) (hserves : R.Serves a c s) (unknown : a ∉ t.notify) :
    R'.Serves a { c with mode := .migratedOut } s := by
  refine .of_younger (by simp) hserves.subscribed fun b hb => ?_
  obtain rfl := Option.some.inj (hcd.next.symm.trans hb)
  refine (h.linked.older_or_younger he hd ?_).resolve_left fun had =>
    unknown (hserves.copied _ d t hcd.next hd isCollection had)
  rintro rfl
  obtain rfl := Option.some.inj (hd.symm.trans he)
  simp [isCollection] at isDealer

/-- At the end of an import the subscribed dealers follow, and the others stay. -/
theorem finish (h : R.WellStaffed) {c d : Contract} {s : Collection}
    (hc : R.shell? c.address = some c) (hd : R.shell? d.address = some d) (hcd : Precedes c d)
    (importing : d.mode = .migrateDataIn) (isCollection : d.model = .collection s)
    (linked : (((R.put { d with mode := .running }).put { c with mode := .migratedOut }).tell
      s.notify c.address d.info).WellLinked) :
    (((R.put { d with mode := .running }).put { c with mode := .migratedOut }).tell
      s.notify c.address d.info).WellStaffed := by
  obtain ⟨sc, hsc⟩ : ∃ sc, c.model = .collection sc := by
    have hk := hcd.sameKind
    cases hm : c.model with
    | dealer dc => simp [Contract.kind, hm, isCollection] at hk
    | collection sc => exact ⟨sc, rfl⟩
  have hlast := h.linked.migratedTo_eq_none hd (Or.inr importing)
  have hlook := @shell?_put_put R { d with mode := .running } { c with mode := .migratedOut }
    hcd.older.ne.symm
  generalize (R.put { d with mode := .running }).put { c with mode := .migratedOut } = S
    at hlook linked ⊢
  have hdone : (S.tell s.notify c.address d.info).shell? d.address =
      some { d with mode := .running } :=
    (shell?_tell_collection (c := { d with mode := .running }) isCollection).2 (hlook.2 (Or.inr (Or.inl ⟨rfl, rfl⟩)))
  refine ⟨linked, ?_, ?_⟩
  · intro a x t hx ht
    rcases hlook.1 ((shell?_tell_collection ht).1 hx) with ⟨rfl, rfl⟩ | ⟨rfl, rfl⟩ | ⟨-, -, hx'⟩
    · exact h.minters _ c t hc ht
    · exact h.minters _ d t hd ht
    · exact h.minters a x t hx' ht
  · intro a x dx hx hdx
    obtain ⟨y, dy, hyS, hdy, hxy⟩ := exists_of_tell_dealer hdx hx
    have hy : R.shell? a = some y := by
      rcases hlook.1 hyS with ⟨-, rfl⟩ | ⟨-, rfl⟩ | ⟨-, -, hy⟩
      · exact absurd (hsc.symm.trans hdy) (by simp)
      · exact absurd (isCollection.symm.trans hdy) (by simp)
      · exact hy
    by_cases hkc : dy.child.address = c.address
    · obtain ⟨hi, hserves⟩ := h.serves hy hdy (hkc ▸ hc) hsc
      by_cases ha : a ∈ s.notify
      · -- A subscribed dealer of the old collection follows.
        rw [if_pos ha, follow, hdy] at hxy
        simp only [hkc, if_true] at hxy
        subst hxy
        obtain rfl := Model.dealer.inj hdx
        exact ⟨_, s, hdone, rfl, isCollection, fun _ =>
          .of_younger (by simp) ha (by simp [hlast])⟩
      · rw [if_neg ha] at hxy
        subst hxy
        obtain rfl := Model.dealer.inj (hdy.symm.trans hdx)
        refine ⟨{ c with mode := .migratedOut }, sc, ?_, hi, hsc, fun hm =>
          h.serves_retired hd hcd isCollection hy hdy (hserves hm) ha⟩
        rw [hkc, shell?_tell_collection (c := { c with mode := .migratedOut }) hsc]
        exact hlook.2 (Or.inl ⟨rfl, rfl⟩)
    · obtain rfl : x = y := by
        rw [hxy]
        split
        · simp [follow, hdy, hkc]
        · rfl
      obtain rfl := Model.dealer.inj (hdy.symm.trans hdx)
      by_cases hkd : dy.child.address = d.address
      · obtain ⟨hi, hserves⟩ := h.serves hy hdy (hkd ▸ hd) isCollection
        exact ⟨{ d with mode := .running }, s, hkd ▸ hdone, hi, isCollection, fun hm =>
          absurd importing (hserves hm).imported⟩
      · obtain ⟨k, sk, hk, hi, hsk, hserves⟩ := h.child a x dy hy hdy
        refine ⟨k, sk, ?_, hi, hsk, fun hm =>
          (hserves hm).mono h.linked hk rfl rfl id fun b e e' t' he he' ht' => ?_⟩
        · rw [shell?_tell_collection hsk]
          exact hlook.2 (Or.inr (Or.inr ⟨hkc, hkd, hk⟩))
        · rcases hlook.1 ((shell?_tell_collection ht').1 he') with
            ⟨rfl, rfl⟩ | ⟨rfl, rfl⟩ | ⟨-, -, hb⟩
          · obtain rfl := Option.some.inj (hc.symm.trans he)
            exact ⟨t', ht', id⟩
          · obtain rfl := Option.some.inj (hd.symm.trans he)
            exact ⟨t', ht', id⟩
          · obtain rfl := Option.some.inj (he.symm.trans hb)
            exact ⟨t', ht', id⟩

/-- Every step leaves well staffed contracts. -/
theorem step (h : R.WellStaffed) (hs : R.Step R') : R'.WellStaffed := by
  have linked := h.linked.step hs
  cases hs with
  | quiet => exact h
  | newCollection new unsubscribed =>
    exact h.newCollection (.newCollection new unsubscribed) new rfl unsubscribed
  | newDealer child new childNew minters notify isChild =>
    subst isChild
    exact h.newDealer (.newDealer _ new childNew minters notify rfl) new childNew rfl rfl rfl rfl
      rfl minters notify
  | moveDealer site new found isDealer running childFound isCollection =>
    exact h.moveDealer new found isDealer running childFound isCollection rfl rfl rfl rfl linked
  | moveCollection site new found isCollection _ _ _ minters notify =>
    exact h.moveCollection new found isCollection rfl rfl minters notify linked
  | finish found isCollection importing comesFrom sourceFound =>
    obtain ⟨hsource, rfl, hp⟩ := h.linked.precedes_of_import found comesFrom sourceFound
    exact h.finish hsource found hp importing isCollection linked

end WellStaffed

end Registry

namespace Ledger

/-- On a reached ledger dealers and collections know each other. -/
theorem Reached.wellStaffed {l : Ledger} (h : l.Reached) : l.registry.WellStaffed := by
  induction h with
  | empty => exact .empty
  | block _ ih => exact ih
  | step _ hs ih => exact ih.step (registryStep_of_step hs)

/-! ## What dealers can rely on -/

/-- The collection `k` was moved before there was a contract at `a`, and the move is over. A
dealer at `a` that has this collection came to it while its tokens were on the way. -/
def Overtaken (l : Ledger) (a : String) (k : Contract) : Prop :=
  ∃ b e, k.migratedTo = some b ∧ l.contract? b.address = some e ∧ e.mode ≠ .migrateDataIn ∧
    MadeBefore b.address a

/-- A collection whose successor is older if it retired is retired exactly if it was overtaken. -/
theorem migratedOut_iff_overtaken {l : Ledger} (h : l.registry.WellLinked) {a b : String}
    {k : Contract} (hk : l.contract? b = some k)
    (older : ∀ b, k.migratedTo = some b → k.mode = .migratedOut → MadeBefore b.address a) :
    k.mode = .migratedOut ↔ l.Overtaken a k := by
  constructor
  · intro hout
    cases hb : k.migratedTo with
    | none => rcases mode_of_last h hk hb with hm | ⟨-, hm, -⟩ <;> simp [hout] at hm
    | some b =>
      obtain ⟨f, hf, hp⟩ := exists_successor h hk hb
      refine ⟨b, f, hb, hf, ?_, older b hb hout⟩
      rcases hp.modes with ⟨-, hm, -⟩ | ⟨-, hfm⟩
      · simp [hout] at hm
      · exact hfm
  · rintro ⟨b, f, hb, hf, hfm, -⟩
    obtain ⟨f', hf', hp⟩ := exists_successor h hk hb
    obtain rfl := Option.some.inj (hf.symm.trans hf')
    exact (hp.modes.resolve_left fun hm => hfm hm.2.2).1

/-- The collection of a dealer is there, and serves the dealer while that runs. -/
theorem exists_collection {l : Ledger} (h : l.registry.WellStaffed) {a : String} {c : Contract}
    {d : Dealer} (hc : l.contract? a = some c) (isDealer : c.model = .dealer d) :
    ∃ k s, l.contract? d.child.address = some k ∧ k.info = d.child ∧ k.model = .collection s ∧
      (c.mode = .running → l.registry.Serves a k.shell s.shell) := by
  obtain ⟨e, t, he, hi, ht, hserves⟩ := h.child a c.shell d (shell?_registry hc)
    (Contract.model_shell_eq_dealer.2 isDealer)
  obtain ⟨k, hk, rfl⟩ := exists_of_shell? he
  cases hm : k.model with
  | dealer dk =>
    rw [Contract.model_shell_eq_dealer.2 hm] at ht
    cases ht
  | collection s =>
    obtain rfl := Model.collection.inj ((Contract.model_shell_of_collection hm).symm.trans ht)
    exact ⟨k, s, hk, by simpa using hi, hm, fun running => hserves (by simpa using running)⟩

/-- A running dealer is a minter of its collection. That is live, or the dealer was overtaken
and it is retired. -/
theorem exists_child {l : Ledger} (h : l.registry.WellStaffed) {a : String} {c : Contract}
    {d : Dealer} (hc : l.contract? a = some c) (running : c.mode = .running)
    (isDealer : c.model = .dealer d) :
    ∃ k s, l.contract? d.child.address = some k ∧ k.info = d.child ∧ k.model = .collection s ∧
      a ∈ s.minters ∧ (k.Live ↔ ¬l.Overtaken a k) ∧ (k.mode = .migratedOut ↔ l.Overtaken a k) := by
  obtain ⟨k, s, hk, hi, hm, hserves⟩ := exists_collection h hc isDealer
  have hs := hserves running
  refine ⟨k, s, hk, hi, hm, ?_, ?_⟩
  · exact h.minters _ _ _ (shell?_registry hk) (Contract.model_shell_of_collection hm) hs.subscribed
  · have himp : k.mode ≠ .migrateDataIn := by simpa using hs.imported
    have hout : k.mode = .migratedOut ↔ l.Overtaken a k :=
      migratedOut_iff_overtaken h.linked hk (by simpa using hs.overtaken)
    refine ⟨?_, hout⟩
    rw [← hout, Contract.Live]
    cases hmk : k.mode <;> simp_all

/-- A message that reads as a purchase makes one. -/
theorem apply_purchase_eq {rules : ChainRules} {l : Ledger} {buyer a : String} {c : Contract}
    {d : Dealer} {msg : Json} (funds : List Coin) (hc : l.contract? a = some c)
    (isDealer : c.model = .dealer d) (read : ofObject? msg = some DealerMsg.purchaseMint) :
    apply rules l (.execute buyer a c.codeHash msg funds) = l.purchaseMint buyer a funds := by
  have hl : l.contract a = .ok c := contract_eq_ok.2 hc
  have hp : parseMessage (α := DealerMsg) ofObject? "ExecuteMsg" msg = .ok .purchaseMint :=
    parseMessage_eq_ok.2 read
  simp [apply, execute, hl, isDealer, hp, bind, Except.bind]

/-- A purchase at a running dealer goes through exactly if it pays the price, the collection runs,
and there is enough gas. -/
theorem exists_purchase_iff {rules : ChainRules} {l : Ledger} {buyer a : String} {c k : Contract}
    {d : Dealer} {s : Collection} {msg : Json} {funds : List Coin} (hc : l.contract? a = some c)
    (running : c.mode = .running) (isDealer : c.model = .dealer d)
    (hk : l.contract? d.child.address = some k) (isCollection : k.model = .collection s)
    (isMinter : a ∈ s.minters) (read : ofObject? msg = some DealerMsg.purchaseMint) {gas : Nat} :
    (∃ o l', apply rules l (.execute buyer a c.codeHash msg funds) = .ok (o, l') ∧
      o.gasUsed ≤ gas) ↔ PaysPrice d.prices funds ∧ k.mode = .running ∧ 2 * executeGas ≤ gas := by
  simp only [apply_purchase_eq funds hc isDealer read, purchaseMint_eq_ok]
  constructor
  · rintro ⟨_, _, ⟨sale, rfl, -⟩, hgas⟩
    have hs := sale.childRunning
    have hpaid := sale.paid
    obtain rfl := Option.some.inj (hc.symm.trans sale.found)
    obtain rfl := Model.dealer.inj (isDealer.symm.trans sale.isDealer)
    obtain rfl := Option.some.inj (hk.symm.trans sale.childFound)
    exact ⟨hpaid, hs, hgas⟩
  · rintro ⟨paid, hm, enough⟩
    exact ⟨_, _, ⟨⟨c, d, k, s, hc, running, isDealer, paid, hk, hm, isCollection, isMinter⟩,
      rfl, rfl⟩, enough⟩

/-- A purchase that pays goes through exactly if the collection runs. -/
theorem execute_purchase_iff {rules : ChainRules} {l : Ledger} {buyer a : String} {c k : Contract}
    {d : Dealer} {s : Collection} {msg : Json} {funds : List Coin} (hc : l.contract? a = some c)
    (running : c.mode = .running) (isDealer : c.model = .dealer d)
    (hk : l.contract? d.child.address = some k) (isCollection : k.model = .collection s)
    (isMinter : a ∈ s.minters) (read : ofObject? msg = some DealerMsg.purchaseMint)
    (paid : PaysPrice d.prices funds) {gas : Nat} (enough : 2 * executeGas ≤ gas) :
    (∃ o l', apply rules l (.execute buyer a c.codeHash msg funds) = .ok (o, l') ∧
      o.gasUsed ≤ gas) ↔ k.mode = .running := by
  rw [exists_purchase_iff hc running isDealer hk isCollection isMinter read]
  exact ⟨fun h => h.2.1, fun hm => ⟨paid, hm, enough⟩⟩

end Ledger

/-- On a reachable chain a running dealer is a minter of its collection. That runs or is about to
move, unless the dealer came to it while it moved and the move is over. A purchase with one coin
that pays its first price in the denomination is accepted exactly while the collection runs. -/
theorem Chain.Reachable.dealer_may_mint {c : Chain} (h : c.Reachable) {a : String}
    {k : Contract} {d : Dealer} (found : c.ledger.contract? a = some k)
    (running : k.mode = .running) (isDealer : k.model = .dealer d) :
    ∃ child s, c.ledger.contract? d.child.address = some child ∧ child.info = d.child ∧
      child.model = .collection s ∧ a ∈ s.minters ∧
      ((child.mode = .running ∨ child.mode = .migrateOutStarted) ↔ ¬c.ledger.Overtaken a child) ∧
      (child.mode = .migratedOut ↔ c.ledger.Overtaken a child) ∧
      ∀ buyer msg coin options, ofObject? msg = some DealerMsg.purchaseMint →
        PaysPrice d.prices [coin] → 2 * Ledger.executeGas ≤ options.gasLimit.toNat →
          ((∃ r c', c.broadcast [.execute buyer a k.codeHash msg [coin]] options = (.ok r, c')) ↔
            child.mode = .running) := by
  obtain ⟨child, s, hchild, hi, hs, hm, hlive, hout⟩ :=
    Ledger.exists_child h.reached.wellStaffed found running isDealer
  refine ⟨child, s, hchild, hi, hs, hm, hlive, hout, ?_⟩
  intro buyer msg coin options read paid hgas
  have hfound : c.ledger.nextBlock.contract? a = some k := found
  have hnext : c.ledger.nextBlock.contract? d.child.address = some child := hchild
  rw [Chain.exists_broadcast_singleton,
    Ledger.execute_purchase_iff hfound running isDealer hnext hs hm read paid hgas]

/-- The dealer that came to its collection while that moved was overtaken, so it sells nothing,
and the dealer of the other account sells. -/
theorem Chain.crossed_may_mint :
    (crossed.ledger.Overtaken "secret1contract0006" (oldCollection .migratedOut) ∧
      ∀ buyer options, 2 * Ledger.executeGas ≤ options.gasLimit.toNat →
        ¬∃ r c', crossed.broadcast [.execute buyer "secret1contract0006" dealerHash
          (toJson DealerMsg.purchaseMint) [price]] options = (.ok r, c')) ∧
    ¬crossed.ledger.Overtaken "secret1contract0003" (rivalCollection [] []) ∧
    ∀ buyer options, 2 * Ledger.executeGas ≤ options.gasLimit.toNat →
      ∃ r c', crossed.broadcast [.execute buyer "secret1contract0003" dealerHash
        (toJson DealerMsg.purchaseMint) [price]] options = (.ok r, c') := by
  have hread : ofObject? (toJson DealerMsg.purchaseMint) = some DealerMsg.purchaseMint := rfl
  have hpays : PaysPrice [price] [price] := ⟨price, price, rfl, by decide, rfl⟩
  have hdealer : crossed.ledger.contract? "secret1contract0006" = some newDealer := by
    rw [ledger_crossed]
    rfl
  have hrival : crossed.ledger.contract? "secret1contract0003" = some rivalDealer := by
    rw [ledger_crossed]
    rfl
  constructor
  · obtain ⟨child, s, hchild, -, -, -, -, hout, hsells⟩ :=
      reachable_crossed.dealer_may_mint hdealer rfl rfl
    rw [ledger_crossed] at hchild
    obtain rfl : oldCollection .migratedOut = child := Option.some.inj hchild
    refine ⟨hout.1 rfl, fun buyer options hgas hsold => ?_⟩
    cases (hsells buyer _ price options hread hpays hgas).1 hsold
  · obtain ⟨child, s, hchild, -, -, -, hlive, -, hsells⟩ :=
      reachable_crossed.dealer_may_mint hrival rfl rfl
    rw [ledger_crossed] at hchild
    obtain rfl : rivalCollection [] [] = child := Option.some.inj hchild
    exact ⟨hlive.1 (Or.inl rfl), fun buyer options hgas =>
      (hsells buyer _ price options hread hpays hgas).2 rfl⟩

end Handover

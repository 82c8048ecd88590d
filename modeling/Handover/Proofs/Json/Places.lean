import Handover.Json.Basic
import Mathlib.Data.List.Lex

/-!
# Places in a tree

A tree can be told by its places. A place is the way to it from the root, over fields and items,
with what stands there except for what is below : a leaf, an object, or an array of so many items.
The places of a tree, in the order in which they are written, determine it
(`Json.places_injective`).

In an ordered tree the names of every object go up, as in every free value (`Json.ordered_settled`).
There the ways go up too, so the order says nothing, and the set of the places alone determines
the tree (`Json.filter_places_eq_iff`).
-/

namespace Handover

namespace Json

/-! ## Ways and places -/

/-- A step down into a tree. -/
inductive Step where
  | field (name : String)
  | item (index : Nat)
  deriving DecidableEq, Repr

/-- What stands at a place, except for what is below. -/
inductive Label where
  | null
  | bool (b : Bool)
  | num (n : Number)
  | str (s : String)
  | array (length : Nat)
  | object
  | unreadable
  deriving DecidableEq, Repr

/-- A place in a tree : the way to it from the root, and what stands there. -/
structure Place where
  way : List Step
  label : Label
  deriving DecidableEq, Repr

/-- A place of the tree at the end of a way, seen from where the way starts. -/
def Place.under (before : List Step) (p : Place) : Place :=
  ⟨before ++ p.way, p.label⟩

mutual

/-- The places of a tree, in the order in which they are written. -/
def places : Json → List Place
  | .null => [⟨[], .null⟩]
  | .bool b => [⟨[], .bool b⟩]
  | .num n => [⟨[], .num n⟩]
  | .str s => [⟨[], .str s⟩]
  | .arr xs => ⟨[], .array xs.length⟩ :: placesItems 0 xs
  | .obj fs => ⟨[], .object⟩ :: placesFields fs
  | .unreadable => [⟨[], .unreadable⟩]

/-- The places of items, which are numbered from `index` on. -/
def placesItems (index : Nat) : List Json → List Place
  | [] => []
  | x :: xs => (places x).map (.under [.item index]) ++ placesItems (index + 1) xs

/-- The places of fields, each under its name. -/
def placesFields : List (String × Json) → List Place
  | [] => []
  | (k, v) :: fs => (places v).map (.under [.field k]) ++ placesFields fs

end

theorem Place.under_comp (before between : List Step) :
    Place.under before ∘ Place.under between = Place.under (before ++ between) := by
  funext p
  simp [Place.under]

/-! ## The places determine the tree -/

/-- The first of the places is not deeper than so many steps. -/
def StartsWithin (depth : Nat) (ps : List Place) : Prop :=
  ∀ p ∈ ps.head?, p.way.length ≤ depth

theorem StartsWithin.mono {depth depth' : Nat} {ps : List Place} (h : StartsWithin depth ps)
    (hle : depth ≤ depth') : StartsWithin depth' ps :=
  fun p hp => Nat.le_trans (h p hp) hle

/-- The first place of a tree is the tree itself. -/
theorem exists_places_eq_cons (v : Json) : ∃ label below, places v = ⟨[], label⟩ :: below := by
  cases v <;> exact ⟨_, _, rfl⟩

theorem startsWithin_placesFields (before : List Step) (fs : List (String × Json))
    {rest : List Place} (h : StartsWithin before.length rest) :
    StartsWithin (before.length + 1) ((placesFields fs).map (.under before) ++ rest) := by
  cases fs with
  | nil => exact h.mono (Nat.le_succ _)
  | cons f fs =>
    obtain ⟨label, below, hv⟩ := exists_places_eq_cons f.2
    simp [StartsWithin, placesFields, hv, Place.under]

theorem not_startsWithin_placesFields_cons (before : List Step) (f : String × Json)
    (fs : List (String × Json)) (rest : List Place) :
    ¬StartsWithin before.length ((placesFields (f :: fs)).map (.under before) ++ rest) := by
  obtain ⟨label, below, hv⟩ := exists_places_eq_cons f.2
  simp [StartsWithin, placesFields, hv, Place.under]

theorem startsWithin_placesItems (before : List Step) (index : Nat) (xs : List Json)
    {rest : List Place} (h : StartsWithin before.length rest) :
    StartsWithin (before.length + 1) ((placesItems index xs).map (.under before) ++ rest) := by
  cases xs with
  | nil => exact h.mono (Nat.le_succ _)
  | cons x xs =>
    obtain ⟨label, below, hx⟩ := exists_places_eq_cons x
    simp [StartsWithin, placesItems, hx, Place.under]

mutual

/-- Where places follow that are not below it, a tree can still be told. -/
theorem places_append_inj : ∀ (a b : Json) (before : List Step) {r s : List Place},
    StartsWithin before.length r → StartsWithin before.length s →
      (places a).map (.under before) ++ r = (places b).map (.under before) ++ s → a = b ∧ r = s
  | .arr xs, b, before, r, s, hr, hs, h => by
    cases b with
    | arr ys =>
      simp only [places, List.map_cons, List.cons_append, List.cons.injEq, Place.under,
        Place.mk.injEq, Label.array.injEq, true_and] at h
      obtain ⟨rfl, rfl⟩ := placesItems_append_inj xs ys before 0 h.1 hr hs h.2
      exact ⟨rfl, rfl⟩
    | _ => simp [places, Place.under] at h
  | .obj fs, b, before, r, s, hr, hs, h => by
    cases b with
    | obj gs =>
      simp only [places, List.map_cons, List.cons_append, List.cons.injEq, true_and] at h
      obtain ⟨rfl, rfl⟩ := placesFields_append_inj fs gs before hr hs h
      exact ⟨rfl, rfl⟩
    | _ => simp [places, Place.under] at h
  | .null, b, before, r, s, hr, hs, h => by cases b <;> simp_all [places, Place.under]
  | .bool _, b, before, r, s, hr, hs, h => by cases b <;> simp_all [places, Place.under]
  | .num _, b, before, r, s, hr, hs, h => by cases b <;> simp_all [places, Place.under]
  | .str _, b, before, r, s, hr, hs, h => by cases b <;> simp_all [places, Place.under]
  | .unreadable, b, before, r, s, hr, hs, h => by cases b <;> simp_all [places, Place.under]

/-- Lists of items of one length can be told by their places. -/
theorem placesItems_append_inj : ∀ (xs ys : List Json) (before : List Step) (index : Nat)
    {r s : List Place}, xs.length = ys.length →
      StartsWithin before.length r → StartsWithin before.length s →
      (placesItems index xs).map (.under before) ++ r =
        (placesItems index ys).map (.under before) ++ s → xs = ys ∧ r = s
  | [], [], before, index, r, s, _, hr, hs, h => ⟨rfl, h⟩
  | x :: xs, y :: ys, before, index, r, s, hlength, hr, hs, h => by
    simp only [placesItems, List.map_append, List.map_map, Place.under_comp,
      List.append_assoc] at h
    have hdepth : (before ++ [Step.item index]).length = before.length + 1 := by simp
    obtain ⟨rfl, hrest⟩ := places_append_inj x y _
      (hdepth ▸ startsWithin_placesItems before (index + 1) xs hr)
      (hdepth ▸ startsWithin_placesItems before (index + 1) ys hs) h
    obtain ⟨rfl, rfl⟩ := placesItems_append_inj xs ys before (index + 1)
      (by simpa using hlength) hr hs hrest
    exact ⟨rfl, rfl⟩

/-- Fields can be told by their places, where places follow that are not below them. -/
theorem placesFields_append_inj : ∀ (fs gs : List (String × Json)) (before : List Step)
    {r s : List Place}, StartsWithin before.length r → StartsWithin before.length s →
      (placesFields fs).map (.under before) ++ r = (placesFields gs).map (.under before) ++ s →
        fs = gs ∧ r = s
  | [], [], before, r, s, hr, hs, h => ⟨rfl, h⟩
  | [], g :: gs, before, r, s, hr, hs, h =>
    absurd (h ▸ hr) (not_startsWithin_placesFields_cons before g gs s)
  | f :: fs, [], before, r, s, hr, hs, h =>
    absurd (h ▸ hs) (not_startsWithin_placesFields_cons before f fs r)
  | (k, v) :: fs, (l, w) :: gs, before, r, s, hr, hs, h => by
    -- Both lists start with the place of the first field, which tells its name.
    obtain rfl : k = l := by
      obtain ⟨_, _, hv⟩ := exists_places_eq_cons v
      obtain ⟨_, _, hw⟩ := exists_places_eq_cons w
      have hhead := congrArg List.head? h
      simp [placesFields, hv, hw, Place.under] at hhead
      exact hhead.1
    simp only [placesFields, List.map_append, List.map_map, Place.under_comp,
      List.append_assoc] at h
    have hdepth : (before ++ [Step.field k]).length = before.length + 1 := by simp
    obtain ⟨rfl, hrest⟩ := places_append_inj v w _
      (hdepth ▸ startsWithin_placesFields before fs hr)
      (hdepth ▸ startsWithin_placesFields before gs hs) h
    obtain ⟨rfl, rfl⟩ := placesFields_append_inj fs gs before hr hs hrest
    exact ⟨rfl, rfl⟩

end

/-- Trees with the same places, in the same order, are the same. -/
theorem places_injective : Function.Injective places := by
  intro a b h
  have hnil : StartsWithin ([] : List Step).length [] := by simp [StartsWithin]
  refine (places_append_inj a b [] hnil hnil ?_).1
  rw [h]

/-! ## Ordered trees -/

mutual

/-- The names of every object go up. -/
def Ordered : Json → Prop
  | .arr xs => OrderedItems xs
  | .obj fs => (fs.map Prod.fst).Pairwise (· < ·) ∧ OrderedFields fs
  | _ => True

/-- In every item the names go up. -/
def OrderedItems : List Json → Prop
  | [] => True
  | x :: xs => Ordered x ∧ OrderedItems xs

/-- In the value of every field the names go up. -/
def OrderedFields : List (String × Json) → Prop
  | [] => True
  | (_, v) :: fs => Ordered v ∧ OrderedFields fs

end

/-- Fields are ordered if their values are. -/
theorem orderedFields_iff {fs : List (String × Json)} :
    OrderedFields fs ↔ ∀ f ∈ fs, Ordered f.2 := by
  induction fs with
  | nil => simp [OrderedFields]
  | cons f fs ih => simp [OrderedFields, ih]

/-- A field in the result is the one that was put or was there before. -/
theorem mem_putField {k : String} {v : Json} {f : String × Json} :
    ∀ {fs : List (String × Json)}, f ∈ putField k v fs → f = (k, v) ∨ f ∈ fs
  | [], h => by simpa [putField] using h
  | (l, w) :: fs, h => by
    rw [putField] at h
    split_ifs at h with heq hlt
    · rcases List.mem_cons.1 h with rfl | h
      · exact Or.inl rfl
      · exact Or.inr (List.mem_cons_of_mem _ h)
    · exact (List.mem_cons.1 h).imp id id
    · rcases List.mem_cons.1 h with rfl | h
      · exact Or.inr List.mem_cons_self
      · exact (mem_putField h).imp id (List.mem_cons_of_mem _)

/-- A field put into its place leaves the names going up. -/
theorem pairwise_putField (k : String) (v : Json) : ∀ {fs : List (String × Json)},
    (fs.map Prod.fst).Pairwise (· < ·) → ((putField k v fs).map Prod.fst).Pairwise (· < ·)
  | [], _ => by simp [putField]
  | (l, w) :: fs, h => by
    obtain ⟨hl, hfs⟩ := List.pairwise_cons.1 h
    rw [putField]
    split_ifs with heq hlt
    · subst heq
      exact List.pairwise_cons.2 ⟨hl, hfs⟩
    · refine List.pairwise_cons.2 ⟨fun m hm => ?_, h⟩
      rcases List.mem_cons.1 hm with rfl | hm
      · exact hlt
      · exact String.lt_trans hlt (hl m hm)
    · have hlk : l < k := String.not_le.1 fun hle =>
        heq (String.le_antisymm hle (String.not_lt.1 hlt))
      refine List.pairwise_cons.2 ⟨fun m hm => ?_, pairwise_putField k v hfs⟩
      obtain ⟨f, hf, rfl⟩ := List.mem_map.1 hm
      rcases mem_putField hf with rfl | hf
      · exact hlk
      · exact hl _ (List.mem_map_of_mem hf)

/-- Fields that are put one after the other end up with names that go up. -/
theorem foldl_putField {P : Json → Prop} : ∀ (fs acc : List (String × Json)),
    (acc.map Prod.fst).Pairwise (· < ·) → (∀ f ∈ acc, P f.2) → (∀ f ∈ fs, P f.2) →
      ((fs.foldl (fun acc f => putField f.1 f.2 acc) acc).map Prod.fst).Pairwise (· < ·) ∧
        ∀ f ∈ fs.foldl (fun acc f => putField f.1 f.2 acc) acc, P f.2
  | [], acc, hacc, hP, _ => ⟨hacc, hP⟩
  | g :: fs, acc, hacc, hP, hfs => by
    refine foldl_putField fs _ (pairwise_putField g.1 g.2 hacc) (fun f hf => ?_)
      fun f hf => hfs f (List.mem_cons_of_mem _ hf)
    rcases mem_putField hf with rfl | hf
    · exact hfs g List.mem_cons_self
    · exact hP f hf

mutual

/-- A tree in its settled form is ordered. -/
theorem ordered_settled : ∀ v : Json, (settled v).Ordered
  | .arr xs => orderedItems_settledAll xs
  | .obj fs => by
    obtain ⟨hnames, hvalues⟩ := foldl_putField (P := Ordered) (settledEach fs) [] (by simp)
      (by simp) (orderedFields_iff.1 (orderedFields_settledEach fs))
    exact ⟨hnames, orderedFields_iff.2 hvalues⟩
  | .null => trivial
  | .bool _ => trivial
  | .num _ => trivial
  | .str _ => trivial
  | .unreadable => trivial

theorem orderedItems_settledAll : ∀ xs : List Json, OrderedItems (settledAll xs)
  | [] => trivial
  | x :: xs => ⟨ordered_settled x, orderedItems_settledAll xs⟩

theorem orderedFields_settledEach : ∀ fs : List (String × Json), OrderedFields (settledEach fs)
  | [] => trivial
  | (_, v) :: fs => ⟨ordered_settled v, orderedFields_settledEach fs⟩

end

/-! ## Places of an ordered tree -/

/-- Fields come in the order of their names, items in that of their numbers. -/
def Step.Before : Step → Step → Prop
  | .field k, .field l => k < l
  | .item i, .item j => i < j
  | _, _ => False

instance : Std.Asymm Step.Before where
  asymm
    | .field _, .field _, h => String.lt_asymm h
    | .item _, .item _, h => Nat.lt_asymm h

/-- The way to the place comes before the other, or leads through it. -/
def Place.Before (p q : Place) : Prop :=
  List.Lex Step.Before p.way q.way

/-- The way to a place in items starts with the number of an item. -/
theorem mem_placesItems {p : Place} : ∀ {index : Nat} {xs : List Json},
    p ∈ placesItems index xs → ∃ i way, index ≤ i ∧ p.way = .item i :: way
  | index, x :: xs, h => by
    rcases List.mem_append.1 h with h | h
    · obtain ⟨q, -, rfl⟩ := List.mem_map.1 h
      exact ⟨index, q.way, Nat.le_refl _, rfl⟩
    · obtain ⟨i, way, hi, hp⟩ := mem_placesItems h
      exact ⟨i, way, Nat.le_of_succ_le hi, hp⟩

/-- The way to a place in fields starts with the name of a field. -/
theorem mem_placesFields {p : Place} : ∀ {fs : List (String × Json)},
    p ∈ placesFields fs → ∃ f ∈ fs, ∃ way, p.way = .field f.1 :: way
  | (k, v) :: fs, h => by
    rcases List.mem_append.1 h with h | h
    · obtain ⟨q, -, rfl⟩ := List.mem_map.1 h
      exact ⟨(k, v), List.mem_cons_self, q.way, rfl⟩
    · obtain ⟨f, hf, hp⟩ := mem_placesFields h
      exact ⟨f, List.mem_cons_of_mem _ hf, hp⟩

theorem before_cons_of_way {label : Label} {p : Place} {step : Step} {way : List Step}
    (h : p.way = step :: way) : Place.Before ⟨[], label⟩ p := by
  rw [Place.Before, h]
  exact .nil

/-- Places keep their order under one more step. -/
theorem pairwise_map_under (step : Step) {ps : List Place} (h : ps.Pairwise Place.Before) :
    (ps.map (Place.under [step])).Pairwise Place.Before :=
  List.pairwise_map.2 (h.imp fun hpq => .cons hpq)

mutual

/-- The places of an ordered tree come in the order of their ways. -/
theorem pairwise_places : ∀ {v : Json}, v.Ordered → (places v).Pairwise Place.Before
  | .arr _, h => List.pairwise_cons.2
    ⟨fun _ hp => let ⟨_, _, _, hway⟩ := mem_placesItems hp; before_cons_of_way hway,
      pairwise_placesItems h⟩
  | .obj _, h => List.pairwise_cons.2
    ⟨fun _ hp => let ⟨_, _, _, hway⟩ := mem_placesFields hp; before_cons_of_way hway,
      pairwise_placesFields h.1 h.2⟩
  | .null, _ => List.pairwise_singleton _ _
  | .bool _, _ => List.pairwise_singleton _ _
  | .num _, _ => List.pairwise_singleton _ _
  | .str _, _ => List.pairwise_singleton _ _
  | .unreadable, _ => List.pairwise_singleton _ _

theorem pairwise_placesItems : ∀ {index : Nat} {xs : List Json}, OrderedItems xs →
    (placesItems index xs).Pairwise Place.Before
  | _, [], _ => .nil
  | index, x :: xs, h => by
    refine List.pairwise_append.2 ⟨pairwise_map_under _ (pairwise_places h.1),
      pairwise_placesItems h.2, fun p hp q hq => ?_⟩
    obtain ⟨p, -, rfl⟩ := List.mem_map.1 hp
    obtain ⟨i, way, hi, hway⟩ := mem_placesItems hq
    rw [Place.Before, hway]
    exact .rel hi

theorem pairwise_placesFields : ∀ {fs : List (String × Json)},
    (fs.map Prod.fst).Pairwise (· < ·) → OrderedFields fs →
      (placesFields fs).Pairwise Place.Before
  | [], _, _ => .nil
  | (k, v) :: fs, hnames, h => by
    obtain ⟨hk, hnames⟩ := List.pairwise_cons.1 hnames
    refine List.pairwise_append.2 ⟨pairwise_map_under _ (pairwise_places h.1),
      pairwise_placesFields hnames h.2, fun p hp q hq => ?_⟩
    obtain ⟨p, -, rfl⟩ := List.mem_map.1 hp
    obtain ⟨f, hf, way, hway⟩ := mem_placesFields hq
    rw [Place.Before, hway]
    exact .rel (hk f.1 (List.mem_map_of_mem hf))

end

/-- Places that come in the order of their ways are determined by which they are. -/
theorem eq_of_pairwise_of_mem_iff {ps qs : List Place} (hp : ps.Pairwise Place.Before)
    (hq : qs.Pairwise Place.Before) (h : ∀ p, p ∈ ps ↔ p ∈ qs) : ps = qs := by
  have hasymm : ∀ {p q : Place}, p.Before q → ¬q.Before p := fun hpq hqp =>
    Std.Asymm.asymm (r := List.Lex Step.Before) _ _ hpq hqp
  have hnodup : ∀ {rs : List Place}, rs.Pairwise Place.Before → rs.Nodup := fun hrs =>
    hrs.imp fun {p q} hpq (heq : p = q) => hasymm hpq (heq ▸ hpq)
  exact List.Perm.eq_of_pairwise (fun p q _ _ hpq hqp => absurd hqp (hasymm hpq)) hp hq
    ((List.perm_ext_iff_of_nodup (hnodup hp) (hnodup hq)).2 h)

/-- In ordered trees the places of some ways are the same if they are in the same order or not. -/
theorem filter_places_eq_iff {a b : Json} (ha : a.Ordered) (hb : b.Ordered)
    (open? : List Step → Bool) :
    (places a).filter (open? ·.way) = (places b).filter (open? ·.way) ↔
      ∀ p : Place, open? p.way = true → (p ∈ places a ↔ p ∈ places b) := by
  constructor
  · intro h p hp
    have hmem := congrArg (p ∈ ·) h
    simpa [List.mem_filter, hp] using hmem
  · intro h
    refine eq_of_pairwise_of_mem_iff ((pairwise_places ha).filter _)
      ((pairwise_places hb).filter _) fun p => ?_
    rw [List.mem_filter, List.mem_filter]
    exact and_congr_left (h p)

/-! ## Signs of zeros -/

/-- What stands at a place, with negative zero replaced by zero. -/
def Label.unsignedZero : Label → Label
  | .num n => .num n.unsignedZero
  | label => label

/-- A place, with negative zero there replaced by zero. -/
def Place.unsignedZero (p : Place) : Place :=
  ⟨p.way, p.label.unsignedZero⟩

theorem length_unsignedZerosItems : ∀ xs : List Json, (unsignedZerosItems xs).length = xs.length
  | [] => rfl
  | _ :: xs => congrArg Nat.succ (length_unsignedZerosItems xs)

theorem map_unsignedZero_map_under (before : List Step) (ps : List Place) :
    (ps.map (Place.under before)).map Place.unsignedZero =
      (ps.map Place.unsignedZero).map (Place.under before) := by
  rw [List.map_map, List.map_map]
  rfl

mutual

/-- Zeros lose their signs place by place. -/
theorem places_unsignedZeros : ∀ v : Json, v.unsignedZeros.places = v.places.map Place.unsignedZero
  | .arr xs => by
    rw [unsignedZeros, places, places, length_unsignedZerosItems, placesItems_unsignedZeros]
    rfl
  | .obj fs => by
    rw [unsignedZeros, places, places, placesFields_unsignedZeros]
    rfl
  | .null => rfl
  | .bool _ => rfl
  | .num _ => rfl
  | .str _ => rfl
  | .unreadable => rfl

theorem placesItems_unsignedZeros : ∀ (index : Nat) (xs : List Json),
    placesItems index (unsignedZerosItems xs) = (placesItems index xs).map Place.unsignedZero
  | _, [] => rfl
  | index, x :: xs => by
    rw [unsignedZerosItems, placesItems, placesItems, List.map_append, map_unsignedZero_map_under,
      places_unsignedZeros x, placesItems_unsignedZeros (index + 1) xs]

theorem placesFields_unsignedZeros : ∀ fs : List (String × Json),
    placesFields (unsignedZerosFields fs) = (placesFields fs).map Place.unsignedZero
  | [] => rfl
  | (_, v) :: fs => by
    rw [unsignedZerosFields, placesFields, placesFields, List.map_append,
      map_unsignedZero_map_under, places_unsignedZeros v, placesFields_unsignedZeros fs]

end

theorem map_fst_unsignedZerosFields : ∀ fs : List (String × Json),
    (unsignedZerosFields fs).map Prod.fst = fs.map Prod.fst
  | [] => rfl
  | (k, _) :: fs => congrArg (k :: ·) (map_fst_unsignedZerosFields fs)

mutual

/-- The order of names does not depend on zeros. -/
theorem Ordered.unsignedZeros : ∀ {v : Json}, v.Ordered → v.unsignedZeros.Ordered
  | .arr _, h => OrderedItems.unsignedZeros h
  | .obj fs, h => by
    refine ⟨?_, OrderedFields.unsignedZeros h.2⟩
    rw [map_fst_unsignedZerosFields]
    exact h.1
  | .null, _ => trivial
  | .bool _, _ => trivial
  | .num _, _ => trivial
  | .str _, _ => trivial
  | .unreadable, _ => trivial

theorem OrderedItems.unsignedZeros : ∀ {xs : List Json},
    OrderedItems xs → OrderedItems (unsignedZerosItems xs)
  | [], _ => trivial
  | _ :: _, h => ⟨Ordered.unsignedZeros h.1, OrderedItems.unsignedZeros h.2⟩

theorem OrderedFields.unsignedZeros : ∀ {fs : List (String × Json)},
    OrderedFields fs → OrderedFields (unsignedZerosFields fs)
  | [], _ => trivial
  | (_, _) :: _, h => ⟨Ordered.unsignedZeros h.1, OrderedFields.unsignedZeros h.2⟩

end

end Json

end Handover

import Handover.Proofs.Json.Places
import Handover.Proofs.Json.TextSize

/-!
# Free values come back

The fuel of the reader of free values is never used up, so the reader does what it says : it puts
for each text its value, read in the same way (`opens?_eq`).

A free value is in its settled form, nothing in it is unreadable, and no object in it is one for a
text (`IsFree`). So it is read as itself, unless an object in it begins with the reserved name,
and then it is not read at all (`IsFree.free?_eq`). Such an object comes from one that had another
name first, and which is not the least. Where there is none, the value can be read as often as one
likes (`Literal.free?_eq`), and every value that was read twice is of this kind
(`IsFree.literal_of_free?`).
-/

namespace Handover.Json

/-! ## Texts in texts -/

section Congruence

variable {inner inner' : String → Option Json}

mutual

/-- Only the texts of the tree are looked into. -/
theorem opened?_congr : ∀ {v : Json}, (∀ text : String, text.length ≤ textSize v →
    inner text = inner' text) → opened? inner v = opened? inner' v
  | .arr xs, h => by rw [opened?, opened?, openedItems?_congr h]
  | .obj fs, h => by
    have htext : (onlyText? fs).bind inner = (onlyText? fs).bind inner' := by
      unfold onlyText?
      split
      · next text => exact h text (by simp [textSize, textSizeFields])
      · rfl
    rw [opened?, opened?, htext, openedFields?_congr h]
  | .null, _ | .bool _, _ | .num _, _ | .str _, _ | .unreadable, _ => rfl

theorem openedItems?_congr : ∀ {xs : List Json}, (∀ text : String,
    text.length ≤ textSizeItems xs → inner text = inner' text) →
      openedItems? inner xs = openedItems? inner' xs
  | [], _ => rfl
  | x :: xs, h => by
    rw [openedItems?, openedItems?,
      opened?_congr fun text htext => h text (Nat.le_trans htext (Nat.le_add_right _ _)),
      openedItems?_congr fun text htext => h text (Nat.le_trans htext (Nat.le_add_left _ _))]

theorem openedFields?_congr : ∀ {fs : List (String × Json)}, (∀ text : String,
    text.length ≤ textSizeFields fs → inner text = inner' text) →
      openedFields? inner fs = openedFields? inner' fs
  | [], _ => rfl
  | (k, v) :: fs, h => by
    rw [openedFields?, openedFields?,
      opened?_congr fun text htext => h text (Nat.le_trans htext (Nat.le_add_right _ _)),
      openedFields?_congr fun text htext => h text (Nat.le_trans htext (Nat.le_add_left _ _))]

end

end Congruence

/-- More fuel than there are characters in the texts changes nothing. -/
theorem openedWithin?_eq : ∀ {n m : Nat} {v : Json}, textSize v < n → n ≤ m →
    openedWithin? m v = openedWithin? n v
  | n + 1, m + 1, v, hv, hm => by
    refine opened?_congr fun text htext => ?_
    cases hread : read text with
    | none => rfl
    | some w =>
      have hw := textSize_lt_of_read hread
      exact openedWithin?_eq (n := n) (m := m) (v := w) (by omega) (Nat.le_of_succ_le_succ hm)

/-- The tree with the values in its texts, however many there are in one another. -/
def opens? (v : Json) : Option Json :=
  openedWithin? (textSize v + 1) v

/-- The reader puts for each text its value, read in the same way. -/
theorem opens?_eq (v : Json) : opens? v = opened? (fun text => (read text).bind opens?) v := by
  refine opened?_congr fun text htext => ?_
  cases hread : read text with
  | none => rfl
  | some w =>
    have hw := textSize_lt_of_read hread
    exact openedWithin?_eq (n := textSize w + 1) (m := textSize v) (v := w) (by omega) (by omega)

/-! ## Objects for texts -/

mutual

/-- Whether an object in the tree begins with the reserved name. -/
def hasReserved : Json → Bool
  | .arr xs => hasReservedItems xs
  | .obj fs => reserved fs || hasReservedFields fs
  | _ => false

/-- Whether an object in the items begins with the reserved name. -/
def hasReservedItems : List Json → Bool
  | [] => false
  | x :: xs => hasReserved x || hasReservedItems xs

/-- Whether an object in the fields begins with the reserved name. -/
def hasReservedFields : List (String × Json) → Bool
  | [] => false
  | (_, v) :: fs => hasReserved v || hasReservedFields fs

end

mutual

/-- Nothing in the tree is unreadable, and no object in it is one for a text. -/
def Closed : Json → Prop
  | .arr xs => ClosedItems xs
  | .obj fs => (reserved fs = true → onlyText? fs = none) ∧ ClosedFields fs
  | .unreadable => False
  | _ => True

/-- Every item is closed. -/
def ClosedItems : List Json → Prop
  | [] => True
  | x :: xs => Closed x ∧ ClosedItems xs

/-- The value of every field is closed. -/
def ClosedFields : List (String × Json) → Prop
  | [] => True
  | (_, v) :: fs => Closed v ∧ ClosedFields fs

end

/-- Fields are closed if their values are. -/
theorem closedFields_iff {fs : List (String × Json)} : ClosedFields fs ↔ ∀ f ∈ fs, Closed f.2 := by
  induction fs with
  | nil => simp [ClosedFields]
  | cons f fs ih => simp [ClosedFields, ih]

mutual

/-- A closed tree has nothing unreadable in it. -/
theorem Closed.readable : ∀ {v : Json}, v.Closed → v.readable = true
  | .arr _, h => ClosedItems.readable h
  | .obj _, h => ClosedFields.readable h.2
  | .null, _ | .bool _, _ | .num _, _ | .str _, _ => rfl

theorem ClosedItems.readable : ∀ {xs : List Json}, ClosedItems xs → readableItems xs = true
  | [], _ => rfl
  | _ :: _, h => by rw [readableItems, h.1.readable, h.2.readable, Bool.and_self]

theorem ClosedFields.readable : ∀ {fs : List (String × Json)}, ClosedFields fs →
    readableFields fs = true
  | [], _ => rfl
  | (_, _) :: _, h => by rw [readableFields, h.1.readable, h.2.readable, Bool.and_self]

end

/-- Nothing in the tree is unreadable, and no object in it begins with the reserved name. -/
structure Opened (v : Json) : Prop where
  readable : v.readable = true
  unreserved : v.hasReserved = false

section Opened

variable {inner : String → Option Json}

mutual

/-- In a closed tree there is no text to look into, and an object that begins with the reserved
name is in the way. -/
theorem Closed.opened?_eq : ∀ {v : Json}, v.Closed →
    opened? inner v = if v.hasReserved then none else some v
  | .arr xs, h => by
    rw [opened?, ClosedItems.openedItems?_eq h, hasReserved]
    cases hasReservedItems xs <;> rfl
  | .obj fs, h => by
    rw [opened?, ClosedFields.openedFields?_eq h.2, hasReserved]
    cases hr : reserved fs with
    | true => simp [h.1 hr]
    | false => cases hasReservedFields fs <;> rfl
  | .null, _ | .bool _, _ | .num _, _ | .str _, _ => rfl

theorem ClosedItems.openedItems?_eq : ∀ {xs : List Json}, ClosedItems xs →
    openedItems? inner xs = if hasReservedItems xs then none else some xs
  | [], _ => rfl
  | x :: xs, h => by
    rw [openedItems?, h.1.opened?_eq, h.2.openedItems?_eq, hasReservedItems]
    cases hasReserved x <;> cases hasReservedItems xs <;> rfl

theorem ClosedFields.openedFields?_eq : ∀ {fs : List (String × Json)}, ClosedFields fs →
    openedFields? inner fs = if hasReservedFields fs then none else some fs
  | [], _ => rfl
  | (k, v) :: fs, h => by
    rw [openedFields?, h.1.opened?_eq, h.2.openedFields?_eq, hasReservedFields]
    cases hasReserved v <;> cases hasReservedFields fs <;> rfl

end

mutual

/-- Where the values in texts are opened, the tree is. -/
theorem opened_of_opened? (hinner : ∀ text w, inner text = some w → w.Opened) :
    ∀ {v u : Json}, opened? inner v = some u → u.Opened
  | .arr xs, u, h => by
    obtain ⟨ys, hys, rfl⟩ := Option.map_eq_some_iff.1 h
    obtain ⟨hreadable, hunreserved⟩ := opened_of_openedItems? hinner hys
    exact ⟨hreadable, hunreserved⟩
  | .obj fs, u, h => by
    rw [opened?] at h
    split at h
    · obtain ⟨text, -, hu⟩ := Option.bind_eq_some_iff.1 h
      exact hinner text u hu
    · next hfirst =>
      obtain ⟨gs, hgs, rfl⟩ := Option.map_eq_some_iff.1 h
      obtain ⟨hreadable, hunreserved, hsame⟩ := opened_of_openedFields? hinner hgs
      refine ⟨hreadable, ?_⟩
      rw [hasReserved, hsame, hunreserved, Bool.or_false]
      simpa using hfirst
  | .null, u, h | .bool _, u, h | .num _, u, h | .str _, u, h => by
    obtain rfl := Option.some.inj h
    exact ⟨rfl, rfl⟩

theorem opened_of_openedItems? (hinner : ∀ text w, inner text = some w → w.Opened) :
    ∀ {xs ys : List Json}, openedItems? inner xs = some ys →
      readableItems ys = true ∧ hasReservedItems ys = false
  | [], ys, h => by
    obtain rfl := Option.some.inj h
    exact ⟨rfl, rfl⟩
  | x :: xs, ys, h => by
    obtain ⟨y, hy, h⟩ := Option.bind_eq_some_iff.1 h
    obtain ⟨zs, hzs, h⟩ := Option.bind_eq_some_iff.1 h
    obtain rfl := Option.some.inj h
    obtain ⟨hreadable, hunreserved⟩ := opened_of_openedItems? hinner hzs
    have hy := opened_of_opened? hinner hy
    exact ⟨by rw [readableItems, hy.readable, hreadable, Bool.and_self],
      by rw [hasReservedItems, hy.unreserved, hunreserved, Bool.or_self]⟩

theorem opened_of_openedFields? (hinner : ∀ text w, inner text = some w → w.Opened) :
    ∀ {fs gs : List (String × Json)}, openedFields? inner fs = some gs →
      readableFields gs = true ∧ hasReservedFields gs = false ∧ reserved gs = reserved fs
  | [], gs, h => by
    obtain rfl := Option.some.inj h
    exact ⟨rfl, rfl, rfl⟩
  | (k, v) :: fs, gs, h => by
    obtain ⟨w, hw, h⟩ := Option.bind_eq_some_iff.1 h
    obtain ⟨rest, hrest, h⟩ := Option.bind_eq_some_iff.1 h
    obtain rfl := Option.some.inj h
    obtain ⟨hreadable, hunreserved, -⟩ := opened_of_openedFields? hinner hrest
    have hw := opened_of_opened? hinner hw
    exact ⟨by rw [readableFields, hw.readable, hreadable, Bool.and_self],
      by rw [hasReservedFields, hw.unreserved, hunreserved, Bool.or_self], rfl⟩

end

end Opened

/-- What the reader comes to has no object for a text left, with any fuel. -/
theorem opened_of_openedWithin? : ∀ {n : Nat} {v u : Json}, openedWithin? n v = some u → u.Opened
  | n + 1, v, u, h => by
    refine opened_of_opened? (fun text w hw => ?_) h
    obtain ⟨_, -, hw⟩ := Option.bind_eq_some_iff.1 hw
    exact opened_of_openedWithin? hw

/-! ## The settled form -/

/-- A field that is put into its place takes no name away. -/
theorem mem_map_fst_putField {k name : String} {v : Json} : ∀ {fs : List (String × Json)},
    name = k ∨ name ∈ fs.map Prod.fst → name ∈ (putField k v fs).map Prod.fst
  | [], h => by simpa [putField] using h
  | (l, w) :: fs, h => by
    rw [putField]
    split_ifs with heq hlt
    · subst heq
      simpa using h
    · simpa using h
    · rcases h with rfl | h
      · exact List.mem_cons_of_mem _ (mem_map_fst_putField (Or.inl rfl))
      · rcases List.mem_cons.1 h with rfl | h
        · exact List.mem_cons_self
        · exact List.mem_cons_of_mem _ (mem_map_fst_putField (Or.inr h))

/-- Fields that are put in their places lose no name. -/
theorem mem_map_fst_foldl_putField {name : String} : ∀ {fs acc : List (String × Json)},
    name ∈ acc.map Prod.fst ∨ name ∈ fs.map Prod.fst →
      name ∈ (fs.foldl (fun acc f => putField f.1 f.2 acc) acc).map Prod.fst
  | [], acc, h => by simpa using h
  | f :: fs, acc, h => by
    rw [List.foldl_cons]
    refine mem_map_fst_foldl_putField ?_
    rcases h with h | h
    · exact Or.inl (mem_map_fst_putField (Or.inr h))
    · rcases List.mem_cons.1 h with h | h
      · exact Or.inl (mem_map_fst_putField (Or.inl h))
      · exact Or.inr h

/-- Fields that do not begin with the reserved name are not settled to the one for a text. -/
theorem onlyText?_settledFields {fs : List (String × Json)} (h : reserved fs = false)
    (hfirst : reserved (settledFields fs) = true) : onlyText? (settledFields fs) = none := by
  cases fs with
  | nil => cases hfirst
  | cons f fs =>
    have hname : f.1 ∈ (settledFields (f :: fs)).map Prod.fst :=
      mem_map_fst_foldl_putField (Or.inr List.mem_cons_self)
    generalize settledFields (f :: fs) = gs at hname hfirst
    unfold onlyText?
    split
    · next name text =>
      obtain rfl : f.1 = name := by simpa using hname
      simp [reserved] at h hfirst
      exact absurd hfirst h
    · rfl

mutual

/-- In its settled form an opened tree is closed. -/
theorem Opened.closed_settled : ∀ {v : Json}, v.Opened → v.settled.Closed
  | .arr xs, h => closedItems_settledAll h.readable h.unreserved
  | .obj fs, h => by
    obtain ⟨hfirst, hfields⟩ := Bool.or_eq_false_iff.1 h.unreserved
    have hnames : reserved (settledEach fs) = false := by
      rw [← hfirst]
      rcases fs with _ | ⟨⟨k, v⟩, fs⟩ <;> rfl
    have hvalues := closedFields_iff.1 (closedFields_settledEach h.readable hfields)
    refine ⟨onlyText?_settledFields hnames, closedFields_iff.2 ?_⟩
    exact (foldl_putField (P := Closed) (settledEach fs) [] (by simp) (by simp) hvalues).2
  | .null, _ | .bool _, _ | .num _, _ | .str _, _ => trivial
  | .unreadable, h => nomatch h.readable

theorem closedItems_settledAll : ∀ {xs : List Json}, readableItems xs = true →
    hasReservedItems xs = false → ClosedItems (settledAll xs)
  | [], _, _ => trivial
  | x :: xs, hr, hn => by
    obtain ⟨hx, hxs⟩ := Bool.and_eq_true_iff.1 hr
    obtain ⟨hx', hxs'⟩ := Bool.or_eq_false_iff.1 hn
    exact ⟨Opened.closed_settled ⟨hx, hx'⟩, closedItems_settledAll hxs hxs'⟩

theorem closedFields_settledEach : ∀ {fs : List (String × Json)}, readableFields fs = true →
    hasReservedFields fs = false → ClosedFields (settledEach fs)
  | [], _, _ => trivial
  | (k, v) :: fs, hr, hn => by
    obtain ⟨hv, hfs⟩ := Bool.and_eq_true_iff.1 hr
    obtain ⟨hv', hfs'⟩ := Bool.or_eq_false_iff.1 hn
    exact ⟨Opened.closed_settled ⟨hv, hv'⟩, closedFields_settledEach hfs hfs'⟩

end

/-- A field whose name comes after all others is put at the end. -/
theorem putField_of_lt {k : String} {v : Json} : ∀ {fs : List (String × Json)},
    (∀ f ∈ fs, f.1 < k) → putField k v fs = fs ++ [(k, v)]
  | [], _ => rfl
  | (l, w) :: fs, h => by
    have hl : l < k := h (l, w) List.mem_cons_self
    have hne : k ≠ l := fun he => String.lt_irrefl k (he ▸ hl)
    rw [putField, if_neg hne, if_neg (String.lt_asymm hl),
      putField_of_lt fun f hf => h f (List.mem_cons_of_mem _ hf), List.cons_append]

/-- Fields whose names go up are in their places. -/
theorem foldl_putField_of_pairwise : ∀ {fs acc : List (String × Json)},
    ((acc ++ fs).map Prod.fst).Pairwise (· < ·) →
      fs.foldl (fun acc f => putField f.1 f.2 acc) acc = acc ++ fs
  | [], acc, _ => by simp
  | f :: fs, acc, h => by
    have hlast : ∀ g ∈ acc, g.1 < f.1 := by
      rw [List.map_append, List.pairwise_append] at h
      exact fun g hg => h.2.2 g.1 (List.mem_map_of_mem hg) f.1 (by simp)
    rw [List.foldl_cons, putField_of_lt hlast, foldl_putField_of_pairwise (by simpa using h)]
    simp

mutual

/-- An ordered tree is in its settled form. -/
theorem Ordered.settled_eq : ∀ {v : Json}, v.Ordered → v.settled = v
  | .arr _, h => congrArg Json.arr (OrderedItems.settledAll_eq h)
  | .obj fs, h => by
    rw [settled, OrderedFields.settledEach_eq h.2, settledFields,
      foldl_putField_of_pairwise (by simpa using h.1), List.nil_append]
  | .null, _ | .bool _, _ | .num _, _ | .str _, _ | .unreadable, _ => rfl

theorem OrderedItems.settledAll_eq : ∀ {xs : List Json}, OrderedItems xs → settledAll xs = xs
  | [], _ => rfl
  | _ :: _, h => by rw [settledAll, h.1.settled_eq, h.2.settledAll_eq]

theorem OrderedFields.settledEach_eq : ∀ {fs : List (String × Json)}, OrderedFields fs →
    settledEach fs = fs
  | [], _ => rfl
  | (_, _) :: _, h => by rw [settledEach, h.1.settled_eq, h.2.settledEach_eq]

end

/-! ## Free values -/

/-- A tree that a free value can be. -/
structure IsFree (v : Json) : Prop where
  closed : v.Closed
  ordered : v.Ordered

/-- What is read as a free value is one. -/
theorem isFree_of_free? {v w : Json} (h : free? v = some w) : w.IsFree := by
  obtain ⟨u, hu, rfl⟩ := Option.map_eq_some_iff.1 h
  exact ⟨(opened_of_openedWithin? hu).closed_settled, ordered_settled u⟩

/-- A free value is read as itself, unless an object in it begins with the reserved name. -/
theorem IsFree.free?_eq {v : Json} (h : v.IsFree) :
    free? v = if v.hasReserved then none else some v := by
  rw [free?, openedWithin?, h.closed.opened?_eq]
  cases v.hasReserved with
  | true => rfl
  | false => exact congrArg some h.ordered.settled_eq

/-- The items of a free value are free. -/
theorem IsFree.item : ∀ {xs : List Json}, (arr xs).IsFree → ∀ x ∈ xs, x.IsFree
  | y :: ys, ⟨⟨hy, hys⟩, ⟨hy', hys'⟩⟩, x, hx => by
    have hrest : (arr ys).IsFree := ⟨hys, hys'⟩
    rcases List.mem_cons.1 hx with rfl | hx
    · exact ⟨hy, hy'⟩
    · exact hrest.item x hx

/-- The values of the fields of a free value are free. -/
theorem IsFree.field {fs : List (String × Json)} (h : (obj fs).IsFree) : ∀ f ∈ fs, f.2.IsFree :=
  fun f hf => ⟨closedFields_iff.1 h.closed.2 f hf, orderedFields_iff.1 h.ordered.2 f hf⟩

/-! ## Values that are read as themselves -/

/-- A free value in which no object begins with the reserved name. -/
structure Literal (v : Json) : Prop extends v.IsFree where
  unreserved : v.hasReserved = false

/-- Such a value is read as itself, however often. -/
theorem Literal.free?_eq {v : Json} (h : v.Literal) : free? v = some v := by
  rw [h.toIsFree.free?_eq, h.unreserved]
  rfl

/-- What was read from a free value is this value, and can be read again. -/
theorem IsFree.literal_of_free? {v w : Json} (h : v.IsFree) (hw : free? v = some w) :
    w.Literal := by
  rw [h.free?_eq] at hw
  split_ifs at hw with hr
  obtain rfl := Option.some.inj hw
  exact ⟨h, by simpa using hr⟩

@[simp] theorem literal_null : Json.null.Literal := ⟨⟨trivial, trivial⟩, rfl⟩

@[simp] theorem literal_bool (b : Bool) : (Json.bool b).Literal := ⟨⟨trivial, trivial⟩, rfl⟩

@[simp] theorem literal_str (s : String) : (Json.str s).Literal := ⟨⟨trivial, trivial⟩, rfl⟩

@[simp] theorem literal_ofNat (n : Nat) : (ofNat n).Literal := ⟨⟨trivial, trivial⟩, rfl⟩

theorem literal_ofOption {α : Type} {write : α → Json} {o : Option α}
    (h : ∀ a ∈ o, (write a).Literal) : (ofOption write o).Literal := by
  cases o with
  | none => exact literal_null
  | some a => exact h a rfl

/-- A list is read as itself if its items are. -/
theorem literal_arr : ∀ {xs : List Json}, (∀ x ∈ xs, x.Literal) → (arr xs).Literal
  | [], _ => ⟨⟨trivial, trivial⟩, rfl⟩
  | x :: xs, h => by
    obtain ⟨hx, hxs⟩ := List.forall_mem_cons.1 h
    have hrest := literal_arr hxs
    exact ⟨⟨⟨hx.closed, hrest.closed⟩, ⟨hx.ordered, hrest.ordered⟩⟩,
      Bool.or_eq_false_iff.2 ⟨hx.unreserved, hrest.unreserved⟩⟩

theorem hasReservedFields_eq_false : ∀ {fs : List (String × Json)}, (∀ f ∈ fs, f.2.Literal) →
    hasReservedFields fs = false
  | [], _ => rfl
  | f :: fs, h => by
    obtain ⟨hf, hfs⟩ := List.forall_mem_cons.1 h
    exact Bool.or_eq_false_iff.2 ⟨hf.unreserved, hasReservedFields_eq_false hfs⟩

/-- An object with names that go up, the first of them not the reserved one, is read as itself if
its values are. -/
theorem literal_obj {fs : List (String × Json)} (hfirst : reserved fs = false)
    (hnames : (fs.map Prod.fst).Pairwise (· < ·)) (h : ∀ f ∈ fs, f.2.Literal) :
    (obj fs).Literal where
  closed := ⟨fun hr => absurd hr (by simp [hfirst]), closedFields_iff.2 fun f hf => (h f hf).closed⟩
  ordered := ⟨hnames, orderedFields_iff.2 fun f hf => (h f hf).ordered⟩
  unreserved := Bool.or_eq_false_iff.2 ⟨hfirst, hasReservedFields_eq_false h⟩

/-- An object of one field is read as itself if its value is, and its name is not reserved. -/
theorem literal_obj_singleton {name : String} {v : Json} (hname : (name == textName) = false)
    (h : v.Literal) : (obj [(name, v)]).Literal :=
  literal_obj hname (List.pairwise_singleton _ _) (by simpa using h)

end Handover.Json

import Handover.Migration.Ignored
import Handover.Proofs.Json.Places
import Handover.Proofs.Text.Split

/-!
# Ignored fields are cut out and nothing else

The names on the way to a place are those of its fields, since the items of arrays do not count. A
path covers a field when the names on the way to it, its own included, end with the names of the
path, and it covers everything below that field (`Covers`). A tree without the fields of a path has
the places that the path does not cover, in their order (`Json.places_strip`), and there is only
one such tree. So stripping is done once for all, and the order of the paths does not matter
(`Json.strip_removes_exactly`).
-/

namespace Handover

open Json (Step Place)

/-! ## The names of a path -/

/-- The names of a path are the pieces between its dots that are not empty. -/
theorem exists_pieces (path : String) : ∃ pieces : List String, pieces ≠ [] ∧
    (∀ piece ∈ pieces, '.' ∉ piece.toList) ∧ ".".intercalate pieces = path ∧
    pathNames path = pieces.filter (· ≠ "") := by
  refine ⟨Text.split '.' path, ?_, fun piece hpiece => ?_, ?_, ?_⟩
  · simp [Text.split, Text.splitChars_ne_nil]
  · obtain ⟨cs, hcs, rfl⟩ := List.mem_map.1 hpiece
    rw [String.toList_ofList]
    exact Text.not_mem_of_mem_splitChars hcs
  · have hpieces : (Text.split '.' path).map String.toList = Text.splitChars '.' path.toList := by
      simp [Text.split, Function.comp_def]
    rw [← String.toList_inj, String.toList_intercalate, hpieces]
    exact Text.intercalate_splitChars '.' path.toList
  · exact List.filter_congr fun piece _ => by
      rw [decide_not]
      rfl

/-! ## What a path covers -/

/-- The name of a field. -/
def Json.Step.name? : Step → Option String
  | .field name => some name
  | .item _ => none

/-- The names on a way, from the root on. -/
def namesOn (way : List Step) : List String :=
  way.filterMap Json.Step.name?

/-- The way leads to a field, or through one, where the names on the way to that field end with
these names. -/
def Covers (names : List String) (way : List Step) : Prop :=
  names ≠ [] ∧ ∃ above name below, way = above ++ .field name :: below ∧
    names <:+ namesOn (above ++ [.field name])

/-- Whether names from the inside out start the names on a way from `trail` on, at one of its
fields. -/
def coversFrom (names trail : List String) : List Step → Bool
  | [] => false
  | .item _ :: way => coversFrom names trail way
  | .field name :: way =>
    names.isPrefixOf (name :: trail) || coversFrom names (name :: trail) way

/-- A way is covered from a trail on if the names lead up to a field on it. -/
theorem coversFrom_iff {names : List String} : ∀ {way : List Step} {trail : List String},
    coversFrom names trail way = true ↔ ∃ above name below, way = above ++ .field name :: below ∧
      names <+: (namesOn (above ++ [.field name])).reverse ++ trail
  | [], trail => by simp [coversFrom]
  | .item i :: way, trail => by
    rw [coversFrom, coversFrom_iff]
    constructor
    · rintro ⟨above, name, below, rfl, h⟩
      exact ⟨.item i :: above, name, below, rfl, h⟩
    · rintro ⟨above, name, below, hway, h⟩
      cases above with
      | nil => cases hway
      | cons step above =>
        obtain ⟨rfl, rfl⟩ := List.cons.inj hway
        exact ⟨above, name, below, rfl, h⟩
  | .field k :: way, trail => by
    rw [coversFrom, Bool.or_eq_true, List.isPrefixOf_iff_prefix, coversFrom_iff]
    have hunder : ∀ above name, (namesOn (.field k :: above ++ [.field name])).reverse ++ trail =
        (namesOn (above ++ [.field name])).reverse ++ k :: trail := by
      intro above name
      simp [namesOn, Json.Step.name?]
    constructor
    · rintro (h | ⟨above, name, below, rfl, h⟩)
      · exact ⟨[], k, way, rfl, h⟩
      · exact ⟨.field k :: above, name, below, rfl, hunder above name ▸ h⟩
    · rintro ⟨above, name, below, hway, h⟩
      cases above with
      | nil =>
        cases hway
        exact Or.inl h
      | cons step above =>
        obtain ⟨rfl, rfl⟩ := List.cons.inj hway
        exact Or.inr ⟨above, name, below, rfl, hunder above name ▸ h⟩

theorem covers_iff {names : List String} {way : List Step} :
    Covers names way ↔ names ≠ [] ∧ coversFrom names.reverse [] way = true := by
  simp only [Covers, coversFrom_iff, List.append_nil, List.reverse_prefix]

instance (names : List String) (way : List Step) : Decidable (Covers names way) :=
  decidable_of_iff _ covers_iff.symm

/-- No path covers the way. -/
def Uncovered (paths : List String) (way : List Step) : Prop :=
  ∀ path ∈ paths, ¬Covers (pathNames path) way

instance (paths : List String) (way : List Step) : Decidable (Uncovered paths way) :=
  inferInstanceAs (Decidable (∀ path ∈ paths, ¬Covers (pathNames path) way))

/-! ## Places of a stripped tree -/

namespace Json

theorem length_stripItems (name : String) (above trail : List String) (xs : List Json) :
    (stripItems name above trail xs).length = xs.length := by
  induction xs with
  | nil => rfl
  | cons x xs ih => rw [stripItems, List.length_cons, List.length_cons, ih]

/-- Places below an item are covered as the places of the item. -/
theorem filter_map_under_item (names trail : List String) (index : Nat) (ps : List Place) :
    (ps.map (Place.under [.item index])).filter (fun p => !coversFrom names trail p.way) =
      (ps.filter fun p => !coversFrom names trail p.way).map (Place.under [.item index]) := by
  rw [List.filter_map]
  rfl

/-- Places below a field are covered with it, or as the places of its value. -/
theorem filter_map_under_field (names trail : List String) (k : String) (ps : List Place) :
    (ps.map (Place.under [.field k])).filter (fun p => !coversFrom names trail p.way) =
      if names.isPrefixOf (k :: trail) then []
      else (ps.filter fun p => !coversFrom names (k :: trail) p.way).map
        (Place.under [.field k]) := by
  rw [List.filter_map]
  split_ifs with h <;> simp [Function.comp_def, Place.under, coversFrom, h]

mutual

/-- A tree without the fields of a path keeps the places that the path does not cover. -/
theorem places_stripAt (name : String) (above : List String) : ∀ (trail : List String) (v : Json),
    (stripAt name above trail v).places =
      v.places.filter fun p => !coversFrom (name :: above) trail p.way
  | trail, .arr xs => by
    have hroot : coversFrom (name :: above) trail [] = false := rfl
    simp only [stripAt, places, length_stripItems, List.filter_cons, hroot, Bool.not_false,
      if_true, places_stripItems name above trail 0 xs]
  | trail, .obj fs => by
    have hroot : coversFrom (name :: above) trail [] = false := rfl
    simp only [stripAt, places, List.filter_cons, hroot, Bool.not_false, if_true,
      places_stripFields name above trail fs]
  | _, .null => rfl
  | _, .bool _ => rfl
  | _, .num _ => rfl
  | _, .str _ => rfl
  | _, .unreadable => rfl

theorem places_stripItems (name : String) (above : List String) : ∀ (trail : List String)
    (index : Nat) (xs : List Json), placesItems index (stripItems name above trail xs) =
      (placesItems index xs).filter fun p => !coversFrom (name :: above) trail p.way
  | _, _, [] => rfl
  | trail, index, x :: xs => by
    rw [stripItems, placesItems, placesItems, List.filter_append, filter_map_under_item,
      places_stripAt name above trail x, places_stripItems name above trail (index + 1) xs]

theorem places_stripFields (name : String) (above : List String) : ∀ (trail : List String)
    (fs : List (String × Json)), placesFields (stripFields name above trail fs) =
      (placesFields fs).filter fun p => !coversFrom (name :: above) trail p.way
  | _, [] => rfl
  | trail, (k, v) :: fs => by
    have hfield : (decide (k = name) && above.isPrefixOf trail) =
        (name :: above).isPrefixOf (k :: trail) :=
      congrArg (· && above.isPrefixOf trail) (decide_eq_decide.2 eq_comm)
    rw [stripFields, hfield, placesFields, List.filter_append, filter_map_under_field,
      ← places_stripFields name above trail fs]
    split_ifs with h
    · rw [List.nil_append]
    · rw [placesFields, places_stripAt name above (k :: trail) v]

end

/-- A tree without the fields of a path keeps the places that the path does not cover. -/
theorem places_strip (v : Json) (path : String) :
    (v.strip path).places = v.places.filter fun p => ¬Covers (pathNames path) p.way := by
  have hcovers : ∀ p : Place, decide (¬Covers (pathNames path) p.way) =
      !(decide (pathNames path ≠ []) && coversFrom (pathNames path).reverse [] p.way) := by
    intro p
    rw [decide_not, decide_eq_decide.2 covers_iff, Bool.decide_and, Bool.decide_eq_true]
  simp only [hcovers]
  cases hnames : (pathNames path).reverse with
  | nil =>
    have hnil : pathNames path = [] := List.reverse_eq_nil_iff.1 hnames
    simp [strip, hnil]
  | cons name above =>
    have hne : pathNames path ≠ [] := fun h => by simp [h] at hnames
    simp only [strip, hnames, places_stripAt, hne, ne_eq, not_false_eq_true, decide_true,
      Bool.true_and]

/-- Paths one after the other leave the places that none of them covers. -/
theorem places_stripAll : ∀ (paths : List String) (v : Json),
    (v.stripAll paths).places = v.places.filter fun p => Uncovered paths p.way
  | [], v => by
    have hall : ∀ p ∈ v.places, decide (Uncovered [] p.way) = true := by simp [Uncovered]
    rw [List.filter_eq_self.2 hall]
    rfl
  | path :: paths, v => by
    have hfirst : v.stripAll (path :: paths) = (v.strip path).stripAll paths := rfl
    rw [hfirst, places_stripAll paths, places_strip, List.filter_filter]
    refine List.filter_congr fun p _ => ?_
    rw [← Bool.decide_and]
    exact decide_eq_decide.2 (by rw [and_comm, Uncovered, Uncovered, List.forall_mem_cons])

/-- Which paths there are is all that matters. -/
theorem stripAll_congr {paths paths' : List String} (h : ∀ path, path ∈ paths ↔ path ∈ paths')
    (v : Json) : v.stripAll paths = v.stripAll paths' := by
  refine places_injective ?_
  rw [places_stripAll, places_stripAll]
  exact List.filter_congr fun p _ => decide_eq_decide.2 (by simp only [Uncovered, h])

/-- A path takes away the fields that it covers with all below them, and nothing else : what is left
is the only tree with the other places, in their order. A path of no names covers nothing. A
second time there is nothing to take away, and of two paths either may come first. -/
theorem strip_removes_exactly (v : Json) (path : String) :
    (∃ pieces : List String, pieces ≠ [] ∧ (∀ piece ∈ pieces, '.' ∉ piece.toList) ∧
      ".".intercalate pieces = path ∧ pathNames path = pieces.filter (· ≠ "")) ∧
    (pathNames path = [] → v.strip path = v) ∧
    (∀ u : Json, u = v.strip path ↔
      u.places = v.places.filter fun p => ¬Covers (pathNames path) p.way) ∧
    (v.strip path).strip path = v.strip path ∧
    ∀ path' : String, (v.strip path).strip path' = (v.strip path').strip path := by
  refine ⟨exists_pieces path, fun hnil => ?_, fun u => ?_, ?_, fun path' => ?_⟩
  · simp [strip, hnil]
  · rw [← places_strip, places_injective.eq_iff]
  · have htwice : ∀ p, p ∈ [path, path] ↔ p ∈ [path] := by simp
    exact stripAll_congr htwice v
  · have hswap : ∀ p, p ∈ [path, path'] ↔ p ∈ [path', path] := by simp [or_comm]
    exact stripAll_congr hswap v

/-- Arrays do not count on the way, and what is called the same elsewhere stays. -/
example : (Json.obj [("a", .arr [.obj [("b", .null), ("c", .null)]]), ("b", .null)]).strip "a.b" =
    .obj [("a", .arr [.obj [("c", .null)]]), ("b", .null)] := by decide

/-- A path of dots takes nothing away. -/
theorem strip_dots_removes_nothing : pathNames ".." = [] ∧
    (Json.obj [("", .arr [.obj [("a", .null)]])]).strip ".." =
      .obj [("", .arr [.obj [("a", .null)]])] := by
  have hnames : pathNames ".." = [] := by decide
  exact ⟨hnames, (strip_removes_exactly _ "..").2.1 hnames⟩

end Json

end Handover

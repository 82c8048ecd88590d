import Handover.Proofs.Text.Split
import Handover.Text.Path

/-!
# Names in paths

A name that is neither empty nor dots and holds no slash stands for itself in a path
(`Path.Ordinary`). Below any path it is the last name (`Path.exists_names_join`), and what comes
before it is the names of that path, but for an empty one at the end.
-/

namespace Handover

namespace Path

/-- A name that stands for itself in a path. -/
structure Ordinary (name : String) : Prop where
  ne_empty : name ≠ ""
  ne_dot : name ≠ "."
  ne_dots : name ≠ ".."
  no_slash : '/' ∉ name.toList

variable {name : String}

theorem Ordinary.toList_ne_nil (h : Ordinary name) : name.toList ≠ [] :=
  fun hnil => h.ne_empty (String.toList_inj.1 hnil)

theorem Ordinary.not_isAbsolute (h : Ordinary name) : isAbsolute name = false := by
  rw [isAbsolute]
  obtain ⟨c, cs, hcs⟩ := List.exists_cons_of_ne_nil h.toList_ne_nil
  have hc : c ≠ '/' := fun hc => h.no_slash (by simp [hcs, hc])
  simp [hcs, hc]

/-- A single name is a path of that name. -/
theorem Ordinary.names (h : Ordinary name) : Path.names name = [name] := by
  rw [Path.names, Text.split, Text.splitChars_of_not_mem h.no_slash, List.map_singleton,
    String.ofList_toList]

/-- The names of a path with a slash inside. -/
theorem names_append_slash (front back : String) :
    names (front ++ "/" ++ back) = names front ++ names back := by
  have htext : (front ++ "/" ++ back).toList = front.toList ++ '/' :: back.toList := by
    simp [String.toList_append]
  rw [names, Text.split, htext, Text.splitChars_append_cons, List.map_append]
  rfl

/-- A path is empty, ends with a slash, or needs one before a name. -/
theorem join_cases (h : Ordinary name) (base : String) :
    base = "" ∧ join base name = name ∨
    (∃ front, base = front ++ "/" ∧ join base name = front ++ "/" ++ name) ∨
    base ≠ "" ∧ join base name = base ++ "/" ++ name := by
  rw [join, h.not_isAbsolute, Bool.false_or]
  by_cases hempty : base = ""
  · subst hempty
    exact Or.inl ⟨rfl, rfl⟩
  have hisEmpty : base.isEmpty = false := by simpa using hempty
  rw [hisEmpty, if_neg Bool.false_ne_true]
  by_cases hlast : base.toList.getLast? = some '/'
  · obtain ⟨cs, hcs⟩ := List.getLast?_eq_some_iff.1 hlast
    have hbase : base = String.ofList cs ++ "/" := by
      apply String.toList_inj.1
      simp [hcs, String.toList_append]
    refine Or.inr (Or.inl ⟨String.ofList cs, hbase, ?_⟩)
    rw [if_pos (by simpa using hlast), ← hbase]
  · exact Or.inr (Or.inr ⟨hempty, by rw [if_neg (by simpa using hlast)]⟩)

/-- A name below a path comes last, after the names of the path. -/
theorem exists_names_join (h : Ordinary name) (base : String) :
    ∃ front, names (join base name) = front ++ [name] ∧
      (names base = front ∨ names base = front ++ [""]) := by
  have hempty : names "" = [""] := by decide
  rcases join_cases h base with ⟨rfl, hjoin⟩ | ⟨front, rfl, hjoin⟩ | ⟨-, hjoin⟩
  · exact ⟨[], by rw [hjoin, h.names, List.nil_append], Or.inr hempty⟩
  · have hfront := names_append_slash front ""
    rw [String.append_empty, hempty] at hfront
    exact ⟨names front, by rw [hjoin, names_append_slash, h.names], Or.inr hfront⟩
  · exact ⟨names base, by rw [hjoin, names_append_slash, h.names], Or.inl rfl⟩

/-- A name below a path starts where the path does. -/
theorem isAbsolute_join (h : Ordinary name) (base : String) :
    isAbsolute (join base name) = isAbsolute base := by
  have hhead : ∀ {front : String} (back : String), front ≠ "" →
      isAbsolute (front ++ back) = isAbsolute front := by
    intro front back hne
    obtain ⟨c, cs, hcs⟩ := List.exists_cons_of_ne_nil
      (fun hnil => hne (String.toList_inj.1 hnil) : front.toList ≠ [])
    simp [isAbsolute, String.toList_append, hcs]
  rcases join_cases h base with ⟨rfl, hjoin⟩ | ⟨front, rfl, hjoin⟩ | ⟨hne, hjoin⟩
  · rw [hjoin, h.not_isAbsolute]
    rfl
  · have hne : front ++ "/" ≠ "" := fun hnil => by
      simpa [String.toList_append] using congrArg String.toList hnil
    rw [hjoin, hhead name hne]
  · rw [hjoin, String.append_assoc, hhead _ hne]

end Path

end Handover

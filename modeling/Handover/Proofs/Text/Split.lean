import Handover.Text.Split
import Mathlib.Data.List.Infix

/-!
# Pieces of a text

The pieces between the places of a character tell the text (`Text.intercalate_splitChars`). Texts
are put together at such a place as their lists of pieces are (`Text.splitChars_append_cons`).
So a text stands somewhere with the character before and after it exactly if its pieces stand
among those of the whole, neither at the start nor at the end (`Text.infix_iff_pieces_infix`).
-/

namespace Handover.Text

/-- A text is always split into some piece. -/
theorem splitChars_ne_nil (sep : Char) : ∀ cs : List Char, splitChars sep cs ≠ []
  | [] => by simp [splitChars]
  | c :: cs => by
    rw [splitChars]
    split
    · simp
    · split <;> simp

theorem splitChars_cons_of_ne {sep c : Char} (h : c ≠ sep) {cs piece : List Char}
    {pieces : List (List Char)} (hcs : splitChars sep cs = piece :: pieces) :
    splitChars sep (c :: cs) = (c :: piece) :: pieces := by
  rw [splitChars, hcs]
  exact if_neg h

theorem splitChars_cons_sep (sep : Char) (cs : List Char) :
    splitChars sep (sep :: cs) = [] :: splitChars sep cs := by
  obtain ⟨piece, pieces, h⟩ := List.exists_cons_of_ne_nil (splitChars_ne_nil sep cs)
  rw [splitChars, h]
  exact if_pos rfl

/-- A text without the character is one piece. -/
theorem splitChars_of_not_mem {sep : Char} : ∀ {cs : List Char}, sep ∉ cs →
    splitChars sep cs = [cs]
  | [], _ => rfl
  | c :: cs, h => by
    obtain ⟨hc, hcs⟩ : sep ≠ c ∧ sep ∉ cs := by simpa using h
    exact splitChars_cons_of_ne hc.symm (splitChars_of_not_mem hcs)

/-- Before a text, one without the character belongs to the first piece. -/
theorem splitChars_append_of_notMem {sep : Char} {ds piece : List Char}
    {pieces : List (List Char)} (hds : splitChars sep ds = piece :: pieces) :
    ∀ {cs : List Char}, sep ∉ cs → splitChars sep (cs ++ ds) = (cs ++ piece) :: pieces
  | [], _ => hds
  | c :: cs, h => by
    obtain ⟨hc, hcs⟩ : sep ≠ c ∧ sep ∉ cs := by simpa using h
    exact splitChars_cons_of_ne hc.symm (splitChars_append_of_notMem hds hcs)

/-- At a place of the character, the pieces before it and those after it come together. -/
theorem splitChars_append_cons (sep : Char) (ds : List Char) : ∀ cs : List Char,
    splitChars sep (cs ++ sep :: ds) = splitChars sep cs ++ splitChars sep ds
  | [] => splitChars_cons_sep sep ds
  | c :: cs => by
    have ih := splitChars_append_cons sep ds cs
    by_cases hc : c = sep
    · subst hc
      rw [List.cons_append, splitChars_cons_sep, splitChars_cons_sep, ih, List.cons_append]
    · obtain ⟨piece, pieces, h⟩ := List.exists_cons_of_ne_nil (splitChars_ne_nil sep cs)
      rw [h, List.cons_append] at ih
      rw [List.cons_append, splitChars_cons_of_ne hc ih, splitChars_cons_of_ne hc h,
        List.cons_append]

/-- Every other character is in one of the pieces. -/
theorem exists_mem_splitChars {sep c : Char} (hc : c ≠ sep) : ∀ {cs : List Char}, c ∈ cs →
    ∃ piece ∈ splitChars sep cs, c ∈ piece
  | d :: ds, h => by
    obtain ⟨piece, pieces, hds⟩ := List.exists_cons_of_ne_nil (splitChars_ne_nil sep ds)
    by_cases hd : d = sep
    · subst hd
      have hmem : c ∈ ds := by simpa [hc] using h
      obtain ⟨p, hp, hcp⟩ := exists_mem_splitChars hc hmem
      exact ⟨p, by rw [splitChars_cons_sep]; exact List.mem_cons_of_mem _ hp, hcp⟩
    · rw [splitChars_cons_of_ne hd hds]
      rcases List.mem_cons.1 h with rfl | hmem
      · exact ⟨_, List.mem_cons_self, List.mem_cons_self⟩
      · obtain ⟨p, hp, hcp⟩ := exists_mem_splitChars hc hmem
        rw [hds] at hp
        rcases List.mem_cons.1 hp with rfl | hp
        · exact ⟨_, List.mem_cons_self, List.mem_cons_of_mem _ hcp⟩
        · exact ⟨p, List.mem_cons_of_mem _ hp, hcp⟩

/-- The pieces between the places of a character do not hold it. -/
theorem not_mem_of_mem_splitChars {sep : Char} : ∀ {cs piece : List Char},
    piece ∈ splitChars sep cs → sep ∉ piece
  | [], piece, h => by
    rw [List.mem_singleton.1 h]
    exact List.not_mem_nil
  | c :: cs, piece, h => by
    obtain ⟨first, rest, hcs⟩ := List.exists_cons_of_ne_nil (splitChars_ne_nil sep cs)
    by_cases hc : c = sep
    · subst hc
      rw [splitChars_cons_sep] at h
      rcases List.mem_cons.1 h with rfl | h
      · exact List.not_mem_nil
      · exact not_mem_of_mem_splitChars h
    · rw [splitChars_cons_of_ne hc hcs] at h
      rcases List.mem_cons.1 h with rfl | h
      · have hfirst : sep ∉ first := not_mem_of_mem_splitChars (by rw [hcs]; simp)
        simp [hfirst, Ne.symm hc]
      · exact not_mem_of_mem_splitChars (by rw [hcs]; exact List.mem_cons_of_mem _ h)

/-- With the character between them, the pieces are the text. -/
theorem intercalate_splitChars (sep : Char) : ∀ cs : List Char,
    [sep].intercalate (splitChars sep cs) = cs
  | [] => rfl
  | c :: cs => by
    have ih := intercalate_splitChars sep cs
    obtain ⟨first, rest, hcs⟩ := List.exists_cons_of_ne_nil (splitChars_ne_nil sep cs)
    by_cases hc : c = sep
    · subst hc
      rw [splitChars_cons_sep, hcs, List.intercalate_cons_cons, ← hcs, ih]
      rfl
    · rw [splitChars_cons_of_ne hc hcs]
      rw [hcs] at ih
      cases rest with
      | nil => simpa using ih
      | cons second rest =>
        rw [List.intercalate_cons_cons] at ih ⊢
        simp [ih]

/-- Lists of pieces are put together as their texts are, with the character in between. -/
theorem intercalate_append (sep : Char) {as bs : List (List Char)} (ha : as ≠ []) (hb : bs ≠ []) :
    [sep].intercalate (as ++ bs) = [sep].intercalate as ++ sep :: [sep].intercalate bs := by
  induction as with
  | nil => exact absurd rfl ha
  | cons a as ih =>
    obtain ⟨b, bs, rfl⟩ := List.exists_cons_of_ne_nil hb
    cases as with
    | nil => simp
    | cons a' as =>
      have ih := ih (List.cons_ne_nil _ _)
      simp only [List.cons_append, List.intercalate_cons_cons] at ih ⊢
      simp [ih]

/-- A text with the character before and after it stands in another one if its pieces are there,
after a first and before a last piece. -/
theorem infix_iff_pieces_infix {sep : Char} {run cs first last : List Char}
    {middle : List (List Char)} (hcs : splitChars sep cs = first :: (middle ++ [last])) :
    sep :: (run ++ [sep]) <:+: cs ↔ splitChars sep run <:+: middle := by
  constructor
  · rintro ⟨before, after, rfl⟩
    have hsplit : splitChars sep (before ++ (sep :: (run ++ [sep])) ++ after) =
        splitChars sep before ++ (splitChars sep run ++ splitChars sep after) := by
      rw [← splitChars_append_cons, ← splitChars_append_cons]
      simp
    obtain ⟨b, bs, hb⟩ := List.exists_cons_of_ne_nil (splitChars_ne_nil sep before)
    have hafter := List.dropLast_append_getLast (splitChars_ne_nil sep after)
    rw [hcs, hb, ← hafter, List.cons_append, List.cons.injEq, ← List.append_assoc,
      ← List.append_assoc] at hsplit
    obtain ⟨-, hsplit⟩ := hsplit
    exact ⟨bs, (splitChars sep after).dropLast, by
      rw [List.append_assoc, (List.append_inj' hsplit rfl).1, List.append_assoc]⟩
  · rintro ⟨before, after, rfl⟩
    have hpieces : first :: (before ++ splitChars sep run ++ after ++ [last]) =
        (first :: before) ++ (splitChars sep run ++ (after ++ [last])) := by
      simp
    refine ⟨[sep].intercalate (first :: before), [sep].intercalate (after ++ [last]), ?_⟩
    rw [← intercalate_splitChars sep cs, hcs, hpieces,
      intercalate_append sep (List.cons_ne_nil _ _) (by simp),
      intercalate_append sep (splitChars_ne_nil sep run) (by simp), intercalate_splitChars]
    simp

end Handover.Text

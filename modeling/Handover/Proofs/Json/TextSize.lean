import Handover.Json.Free
import Mathlib.Algebra.GroupWithZero.Nat

/-!
# The texts of a tree that was read

What is read off a text has shorter texts in it, all together : a string needs its quotes, and
each of its characters one character or more (`textSize_lt_of_read`).
-/

namespace Handover.Json

/-! ## Strings -/

/-- The pieces of a string are fewer than the characters that were read. -/
theorem length_pieces (acc : List Piece) (cs : List Char) : ∀ {ps : List Piece} {rest : List Char},
    pieces acc cs = some (ps, rest) → ps.length + rest.length < acc.length + cs.length := by
  fun_induction pieces acc cs with
  | case1 acc rest =>
    intro ps rest' h
    obtain ⟨rfl, rfl⟩ := Prod.mk.inj (Option.some.inj h)
    simp
  | case2 | case4 | case7 =>
    rename_i ih
    intro ps rest' h
    have hlength := ih h
    simp only [List.length_cons] at hlength ⊢
    omega
  | _ => exact fun h => nomatch h

/-- Pieces are joined to no more characters than there are pieces. -/
theorem length_joined (acc : List Char) (ps : List Piece) : ∀ {cs : List Char},
    joined acc ps = some cs → cs.length ≤ acc.length + ps.length := by
  fun_induction joined acc ps with
  | case1 acc =>
    intro cs h
    obtain rfl := Option.some.inj h
    simp
  | case2 | case3 | case6 | case8 =>
    rename_i ih
    intro cs h
    have hlength := ih h
    simp only [List.length_cons] at hlength ⊢
    omega
  | _ => exact fun h => nomatch h

/-- A string is shorter than what is read for it, of which its quote is left out. -/
theorem length_stringBody {cs rest : List Char} {s : Option String}
    (h : stringBody cs = some (s, rest)) : (s.elim 0 String.length) + rest.length < cs.length := by
  obtain ⟨⟨ps, rest'⟩, hps, hs⟩ := Option.map_eq_some_iff.1 h
  obtain ⟨rfl, rfl⟩ := Prod.mk.inj hs
  have hpieces := length_pieces [] cs hps
  cases hj : joined [] ps with
  | none => simpa using Nat.lt_of_le_of_lt (Nat.le_add_left _ _) hpieces
  | some cs' =>
    have hjoined := length_joined [] ps hj
    simp only [List.length_nil, Nat.zero_add, Option.map_some, Option.elim_some,
      String.length_ofList] at hpieces hjoined ⊢
    omega

/-! ## Numbers -/

theorem length_digitRun {cs rest : List Char} {ds : List Nat} (h : digitRun cs = (ds, rest)) :
    rest.length ≤ cs.length := by
  obtain ⟨-, rfl⟩ := Prod.mk.inj h
  exact (List.dropWhile_sublist _).length_le

theorem length_fractionPart {cs rest : List Char} {f : Option (List Nat)}
    (h : fractionPart cs = some (f, rest)) : rest.length ≤ cs.length := by
  unfold fractionPart at h
  split at h
  · split at h
    · cases h
    · next hds =>
      obtain ⟨-, rfl⟩ := Prod.mk.inj (Option.some.inj h)
      exact Nat.le_succ_of_le (length_digitRun hds)
  · obtain ⟨-, rfl⟩ := Prod.mk.inj (Option.some.inj h)
    exact Nat.le_refl _

theorem length_exponentPart {cs rest : List Char} {e : Option (Bool × List Nat)}
    (h : exponentPart cs = some (e, rest)) : rest.length ≤ cs.length := by
  unfold exponentPart at h
  split at h
  case h_4 =>
    obtain ⟨-, rfl⟩ := Prod.mk.inj (Option.some.inj h)
    exact Nat.le_refl _
  -- a sign or none, and then the digits
  all_goals
    split at h
    · dsimp only at h
      split at h
      · cases h
      · next hds =>
        obtain ⟨-, rfl⟩ := Prod.mk.inj (Option.some.inj h)
        have hlength := length_digitRun hds
        simp only [List.length_cons]
        omega
    · obtain ⟨-, rfl⟩ := Prod.mk.inj (Option.some.inj h)
      exact Nat.le_refl _

/-- Reading a number does not make the rest longer. -/
theorem length_numeral {cs rest : List Char} {negative : Bool} {n : Numeral}
    (h : numeral negative cs = some (n, rest)) : rest.length ≤ cs.length := by
  unfold numeral at h
  split at h
  · cases h
  · cases h
  · next hcs =>
    split at h
    · cases h
    · next hfraction =>
      split at h
      · cases h
      · next hexponent =>
        obtain ⟨-, rfl⟩ := Prod.mk.inj (Option.some.inj h)
        exact Nat.le_trans (length_exponentPart hexponent)
          (Nat.le_trans (length_fractionPart hfraction) (length_digitRun hcs))

/-- A number has no text in it. -/
theorem length_numberText {cs rest : List Char} {v : Json} (h : numberText cs = some (v, rest)) :
    textSize v = 0 ∧ rest.length ≤ cs.length := by
  obtain ⟨⟨n, rest'⟩, hn, hv⟩ := Option.map_eq_some_iff.1 h
  obtain ⟨rfl, rfl⟩ := Prod.mk.inj hv
  refine ⟨by cases n.number? <;> rfl, ?_⟩
  split at hn
  · exact Nat.le_succ_of_le (length_numeral hn)
  · exact length_numeral hn

/-! ## Containers -/

theorem length_skipBlanks : ∀ cs : List Char, (skipBlanks cs).length ≤ cs.length
  | [] => Nat.le_refl _
  | c :: cs => by
    rw [skipBlanks]
    split
    · exact Nat.le_succ_of_le (length_skipBlanks cs)
    · exact Nat.le_refl _

theorem textSizeItems_eq_sum (xs : List Json) : textSizeItems xs = (xs.map textSize).sum := by
  induction xs with
  | nil => rfl
  | cons x xs ih => rw [textSizeItems, ih, List.map_cons, List.sum_cons]

theorem textSizeFields_eq_sum (fs : List (String × Json)) :
    textSizeFields fs = (fs.map fun f => textSize f.2).sum := by
  induction fs with
  | nil => rfl
  | cons f fs ih => rw [textSizeFields, ih, List.map_cons, List.sum_cons]

/-- A list has no more characters in its texts than its items. -/
theorem textSize_arrayOf (depth : Nat) (acc : List Json) :
    textSize (arrayOf depth acc) ≤ (acc.map textSize).sum := by
  unfold arrayOf
  split
  · exact Nat.zero_le _
  · refine Nat.le_of_eq ?_
    rw [textSize, textSizeItems_eq_sum, List.map_reverse, List.sum_reverse]

/-- Names do not count. -/
theorem sum_textSize_of_mapM : ∀ {named : List (Option String × Json)} {fs : List (String × Json)},
    (named.mapM fun (k, v) => k.map (·, v)) = some fs →
      (fs.map fun f => textSize f.2).sum = (named.map fun f => textSize f.2).sum
  | [], fs, h => by
    obtain rfl : [] = fs := by simpa using h
    rfl
  | (k, v) :: named, fs, h => by
    rw [List.mapM_cons] at h
    obtain ⟨f, hf, h⟩ := Option.bind_eq_some_iff.1 h
    obtain ⟨gs, hgs, h⟩ := Option.bind_eq_some_iff.1 h
    obtain ⟨name, -, rfl⟩ := Option.map_eq_some_iff.1 hf
    obtain rfl := Option.some.inj h
    simp [sum_textSize_of_mapM hgs]

/-- An object has no more characters in its texts than its fields. -/
theorem textSize_objectOf (depth : Nat) (acc : List (Option String × Json)) :
    textSize (objectOf depth acc) ≤ (acc.map fun f => textSize f.2).sum := by
  unfold objectOf
  split
  · exact Nat.zero_le _
  · split
    · next fs hfs =>
      refine Nat.le_of_eq ?_
      rw [textSize, textSizeFields_eq_sum, sum_textSize_of_mapM hfs, List.map_reverse,
        List.sum_reverse]
    · exact Nat.zero_le _

/-! ## Trees -/

/-- The tree that was read from `cs`, with `rest` after it, has shorter texts than what was read,
or none. -/
structure Shrinks (v : Json) (rest cs : List Char) : Prop where
  le : textSize v + rest.length ≤ cs.length
  lt : 0 < textSize v → textSize v + rest.length < cs.length

theorem Shrinks.of_lt {v : Json} {rest cs : List Char}
    (h : textSize v + rest.length < cs.length) : Shrinks v rest cs :=
  ⟨Nat.le_of_lt h, fun _ => h⟩

/-- With this fuel, what each of the readers takes for a tree is longer than the texts in it. -/
structure Shrinking (fuel : Nat) : Prop where
  value {depth : Nat} {cs rest : List Char} {v : Json} :
    Json.value fuel depth cs = some (v, rest) → Shrinks v rest cs
  items {depth : Nat} {acc : List Json} {cs rest : List Char} {v : Json} :
    Json.items fuel depth acc cs = some (v, rest) →
      textSize v + rest.length < (acc.map textSize).sum + cs.length
  fields {depth : Nat} {acc : List (Option String × Json)} {cs rest : List Char} {v : Json} :
    Json.fields fuel depth acc cs = some (v, rest) →
      textSize v + rest.length < (acc.map fun f => textSize f.2).sum + cs.length

namespace Shrinking

variable {fuel depth : Nat} {cs rest : List Char} {v : Json}

/-- One more step of fuel for items. -/
theorem items_succ (hf : Shrinking fuel) {acc : List Json}
    (h : Json.items (fuel + 1) depth acc cs = some (v, rest)) :
    textSize v + rest.length < (acc.map textSize).sum + cs.length := by
  unfold Json.items at h
  have hblanks := length_skipBlanks cs
  split at h
  · cases h
  · next u left hu =>
    have hu := (hf.value hu).le
    have hleft := length_skipBlanks left
    split at h
    · next more hmore =>
      have hrest := hf.items h
      rw [hmore] at hleft
      simp only [List.map_cons, List.sum_cons, List.length_cons] at hrest hleft
      omega
    · next more hmore =>
      obtain ⟨rfl, rfl⟩ := Prod.mk.inj (Option.some.inj h)
      have harray := textSize_arrayOf depth (u :: acc)
      rw [hmore] at hleft
      simp only [List.map_cons, List.sum_cons, List.length_cons] at harray hleft
      omega
    · cases h

/-- One more step of fuel for fields. -/
theorem fields_succ (hf : Shrinking fuel) {acc : List (Option String × Json)}
    (h : Json.fields (fuel + 1) depth acc cs = some (v, rest)) :
    textSize v + rest.length < (acc.map fun f => textSize f.2).sum + cs.length := by
  unfold Json.fields at h
  have hblanks := length_skipBlanks cs
  split at h
  case h_2 => cases h
  case h_1 text htext =>
    rw [htext] at hblanks
    split at h
    · cases h
    · next k left hk =>
      have hk := length_stringBody hk
      have hleft := length_skipBlanks left
      split at h
      case h_2 => cases h
      case h_1 field hfield =>
        have hentry := length_skipBlanks field
        rw [hfield] at hleft
        split at h
        · cases h
        · next u after hu =>
          have hu := (hf.value hu).le
          have hafter := length_skipBlanks after
          split at h
          · next more hmore =>
            have hrest := hf.fields h
            rw [hmore] at hafter
            simp only [List.map_cons, List.sum_cons, List.length_cons]
              at hrest hafter hleft hblanks
            omega
          · next more hmore =>
            obtain ⟨rfl, rfl⟩ := Prod.mk.inj (Option.some.inj h)
            have hobject := textSize_objectOf depth ((k, u) :: acc)
            rw [hmore] at hafter
            simp only [List.map_cons, List.sum_cons, List.length_cons]
              at hobject hafter hleft hblanks
            omega
          · cases h

/-- One more step of fuel for values. -/
theorem value_succ (hf : Shrinking fuel)
    (h : Json.value (fuel + 1) depth cs = some (v, rest)) : Shrinks v rest cs := by
  unfold Json.value at h
  split at h
  case h_4 text =>
    obtain ⟨⟨k, left⟩, hk, hv⟩ := Option.map_eq_some_iff.1 h
    obtain ⟨rfl, rfl⟩ := Prod.mk.inj hv
    refine .of_lt ?_
    have hlength := length_stringBody hk
    cases k <;> simp only [Option.elim_none, Option.elim_some, textSize, List.length_cons]
      at hlength ⊢ <;> omega
  case h_5 text =>
    have hblanks := length_skipBlanks text
    refine .of_lt ?_
    split at h
    · next left hleft =>
      obtain ⟨rfl, rfl⟩ := Prod.mk.inj (Option.some.inj h)
      have harray := textSize_arrayOf depth []
      rw [hleft] at hblanks
      simp only [List.map_nil, List.sum_nil, List.length_cons] at harray hblanks ⊢
      omega
    · have hrest := hf.items h
      simp only [List.map_nil, List.sum_nil, List.length_cons] at hrest ⊢
      omega
  case h_6 text =>
    have hblanks := length_skipBlanks text
    refine .of_lt ?_
    split at h
    · next left hleft =>
      obtain ⟨rfl, rfl⟩ := Prod.mk.inj (Option.some.inj h)
      have hobject := textSize_objectOf depth []
      rw [hleft] at hblanks
      simp only [List.map_nil, List.sum_nil, List.length_cons] at hobject hblanks ⊢
      omega
    · have hrest := hf.fields h
      simp only [List.map_nil, List.sum_nil, List.length_cons] at hrest ⊢
      omega
  case h_7 =>
    obtain ⟨hzero, hle⟩ := length_numberText h
    exact ⟨by rwa [hzero, Nat.zero_add], fun hpos => absurd hzero (Nat.ne_of_gt hpos)⟩
  -- the three words
  all_goals
    obtain ⟨rfl, rfl⟩ := Prod.mk.inj (Option.some.inj h)
    exact .of_lt (by simp only [textSize, List.length_cons]; omega)

end Shrinking

/-- With any fuel, texts in a tree are shorter than what was read. -/
theorem shrinking : ∀ fuel : Nat, Shrinking fuel
  | 0 => ⟨nofun, nofun, nofun⟩
  | fuel + 1 =>
    have hf := shrinking fuel
    ⟨hf.value_succ, hf.items_succ, hf.fields_succ⟩

/-- The texts of a tree are shorter than the text that it is the value of. -/
theorem textSize_lt_of_read {text : String} {v : Json} (h : read text = some v) :
    textSize v < text.length := by
  have hlength : text.toList.length = text.length := String.length_toList
  unfold read readChars at h
  have hblanks := length_skipBlanks text.toList
  split at h
  · next u rest hu =>
    split at h
    · obtain rfl := Option.some.inj h
      have hshrinks := (shrinking _).value hu
      rcases Nat.eq_zero_or_pos (textSize u) with hzero | hpos
      · -- there is no tree in an empty text
        rw [hzero, ← hlength, List.length_pos_iff]
        rintro hnil
        rw [hnil] at hu
        cases hu
      · have hlt := hshrinks.lt hpos
        omega
    · cases h
  · cases h

end Handover.Json

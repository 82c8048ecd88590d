import Handover.Proofs.Json.Layout
import Handover.Proofs.Text.Utf8

/-!
# Reading back what was written

The text of a tree, in any layout, is read as that tree again, if the tree nests no deeper than
the reader follows, denotes a value in every place and has no decimals (`exactWithin`). Strings
may hold any characters. Decimals are left out, as a double is read with one rounding.

The reader hands on what is left after a value, and the writer puts a value before a given rest.
So the statement for the induction is that reading takes off what writing put on (`value_lay`),
with the length of the text as fuel.
-/

namespace Handover.Json

/-! ## Strings -/

/-- How a character stands in a string : as itself or by its number. -/
def pieceOf (c : Char) : Piece :=
  if c.toNat < 32 ∧ (c ≠ '\n' ∧ c ≠ '\r' ∧ c ≠ '\t' ∧ c.toNat ≠ 8 ∧ c.toNat ≠ 12) then
    .unit c.toNat
  else .char c

/-- A hexadecimal digit has its value. -/
theorem hexValue?_hexDigit : ∀ n < 16, hexValue? (hexDigit n) = some n := by decide

/-- A character that needs no escape is read as itself. -/
theorem pieces_cons {c : Char} (hq : c ≠ '"') (hb : c ≠ '\\') (hc : 32 ≤ c.toNat)
    (acc : List Piece) (rest : List Char) :
    pieces acc (c :: rest) = pieces (.char c :: acc) rest := by
  have hlt : ¬c.toNat < 32 := Nat.not_lt.2 hc
  simp [pieces, hb, hlt]

/-- What a character is written as is one piece. -/
theorem pieces_escaped (c : Char) (acc : List Piece) (rest : List Char) :
    pieces acc (escaped c ++ rest) = pieces (pieceOf c :: acc) rest := by
  unfold escaped
  split
  · next h => subst h; simp [pieces, simpleEscape?, pieceOf]
  split
  · next h => subst h; simp [pieces, simpleEscape?, pieceOf]
  split
  · next h => subst h; simp [pieces, simpleEscape?, pieceOf]
  split
  · next h => subst h; simp [pieces, simpleEscape?, pieceOf]
  split
  · next h => subst h; simp [pieces, simpleEscape?, pieceOf]
  split
  · next h =>
    obtain rfl : c = Char.ofNat 8 := by rw [← h, Char.ofNat_toNat]
    simp [pieces, simpleEscape?, pieceOf]
  split
  · next h =>
    obtain rfl : c = Char.ofNat 12 := by rw [← h, Char.ofNat_toNat]
    simp [pieces, simpleEscape?, pieceOf]
  split
  · next h1 h2 h3 h4 h5 h6 h7 h =>
    have hq := hexValue?_hexDigit (c.toNat / 16) (by omega)
    have hr := hexValue?_hexDigit (c.toNat % 16) (by omega)
    have h0 : hexValue? '0' = some 0 := by decide
    have hsum : c.toNat / 16 * 16 + c.toNat % 16 = c.toNat := by omega
    simp [pieces, hq, hr, h0, hsum, pieceOf, h, h3, h4, h5, h6, h7]
  · next h1 h2 h3 h4 h5 h6 h7 h =>
    have hp : pieceOf c = .char c := if_neg fun hc => h hc.1
    rw [hp, List.singleton_append, pieces_cons h1 h2 (Nat.not_lt.1 h)]

/-- Written characters are read back piece by piece. -/
theorem pieces_writeChars (cs : List Char) (acc : List Piece) (rest : List Char) :
    pieces acc (writeChars cs ('"' :: rest)) = some ((cs.map pieceOf).reverse ++ acc, rest) := by
  induction cs generalizing acc with
  | nil => simp [writeChars, pieces]
  | cons c cs ih =>
    rw [writeChars, pieces_escaped, ih, List.map_cons, List.reverse_cons, List.append_assoc]
    rfl

/-- A piece joins to its character, whatever comes before it in the text. -/
theorem joined_pieceOf (c : Char) (acc : List Char) (ps : List Piece) :
    joined acc (pieceOf c :: ps) = joined (c :: acc) ps := by
  unfold pieceOf
  split
  · next h =>
    have hs : ¬(0xd800 ≤ c.toNat ∧ c.toNat < 0xe000) := by omega
    have hlow : ¬(0xdc00 ≤ c.toNat ∧ c.toNat < 0xe000) := by omega
    have hhigh : ¬(0xd800 ≤ c.toNat ∧ c.toNat < 0xdc00) := by omega
    cases ps with
    | nil => simp [joined, hs]
    | cons p ps =>
      cases p with
      | char d => simp [joined, hs]
      | unit n => simp [joined, hlow, hhigh]
  · simp [joined]

/-- The pieces of a text join to it. -/
theorem joined_map_pieceOf (cs : List Char) (acc : List Char) :
    joined acc (cs.map pieceOf) = some (cs.reverse ++ acc) := by
  induction cs generalizing acc with
  | nil => simp [joined]
  | cons c cs ih => rw [List.map_cons, joined_pieceOf, ih]; simp

/-- A string that was written is read back, up to its closing quote. -/
theorem stringBody_writeChars (s : String) (rest : List Char) :
    stringBody (writeChars s.toList ('"' :: rest)) = some (some s, rest) := by
  have hj : joined [] (s.toList.map pieceOf).reverse = some s.toList := by
    rw [← List.map_reverse, joined_map_pieceOf, List.reverse_reverse, List.append_nil]
  simp [stringBody, pieces_writeChars, hj]

/-! ## Numbers -/

/-- The text does not go on with a number. -/
def EndsNumber (rest : List Char) : Prop :=
  ∀ c ∈ rest.head?, c.isDigit = false ∧ c ≠ '.' ∧ c ≠ 'e' ∧ c ≠ 'E'

/-- A run of digits ends where a number does. -/
theorem digitRun_append {ds rest : List Char} (hd : ∀ c ∈ ds, c.isDigit = true)
    (hr : EndsNumber rest) : digitRun (ds ++ rest) = (ds.map fun c => c.toNat - 48, rest) := by
  have htake : rest.takeWhile Char.isDigit = [] := by
    cases rest with
    | nil => rfl
    | cons c cs => simp [hr c rfl]
  have hdrop : rest.dropWhile Char.isDigit = rest := by
    cases rest with
    | nil => rfl
    | cons c cs => simp [hr c rfl]
  rw [digitRun, List.takeWhile_append_of_pos hd, List.dropWhile_append_of_pos hd, htake, hdrop,
    List.append_nil]

/-- A positive number does not begin with a zero. -/
theorem exists_toDigits (n : Nat) (hn : 0 < n) :
    ∃ c cs, Nat.toDigits 10 n = c :: cs ∧ c.toNat - 48 ≠ 0 := by
  induction n using Nat.strongRecOn with
  | ind n ih =>
    by_cases h : n < 10
    · have hc : ∀ m < 10, 0 < m → m.digitChar.toNat - 48 ≠ 0 := by decide
      exact ⟨_, [], Nat.toDigits_of_lt_base h, hc n h hn⟩
    · obtain ⟨c, cs, hcs, hc⟩ := ih (n / 10) (by omega) (by omega)
      refine ⟨c, cs ++ [(n % 10).digitChar], ?_, hc⟩
      rw [Nat.toDigits_of_base_le (by decide) (by omega), hcs, List.cons_append]

/-- The digits of a number give it back. -/
theorem ofDigits_toDigits (n : Nat) :
    Numeral.ofDigits ((Nat.toDigits 10 n).map fun c => c.toNat - 48) = n := by
  have h := Nat.ofDigitChars_ten_toDigits (n := n)
  rw [Nat.ofDigitChars_eq_foldl] at h
  rw [Numeral.ofDigits, List.foldl_map]
  simpa [Nat.mul_comm] using h

/-- Digits are read as a numeral without point and exponent. -/
theorem numeral_toDigits (negative : Bool) (n : Nat) {rest : List Char} (hr : EndsNumber rest) :
    numeral negative (Nat.toDigits 10 n ++ rest) = some
      (⟨negative, (Nat.toDigits 10 n).map fun c => c.toNat - 48, none, none⟩, rest) := by
  have hd : ∀ c ∈ Nat.toDigits 10 n, c.isDigit = true := fun c hc =>
    Nat.isDigit_of_mem_toDigits (by decide) (by decide) hc
  have hf : fractionPart rest = some (none, rest) := by
    cases rest with
    | nil => rfl
    | cons c cs => simp [fractionPart, (hr c rfl).2.1]
  have he : exponentPart rest = some (none, rest) := by
    cases rest with
    | nil => rfl
    | cons c cs =>
      obtain ⟨-, -, h1, h2⟩ := hr c rfl
      unfold exponentPart
      split <;> simp_all
  rw [numeral, digitRun_append hd hr]
  by_cases hn : n = 0
  · subst hn
    simp [Nat.toDigits_zero, hf, he]
  · obtain ⟨c, cs, hcs, hc⟩ := exists_toDigits n (Nat.pos_of_ne_zero hn)
    rw [hcs, List.map_cons]
    simp [hc, hf, he]

/-- A number without sign is read back, whatever follows it. -/
theorem numberText_natural (n : UInt64) {rest : List Char} (hr : EndsNumber rest) :
    numberText (Nat.toDigits 10 n.toNat ++ rest) = some (.num (.natural n), rest) := by
  have hd : ∀ c ∈ Nat.toDigits 10 n.toNat, c.isDigit = true := fun c hc =>
    Nat.isDigit_of_mem_toDigits (by decide) (by decide) hc
  have hn : n.toNat < UInt64.size := n.toNat_lt
  have hnum := numeral_toDigits false n.toNat hr
  obtain ⟨c, cs, hcs⟩ := List.exists_cons_of_ne_nil
    (List.append_ne_nil_of_left_ne_nil (Nat.toDigits_ne_nil (b := 10) (n := n.toNat)) rest)
  have hc : c ≠ '-' := by
    rintro rfl
    have hmem : '-' ∈ Nat.toDigits 10 n.toNat := by
      cases hds : Nat.toDigits 10 n.toNat with
      | nil => exact absurd hds Nat.toDigits_ne_nil
      | cons d ds => simp_all
    exact absurd (hd '-' hmem) (by decide)
  rw [hcs] at hnum ⊢
  simp [numberText, hc, hnum, Numeral.number?, ofDigits_toDigits, hn]

/-- A negative number is read back, whatever follows it. -/
theorem numberText_negative (n : Fin 0x8000000000000000) {rest : List Char} (hr : EndsNumber rest) :
    numberText ('-' :: (Nat.toDigits 10 (n.val + 1) ++ rest)) = some (.num (.negative n), rest) := by
  have hn : n.val + 1 ≤ 0x8000000000000000 := n.isLt
  simp [numberText, numeral_toDigits true (n.val + 1) hr, Numeral.number?, ofDigits_toDigits, hn]

/-! ## Trees -/

mutual

/-- Whether the text of a tree gives it back to a reader that opens `depth` levels. -/
def exactWithin : Nat → Json → Bool
  | _, .num (.decimal _) => false
  | _, .unreadable => false
  | depth, .arr xs => depth != 0 && exactItems (depth - 1) xs
  | depth, .obj fs => depth != 0 && exactFields (depth - 1) fs
  | _, _ => true

/-- Whether the texts of items give them back. -/
def exactItems : Nat → List Json → Bool
  | _, [] => true
  | depth, x :: xs => exactWithin depth x && exactItems depth xs

/-- Whether the texts of fields give them back. -/
def exactFields : Nat → List (String × Json) → Bool
  | _, [] => true
  | depth, (_, v) :: fs => exactWithin depth v && exactFields depth fs

end

theorem le_length_writeChars (cs rest : List Char) :
    rest.length ≤ (writeChars cs rest).length := by
  induction cs with
  | nil => exact Nat.le_refl _
  | cons c cs ih =>
    rw [writeChars, List.length_append]
    omega

theorem lt_length_writeString (s : String) (rest : List Char) :
    rest.length < (writeString s rest).length := by
  have h := le_length_writeChars s.toList ('"' :: rest)
  simp only [writeString, List.length_cons] at h ⊢
  omega

section Lay

variable (g : Layout)

mutual

/-- A text is no shorter than what follows the tree in it. -/
theorem le_length_lay (level : Nat) : ∀ (v : Json) (rest : List Char),
    rest.length ≤ (lay g level v rest).length
  | .null, rest => by simp only [lay, write, List.length_cons]; omega
  | .unreadable, rest => by simp only [lay, write, List.length_cons]; omega
  | .bool true, rest => by simp only [lay, write, List.length_cons]; omega
  | .bool false, rest => by simp only [lay, write, List.length_cons]; omega
  | .num n, rest => by simp [lay]
  | .str s, rest => by
    rw [lay]
    exact Nat.le_of_lt (lt_length_writeString s rest)
  | .arr [], rest => by simp only [lay, write, List.length_cons]; omega
  | .arr (x :: xs), rest => by
    have hx := le_length_lay (level + 1) x (layItems g level xs rest)
    have hxs := lt_length_layItems level xs rest
    simp only [lay, List.length_cons, List.length_append]
    omega
  | .obj [], rest => by simp only [lay, write, List.length_cons]; omega
  | .obj ((k, v) :: fs), rest => by
    have hv := le_length_lay (level + 1) v (layFields g level fs rest)
    have hfs := lt_length_layFields level fs rest
    have hk := lt_length_writeString k
      (':' :: (g.afterColon ++ lay g (level + 1) v (layFields g level fs rest)))
    simp only [lay, List.length_cons, List.length_append] at hk ⊢
    omega

theorem lt_length_layItems (level : Nat) : ∀ (xs : List Json) (rest : List Char),
    rest.length < (layItems g level xs rest).length
  | [], rest => by
    simp only [layItems, List.length_append, List.length_cons]
    omega
  | x :: xs, rest => by
    have hx := le_length_lay (level + 1) x (layItems g level xs rest)
    have hxs := lt_length_layItems level xs rest
    simp only [layItems, List.length_cons, List.length_append]
    omega

theorem lt_length_layFields (level : Nat) : ∀ (fs : List (String × Json)) (rest : List Char),
    rest.length < (layFields g level fs rest).length
  | [], rest => by
    simp only [layFields, List.length_append, List.length_cons]
    omega
  | (k, v) :: fs, rest => by
    have hv := le_length_lay (level + 1) v (layFields g level fs rest)
    have hfs := lt_length_layFields level fs rest
    have hk := lt_length_writeString k
      (':' :: (g.afterColon ++ lay g (level + 1) v (layFields g level fs rest)))
    simp only [layFields, List.length_cons, List.length_append] at hk ⊢
    omega

end

/-- A value starts with no blank and no closing bracket. -/
theorem exists_lay_eq {depth : Nat} {v : Json} (h : exactWithin depth v = true) (level : Nat)
    (rest : List Char) : ∃ c cs, lay g level v rest = c :: cs ∧
      c ∉ [' ', '\n', '\t', '\r', ']'] := by
  match v with
  | .null | .bool true | .bool false => exact ⟨_, _, rfl, by decide⟩
  | .str _ => exact ⟨_, _, by rw [lay, writeString], by decide⟩
  | .arr [] | .obj [] => exact ⟨_, _, rfl, by decide⟩
  | .arr (_ :: _) | .obj ((_, _) :: _) => exact ⟨_, _, by rw [lay], by decide⟩
  | .num (.negative n) =>
    exact ⟨_, _, by rw [lay, numberChars, List.cons_append], by decide⟩
  | .num (.natural n) =>
    cases hcs : Nat.toDigits 10 n.toNat with
    | nil => exact absurd hcs Nat.toDigits_ne_nil
    | cons c cs =>
      have hd : c.isDigit = true := Nat.isDigit_of_mem_toDigits (b := 10) (n := n.toNat)
        (by decide) (by decide) (by simp [hcs])
      refine ⟨c, cs ++ rest, by rw [lay, numberChars, hcs, List.cons_append], fun hc => ?_⟩
      simp only [List.mem_cons, List.not_mem_nil, or_false] at hc
      rcases hc with rfl | rfl | rfl | rfl | rfl <;> exact absurd hd (by decide)

/-- No laid out tree begins with a blank. -/
theorem skipBlanks_lay {depth : Nat} {v : Json} (h : exactWithin depth v = true) (level : Nat)
    (rest : List Char) : skipBlanks (lay g level v rest) = lay g level v rest := by
  obtain ⟨c, cs, hcs, hc⟩ := exists_lay_eq g h level rest
  simp only [List.mem_cons, List.not_mem_nil, or_false, not_or] at hc
  simp [hcs, skipBlanks, hc]

/-- What starts like a number is read as one. -/
theorem value_eq_numberText {c : Char} (hc : c.isDigit = true ∨ c = '-') (fuel depth : Nat)
    (cs : List Char) : value (fuel + 1) depth (c :: cs) = numberText (c :: cs) := by
  have hne : ∀ b ∈ ['n', 't', 'f', '"', '[', '\x7b'], c ≠ b := by
    rintro b hb rfl
    simp only [List.mem_cons, List.not_mem_nil, or_false] at hb
    rcases hb with rfl | rfl | rfl | rfl | rfl | rfl <;> exact absurd hc (by decide)
  simp only [List.forall_mem_cons] at hne
  simp [value, hne]

/-- Blanks end a number too. -/
theorem EndsNumber.blank_append {blanks rest : List Char} (hr : EndsNumber rest)
    (hb : Blank blanks) : EndsNumber (blanks ++ rest) := by
  cases blanks with
  | nil => exact hr
  | cons b bs =>
    intro c hc
    obtain rfl : b = c := by simpa using hc
    rcases hb b (by simp) with rfl | rfl <;> decide

theorem endsNumber_layItems (level : Nat) (xs : List Json) (rest : List Char) :
    EndsNumber (layItems g level xs rest) := by
  cases xs with
  | nil =>
    rw [layItems]
    exact .blank_append (by simp [EndsNumber]) (g.blank_entry level)
  | cons x xs => simp [EndsNumber, layItems]

theorem endsNumber_layFields (level : Nat) (fs : List (String × Json)) (rest : List Char) :
    EndsNumber (layFields g level fs rest) := by
  cases fs with
  | nil =>
    rw [layFields]
    exact .blank_append (by simp [EndsNumber]) (g.blank_entry level)
  | cons f fs =>
    obtain ⟨k, v⟩ := f
    simp [EndsNumber, layFields]

/-- A field as the reader collects it. -/
def collected (f : String × Json) : Option String × Json :=
  (some f.1, f.2)

theorem mapM_eq_some {α β : Type} {f : α → Option β} {g : α → β} (h : ∀ a, f a = some (g a))
    (xs : List α) : xs.mapM f = some (xs.map g) := by
  induction xs with
  | nil => rfl
  | cons x xs ih => simp [List.mapM_cons, h, ih]

/-- The fields of an object, found in their order, make up the object. -/
theorem objectOf_map_found {depth : Nat} (h : depth ≠ 0) (fs : List (String × Json)) :
    objectOf depth (fs.map collected).reverse = .obj fs := by
  rw [objectOf, if_neg h, List.reverse_reverse, List.mapM_map, mapM_eq_some (g := id)]
  · rw [List.map_id]
  · exact fun _ => rfl

theorem items_skipBlanks (fuel depth : Nat) (acc : List Json) (cs : List Char) :
    items fuel depth acc (skipBlanks cs) = items fuel depth acc cs := by
  cases fuel with
  | zero => rfl
  | succ fuel => rw [items, items, skipBlanks_skipBlanks]

theorem fields_skipBlanks (fuel depth : Nat) (acc : List (Option String × Json))
    (cs : List Char) : fields fuel depth acc (skipBlanks cs) = fields fuel depth acc cs := by
  cases fuel with
  | zero => rfl
  | succ fuel => rw [fields, fields, skipBlanks_skipBlanks]

mutual

/-- Reading takes off what writing put on. -/
theorem value_lay (level : Nat) : ∀ (v : Json) (fuel : Nat) {depth : Nat} (rest : List Char),
    exactWithin depth v = true → EndsNumber rest →
    2 * (lay g level v rest).length + 1 ≤ fuel + 2 * rest.length →
    value fuel depth (lay g level v rest) = some (v, rest)
  | v, 0, _, rest, _, _, hf => by
    have hle := le_length_lay g level v rest
    omega
  | .null, fuel + 1, _, _, _, _, _ => rfl
  | .bool true, fuel + 1, _, _, _, _, _ => rfl
  | .bool false, fuel + 1, _, _, _, _, _ => rfl
  | .num (.natural n), fuel + 1, depth, rest, _, hr, _ => by
    have hnum := numberText_natural n hr
    cases hcs : Nat.toDigits 10 n.toNat with
    | nil => exact absurd hcs Nat.toDigits_ne_nil
    | cons c cs =>
      have hd : c.isDigit = true := Nat.isDigit_of_mem_toDigits (b := 10) (n := n.toNat)
        (by decide) (by decide) (by simp [hcs])
      rw [hcs, List.cons_append] at hnum
      rw [lay, numberChars, hcs, List.cons_append, value_eq_numberText (Or.inl hd), hnum]
  | .num (.negative n), fuel + 1, depth, rest, _, hr, _ => by
    rw [lay, numberChars, List.cons_append, value_eq_numberText (Or.inr rfl),
      numberText_negative n hr]
  | .str s, fuel + 1, depth, rest, _, _, _ => by
    simp [lay, writeString, value, stringBody_writeChars]
  | .arr [], fuel + 1, depth, rest, h, _, _ => by
    have hd : depth ≠ 0 := by simpa [exactWithin, exactItems] using h
    simp [lay, write, value, skipBlanks, arrayOf, hd]
  | .arr (x :: xs), fuel + 1, depth, rest, h, _, hf => by
    obtain ⟨hd, hx⟩ : depth ≠ 0 ∧ exactItems (depth - 1) (x :: xs) = true := by
      simpa [exactWithin] using h
    have hx' : exactWithin (depth - 1) x = true := by simp_all [exactItems]
    obtain ⟨c, cs, hcs, hc⟩ := exists_lay_eq g hx' (level + 1) (layItems g level xs rest)
    have hitems := items_lay level (x :: xs) fuel rest [] (by simp) hd hx (by
      simp only [lay, layItems, List.length_cons, List.length_append] at hf ⊢
      omega)
    have hblank := skipBlanks_lay g hx' (level + 1) (layItems g level xs rest)
    rw [layItems, List.tail_cons, ← items_skipBlanks, skipBlanks_append (g.blank_entry _),
      items_skipBlanks, hcs] at hitems
    rw [hcs] at hblank
    have hne : c ≠ ']' := fun h => hc (by simp [h])
    simp [lay, value, skipBlanks_append (g.blank_entry _), hcs, hblank, hne, hitems, arrayOf, hd]
  | .obj [], fuel + 1, depth, rest, h, _, _ => by
    have hd : depth ≠ 0 := by simpa [exactWithin, exactFields] using h
    simp [lay, write, value, skipBlanks, objectOf, hd]
  | .obj ((k, v) :: fs), fuel + 1, depth, rest, h, _, hf => by
    obtain ⟨hd, hx⟩ : depth ≠ 0 ∧ exactFields (depth - 1) ((k, v) :: fs) = true := by
      simpa [exactWithin] using h
    have hfields := fields_lay level ((k, v) :: fs) fuel rest [] (by simp) hd hx (by
      simp only [lay, layFields, List.length_cons, List.length_append] at hf ⊢
      omega)
    rw [layFields, List.tail_cons, ← fields_skipBlanks, skipBlanks_append (g.blank_entry _),
      fields_skipBlanks, List.append_nil, objectOf_map_found hd] at hfields
    simp only [writeString] at hfields
    simp [lay, writeString, value, skipBlanks_append (g.blank_entry _), skipBlanks, hfields]

/-- Laid out items are read back, if there is fuel for their text. -/
theorem items_lay (level : Nat) : ∀ (xs : List Json) (fuel : Nat) {depth : Nat}
    (rest : List Char) (acc : List Json), xs ≠ [] → depth ≠ 0 →
    exactItems (depth - 1) xs = true →
    2 * (layItems g level xs rest).length ≤ fuel + 2 * rest.length →
    items fuel depth acc (layItems g level xs rest).tail =
      some (arrayOf depth (xs.reverse ++ acc), rest)
  | [], _, _, _, _, hne, _, _, _ => absurd rfl hne
  | x :: xs, fuel, depth, rest, acc, _, hd, h, hf => by
    obtain ⟨hx, hxs⟩ : exactWithin (depth - 1) x = true ∧ exactItems (depth - 1) xs = true := by
      simpa [exactItems] using h
    have hle := le_length_lay g (level + 1) x (layItems g level xs rest)
    have hlt := lt_length_layItems g level xs rest
    simp only [layItems, List.length_cons, List.length_append] at hf
    cases fuel with
    | zero => omega
    | succ fuel =>
      have hvalue := value_lay (level + 1) x fuel _ hx (endsNumber_layItems g level xs rest)
        (by omega)
      simp only [layItems, List.tail_cons, items, skipBlanks_append (g.blank_entry _),
        skipBlanks_lay g hx, hvalue]
      cases xs with
      | nil => simp [layItems, skipBlanks_append (g.blank_entry _), skipBlanks]
      | cons y ys =>
        have htail := items_lay level (y :: ys) fuel rest (x :: acc) (by simp) hd hxs (by omega)
        rw [layItems, List.tail_cons] at htail
        simp [layItems, skipBlanks, htail]

/-- Laid out fields are read back, if there is fuel for their text. -/
theorem fields_lay (level : Nat) : ∀ (fs : List (String × Json)) (fuel : Nat) {depth : Nat}
    (rest : List Char) (acc : List (Option String × Json)), fs ≠ [] → depth ≠ 0 →
    exactFields (depth - 1) fs = true →
    2 * (layFields g level fs rest).length ≤ fuel + 2 * rest.length →
    fields fuel depth acc (layFields g level fs rest).tail =
      some (objectOf depth ((fs.map collected).reverse ++ acc), rest)
  | [], _, _, _, _, hne, _, _, _ => absurd rfl hne
  | (k, v) :: fs, fuel, depth, rest, acc, _, hd, h, hf => by
    obtain ⟨hv, hfs⟩ : exactWithin (depth - 1) v = true ∧ exactFields (depth - 1) fs = true := by
      simpa [exactFields] using h
    have hk := lt_length_writeString k
      (':' :: (g.afterColon ++ lay g (level + 1) v (layFields g level fs rest)))
    have hle := le_length_lay g (level + 1) v (layFields g level fs rest)
    have hlt := lt_length_layFields g level fs rest
    simp only [layFields, List.length_cons, List.length_append] at hf hk
    cases fuel with
    | zero => omega
    | succ fuel =>
      have hvalue := value_lay (level + 1) v fuel _ hv (endsNumber_layFields g level fs rest)
        (by omega)
      rw [layFields, List.tail_cons]
      generalize hrest : layFields g level fs rest = after at hvalue ⊢
      have hquote : ∀ cs, skipBlanks ('"' :: cs) = '"' :: cs := fun _ => by simp [skipBlanks]
      have hcolon : ∀ cs, skipBlanks (':' :: cs) = ':' :: cs := fun _ => by simp [skipBlanks]
      simp only [writeString, fields, skipBlanks_append (g.blank_entry _), hquote,
        stringBody_writeChars, hcolon, skipBlanks_append g.blank_afterColon, skipBlanks_lay g hv,
        hvalue]
      subst hrest
      cases fs with
      | nil => simp [layFields, skipBlanks_append (g.blank_entry _), skipBlanks, collected]
      | cons f fs =>
        obtain ⟨l, w⟩ := f
        have htail := fields_lay level ((l, w) :: fs) fuel rest ((some k, v) :: acc) (by simp) hd
          hfs (by omega)
        rw [layFields, List.tail_cons] at htail
        simp [layFields, skipBlanks, htail, collected]

end

end Lay

/-! ## Documents -/

/-- The text of a tree in a layout, with blanks after it, is read as the tree. -/
theorem readChars_lay (g : Layout) {v : Json} (h : exactWithin depthLimit v = true)
    {blanks : List Char} (hb : Blank blanks) : readChars (lay g 0 v [] ++ blanks) = some v := by
  have hnil : EndsNumber [] := by simp [EndsNumber]
  have hends : EndsNumber blanks := by simpa using hnil.blank_append hb
  have hskip : skipBlanks blanks = [] := by simpa [skipBlanks] using skipBlanks_append hb []
  have hvalue := value_lay g 0 v (2 * (lay g 0 v blanks).length + 2) blanks h hends (by omega)
  rw [lay_append, List.nil_append]
  simp [readChars, skipBlanks_lay g h, hvalue, hskip]

/-- The compact text of a tree is read as the tree. -/
theorem read_compact {v : Json} (h : exactWithin depthLimit v = true) :
    read v.compact = some v := by
  have hread := readChars_lay .compact h .nil
  rw [lay_compact, List.append_nil] at hread
  rwa [read, compact, String.toList_ofList]

/-- The indented text of a tree, with a line break after it, is read as the tree. -/
theorem read_pretty {v : Json} (h : exactWithin depthLimit v = true) :
    read (v.pretty ++ "\n") = some v := by
  have hb : Blank ['\n'] := by simp [Blank]
  have hread := readChars_lay .indented h hb
  rw [lay_indented] at hread
  rwa [read, pretty, String.toList_append, String.toList_ofList]

/-! ## Bytes -/

/-- The bytes of a text decode to its characters. -/
theorem charsOfBytes_encode (s : String) : charsOfBytes (Utf8.encode s) = s.toList := by
  rw [charsOfBytes, Utf8.decode_encode]
  simp [List.flatMap_map]

/-- The bytes of a text are read as the text is. -/
theorem readBytes_encode (s : String) : readBytes (Utf8.encode s) = read s := by
  rw [readBytes, charsOfBytes_encode, read]

/-- The bytes of the compact text of a tree are read as the tree. -/
theorem readBytes_compact {v : Json} (h : exactWithin depthLimit v = true) :
    readBytes (Utf8.encode v.compact) = some v := by
  rw [readBytes_encode, read_compact h]

end Handover.Json

import Handover.Json.Reader
import Handover.Json.Writer

/-!
# Layouts

The compact and the indented text of a tree differ in their blanks alone : in what stands before
each entry and each closing bracket, and after each colon (`Layout`). `lay` writes a tree in a
layout, and the two texts are its cases (`lay_compact`, `lay_indented`), so what holds of every
layout holds of both.
-/

namespace Handover.Json

/-! ## Blanks -/

/-- Characters between the parts of a text. -/
def Blank (cs : List Char) : Prop :=
  ∀ c ∈ cs, c = ' ' ∨ c = '\n'

theorem Blank.nil : Blank [] := fun _ h => absurd h List.not_mem_nil

/-- Blanks in front are skipped. -/
theorem skipBlanks_append {blanks : List Char} (h : Blank blanks) (cs : List Char) :
    skipBlanks (blanks ++ cs) = skipBlanks cs := by
  induction blanks with
  | nil => rfl
  | cons b bs ih =>
    have hb : b = ' ' ∨ b = '\n' := h b (by simp)
    have hbs := ih fun c hc => h c (by simp [hc])
    rcases hb with rfl | rfl <;> simpa [skipBlanks] using hbs

theorem skipBlanks_skipBlanks (cs : List Char) : skipBlanks (skipBlanks cs) = skipBlanks cs := by
  induction cs with
  | nil => rfl
  | cons c cs ih =>
    by_cases hc : (c = ' ' || c = '\n' || c = '\t' || c = '\r') = true
    · rwa [skipBlanks, if_pos hc]
    · rw [skipBlanks, if_neg hc, skipBlanks, if_neg hc]

/-! ## Texts in a layout -/

/-- The blanks before an entry or a closing bracket of a level, and those after a colon. -/
structure Layout where
  entry : Nat → List Char
  afterColon : List Char
  blank_entry : ∀ level, Blank (entry level)
  blank_afterColon : Blank afterColon

mutual

/-- The text of a tree that stands at `level`, before `rest`. -/
def lay (g : Layout) (level : Nat) : Json → List Char → List Char
  | .num n, rest => numberChars n ++ rest
  | .str s, rest => writeString s rest
  | .arr (x :: xs), rest =>
    '[' :: (g.entry (level + 1) ++ lay g (level + 1) x (layItems g level xs rest))
  | .obj ((k, v) :: fs), rest =>
    '\x7b' :: (g.entry (level + 1) ++ writeString k
      (':' :: (g.afterColon ++ lay g (level + 1) v (layFields g level fs rest))))
  | v, rest => write v rest

/-- The items after the first with their blanks, and the closing bracket. -/
def layItems (g : Layout) (level : Nat) : List Json → List Char → List Char
  | [], rest => g.entry level ++ ']' :: rest
  | x :: xs, rest =>
    ',' :: (g.entry (level + 1) ++ lay g (level + 1) x (layItems g level xs rest))

/-- The fields after the first with their blanks, and the closing brace. -/
def layFields (g : Layout) (level : Nat) : List (String × Json) → List Char → List Char
  | [], rest => g.entry level ++ '\x7d' :: rest
  | (k, v) :: fs, rest =>
    ',' :: (g.entry (level + 1) ++ writeString k
      (':' :: (g.afterColon ++ lay g (level + 1) v (layFields g level fs rest))))

end

theorem writeChars_append (more : List Char) : ∀ cs rest : List Char,
    writeChars cs rest ++ more = writeChars cs (rest ++ more)
  | [], _ => rfl
  | c :: cs, rest => by rw [writeChars, writeChars, List.append_assoc, writeChars_append more cs]

theorem writeString_append (s : String) (rest more : List Char) :
    writeString s rest ++ more = writeString s (rest ++ more) := by
  rw [writeString, writeString, List.cons_append, writeChars_append, List.cons_append]

mutual

/-- What comes after a text stays after it. -/
theorem lay_append (g : Layout) (more : List Char) (level : Nat) : ∀ (v : Json) (rest : List Char),
    lay g level v rest ++ more = lay g level v (rest ++ more)
  | .null, _ | .bool true, _ | .bool false, _ | .unreadable, _ => rfl
  | .arr [], _ | .obj [], _ => rfl
  | .num n, rest => by rw [lay, lay, List.append_assoc]
  | .str s, rest => by rw [lay, lay, writeString_append]
  | .arr (x :: xs), rest => by
    rw [lay, lay, List.cons_append, List.append_assoc, lay_append g more (level + 1) x,
      layItems_append g more level xs]
  | .obj ((k, v) :: fs), rest => by
    rw [lay, lay, List.cons_append, List.append_assoc, writeString_append, List.cons_append,
      List.append_assoc, lay_append g more (level + 1) v, layFields_append g more level fs]

theorem layItems_append (g : Layout) (more : List Char) (level : Nat) :
    ∀ (xs : List Json) (rest : List Char),
      layItems g level xs rest ++ more = layItems g level xs (rest ++ more)
  | [], rest => by rw [layItems, layItems, List.append_assoc, List.cons_append]
  | x :: xs, rest => by
    rw [layItems, layItems, List.cons_append, List.append_assoc, lay_append g more (level + 1) x,
      layItems_append g more level xs]

theorem layFields_append (g : Layout) (more : List Char) (level : Nat) :
    ∀ (fs : List (String × Json)) (rest : List Char),
      layFields g level fs rest ++ more = layFields g level fs (rest ++ more)
  | [], rest => by rw [layFields, layFields, List.append_assoc, List.cons_append]
  | (k, v) :: fs, rest => by
    rw [layFields, layFields, List.cons_append, List.append_assoc, writeString_append,
      List.cons_append, List.append_assoc, lay_append g more (level + 1) v,
      layFields_append g more level fs]

end

/-! ## The two texts -/

/-- No blanks at all. -/
def Layout.compact : Layout where
  entry _ := []
  afterColon := []
  blank_entry _ := .nil
  blank_afterColon := .nil

/-- One entry a line, with two blanks of indent a level. -/
def Layout.indented : Layout where
  entry level := lineBreak level []
  afterColon := [' ']
  blank_entry level c hc := by
    rw [lineBreak, List.append_nil] at hc
    rcases List.mem_cons.1 hc with rfl | hc
    · exact Or.inr rfl
    · exact Or.inl (List.eq_of_mem_replicate hc)
  blank_afterColon c hc := Or.inl (List.mem_singleton.1 hc)

mutual

/-- The compact layout is that of the writer on one line. -/
theorem lay_compact (level : Nat) : ∀ (v : Json) (rest : List Char),
    lay .compact level v rest = write v rest
  | .null, _ | .bool _, _ | .num _, _ | .str _, _ | .unreadable, _ => rfl
  | .arr [], _ | .obj [], _ => rfl
  | .arr (x :: xs), rest => by
    rw [lay, write, layItems_compact level xs, lay_compact (level + 1) x]
    rfl
  | .obj ((k, v) :: fs), rest => by
    rw [lay, write, layFields_compact level fs, lay_compact (level + 1) v]
    rfl

theorem layItems_compact (level : Nat) : ∀ (xs : List Json) (rest : List Char),
    layItems .compact level xs rest = writeItems xs rest
  | [], _ => rfl
  | x :: xs, rest => by
    rw [layItems, writeItems, layItems_compact level xs, lay_compact (level + 1) x]
    rfl

theorem layFields_compact (level : Nat) : ∀ (fs : List (String × Json)) (rest : List Char),
    layFields .compact level fs rest = writeFields fs rest
  | [], _ => rfl
  | (k, v) :: fs, rest => by
    rw [layFields, writeFields, layFields_compact level fs, lay_compact (level + 1) v]
    rfl

end

theorem lineBreak_append (level : Nat) (rest : List Char) :
    Layout.indented.entry level ++ rest = lineBreak level rest := by
  simp [Layout.indented, lineBreak]

mutual

/-- The indented layout is that of the writer with line breaks. -/
theorem lay_indented (level : Nat) : ∀ (v : Json) (rest : List Char),
    lay .indented level v rest = writePretty level v rest
  | .null, _ | .bool _, _ | .num _, _ | .str _, _ | .unreadable, _ => rfl
  | .arr [], _ | .obj [], _ => rfl
  | .arr (x :: xs), rest => by
    rw [lay, writePretty, layItems_indented level xs, lay_indented (level + 1) x,
      lineBreak_append]
  | .obj ((k, v) :: fs), rest => by
    rw [lay, writePretty, layFields_indented level fs, lay_indented (level + 1) v,
      lineBreak_append]
    rfl

theorem layItems_indented (level : Nat) : ∀ (xs : List Json) (rest : List Char),
    layItems .indented level xs rest = writePrettyItems level xs rest
  | [], _ => by rw [layItems, writePrettyItems, lineBreak_append]
  | x :: xs, rest => by
    rw [layItems, writePrettyItems, layItems_indented level xs, lay_indented (level + 1) x,
      lineBreak_append]

theorem layFields_indented (level : Nat) : ∀ (fs : List (String × Json)) (rest : List Char),
    layFields .indented level fs rest = writePrettyFields level fs rest
  | [], _ => by rw [layFields, writePrettyFields, lineBreak_append]
  | (k, v) :: fs, rest => by
    rw [layFields, writePrettyFields, layFields_indented level fs, lay_indented (level + 1) v,
      lineBreak_append]
    rfl

end

end Handover.Json

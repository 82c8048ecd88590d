/-!
# Punycode

A label with letters outside ASCII is written as its ASCII letters, a hyphen, and numbers that
say where the other letters go. They are inserted in the order of their code points, and each
number is the distance to the next place in the grid of code points and positions. Numbers are
written to base thirty-six in digits whose range depends on a bias that follows the last
distance.
-/

namespace Handover.Punycode

/-- The digit of a number below thirty-six. -/
def digit (n : Nat) : Char :=
  if n < 26 then Char.ofNat (97 + n) else Char.ofNat (22 + n)

/-- The value of a lower-case digit. -/
def value? (c : Char) : Option Nat :=
  if c.isLower then some (c.toNat - 97)
  else if c.isDigit then some (c.toNat - 22)
  else none

/-- The least value of a digit that is followed by another one. -/
def threshold (k bias : Nat) : Nat :=
  max 1 (min 26 (k - bias))

theorem threshold_pos (k bias : Nat) : 1 ≤ threshold k bias := by
  unfold threshold; omega

theorem threshold_le (k bias : Nat) : threshold k bias ≤ 26 := by
  unfold threshold; omega

/-- Divides until the distance is small, and counts in digits. -/
def settle (k delta : Nat) : Nat :=
  if 455 < delta then settle (k + 36) (delta / 35) else k + 36 * delta / (delta + 38)
termination_by delta
decreasing_by omega

/-- The bias after a distance, with the number of letters so far. -/
def adapt (delta count : Nat) (first : Bool) : Nat :=
  let delta := if first then delta / 700 else delta / 2
  settle 0 (delta + delta / count)

/-- The digits of a distance. -/
def distance (bias k q : Nat) : List Char :=
  let t := threshold k bias
  if q < t then [digit q]
  else digit (t + (q - t) % (36 - t)) :: distance bias (k + 36) ((q - t) / (36 - t))
termination_by q
decreasing_by
  have h1 := threshold_pos k bias
  have h2 := threshold_le k bias
  calc (q - threshold k bias) / (36 - threshold k bias)
      ≤ q - threshold k bias := Nat.div_le_self _ _
    _ < q := by omega

/-! ## Writing -/

/-- What has been written, the distance since the last insertion, the bias, and how many
letters are in place. -/
structure Progress where
  written : List Char
  delta : Nat
  bias : Nat
  placed : Nat

/-- Passes one letter of the label while the letters of one code point are inserted. -/
def Progress.pass (basic point : Nat) (p : Progress) (c : Char) : Progress :=
  if c.toNat < point then { p with delta := p.delta + 1 }
  else if c.toNat = point then
    ⟨p.written ++ distance p.bias 36 p.delta, 0,
      adapt p.delta (p.placed + 1) (p.placed == basic), p.placed + 1⟩
  else p

/-- Inserts the letters of each code point in turn. -/
def insertAll (label : List Char) (basic : Nat) : List Nat → Nat → Progress → Progress
  | [], _, p => p
  | point :: rest, from_, p =>
    let p := { p with delta := p.delta + (point - from_) * (p.placed + 1) }
    let p := label.foldl (Progress.pass basic point) p
    insertAll label basic rest (point + 1) { p with delta := p.delta + 1 }

/-- The written form of a label. -/
def encode (label : List Char) : List Char :=
  let basic := label.filter fun c => decide (c.toNat < 128)
  let points := ((label.map Char.toNat).filter (128 ≤ ·)).eraseDups.mergeSort
  basic ++ (if basic.isEmpty then [] else ['-']) ++
    (insertAll label basic.length points 128 ⟨[], 0, 72, basic.length⟩).written

/-! ## Reading -/

/-- A distance read from digits, added to a place, and the rest. -/
def readDistance (bias : Nat) : List Char → Nat → Nat → Nat → Option (Nat × List Char)
  | [], _, _, _ => none
  | c :: cs, k, weight, place =>
    match value? c with
    | none => none
    | some d =>
      if d < threshold k bias then some (place + d * weight, cs)
      else
        readDistance bias cs (k + 36) (weight * (36 - threshold k bias)) (place + d * weight)

/-- A distance takes at least one character. -/
theorem length_readDistance {bias : Nat} {cs rest : List Char} {k weight place r : Nat}
    (h : readDistance bias cs k weight place = some (r, rest)) : rest.length < cs.length := by
  induction cs generalizing k weight place with
  | nil => simp [readDistance] at h
  | cons c cs ih =>
    unfold readDistance at h
    split at h
    · simp at h
    · split at h
      · simp only [Option.some.injEq, Prod.mk.injEq] at h
        simp [← h.2]
      · have := ih h
        simp only [List.length_cons]
        omega

/-- Inserts letters at the places that distances lead to. -/
def readAll (bias point place : Nat) (label : List Char) (cs : List Char) :
    Option (List Char) :=
  if cs.isEmpty then some label
  else
    match _read : readDistance bias cs 36 1 place with
    | none => none
    | some (next, rest) =>
      let count := label.length + 1
      let point := point + next / count
      if point < 0xd800 ∨ (0xdfff < point ∧ point < 0x110000) then
        readAll (adapt (next - place) count (place == 0)) point (next % count + 1)
          (label.insertIdx (next % count) (Char.ofNat point)) rest
      else none
termination_by cs.length
decreasing_by exact length_readDistance _read

/-- The label of a written form. -/
def decode? (cs : List Char) : Option (List Char) :=
  match cs.reverse.span (· != '-') with
  | (tail, []) => readAll 72 128 0 [] tail.reverse
  | (tail, _ :: head) => readAll 72 128 0 head.reverse tail.reverse

end Handover.Punycode

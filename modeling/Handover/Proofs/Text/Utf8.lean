import Handover.Text.Utf8
import Mathlib.Tactic.Common

/-!
# Reading back the bytes of a text

The encoding of a text is the encodings of its characters one after the other, and each of them
is read back as that character (`decodeFrom_utf8EncodeChar`). So bytes that were written from a
text decode to its characters, without gaps (`decode_encode`).
-/

namespace Handover

theorem toList_loop (bs : ByteArray) : ∀ (i : Nat) (r : List UInt8),
    ByteArray.toList.loop bs i r = r.reverse ++ bs.data.toList.drop i := by
  intro i r
  fun_induction ByteArray.toList.loop bs i r with
  | case1 i r h ih =>
    have hi : i < bs.data.toList.length := h
    have hget : bs.get! i = bs.data.toList[i] := by
      simp [ByteArray.get!, getElem!_pos bs.data i h]
    rw [ih, List.drop_eq_getElem_cons hi, hget]
    simp
  | case2 i r h =>
    have hi : bs.data.toList.length ≤ i := Nat.le_of_not_lt h
    rw [List.drop_eq_nil_of_le hi, List.append_nil]

theorem toList_eq_data (bs : ByteArray) : bs.toList = bs.data.toList :=
  toList_loop bs 0 []

namespace Utf8

/-- The bytes of a text are those of its characters. -/
theorem encode_eq_flatMap (s : String) : encode s = s.toList.flatMap String.utf8EncodeChar := by
  have hs : s.toByteArray = (s.toList.flatMap String.utf8EncodeChar).toByteArray := by
    rw [← String.ofList_toList (s := s), String.toByteArray_ofList, String.toList_ofList]
    rfl
  rw [encode, String.toUTF8_eq_toByteArray, hs, toList_eq_data, List.toList_data_toByteArray]

/-! ## One character -/

theorem toNat_ofNat {n : Nat} (h : n < 256) : (UInt8.ofNat n).toNat = n :=
  UInt8.toNat_ofNat_of_lt' h

/-- Six bits are read back from a continuation. -/
theorem continuation?_ofNat (n : Nat) :
    continuation? (UInt8.ofNat (n % 64 + 128)) = some (n % 64) := by
  have hn : (UInt8.ofNat (n % 64 + 128)).toNat = n % 64 + 128 := toNat_ofNat (by omega)
  unfold continuation?
  rw [if_pos, hn, Nat.add_sub_cancel]
  simp only [UInt8.le_iff_toNat_le, UInt8.lt_iff_toNat_lt, hn]
  exact ⟨by simp, by simp; omega⟩

/-- A character of one byte is read back. -/
theorem step_one {n : Nat} (h : n ≤ 0x7f) (rest : Bytes) :
    step (UInt8.ofNat n) rest = (some (Char.ofNat n), 0) := by
  have hn : (UInt8.ofNat n).toNat = n := toNat_ofNat (by omega)
  unfold step
  rw [if_pos, hn]
  rw [UInt8.lt_iff_toNat_lt, hn]
  simp
  omega

/-- A character of two bytes is read back. -/
theorem two?_ofNat {n : Nat} (hlo : 0x80 ≤ n) (hhi : n ≤ 0x7ff) :
    two? (UInt8.ofNat (n / 64 % 32 + 192)) (UInt8.ofNat (n % 64 + 128)) = some (Char.ofNat n) := by
  have ha : (UInt8.ofNat (n / 64 % 32 + 192)).toNat = n / 64 + 192 := by
    rw [toNat_ofNat (by omega)]
    omega
  have hsum : (n / 64 + 192 - 192) * 64 + n % 64 = n := by omega
  unfold two?
  rw [if_pos, continuation?_ofNat, ha, Option.map_some, hsum]
  simp only [UInt8.le_iff_toNat_le, UInt8.lt_iff_toNat_lt, ha]
  exact ⟨by simp; omega, by simp; omega⟩

/-- A character of three bytes is read back, unless it is a surrogate. -/
theorem three?_ofNat {n : Nat} (hlo : 0x800 ≤ n) (hhi : n ≤ 0xffff)
    (hs : n < 0xd800 ∨ 0xdfff < n) :
    three? (UInt8.ofNat (n / 4096 % 16 + 224)) (UInt8.ofNat (n / 64 % 64 + 128))
      (UInt8.ofNat (n % 64 + 128)) = some (Char.ofNat n) := by
  have ha : (UInt8.ofNat (n / 4096 % 16 + 224)).toNat = n / 4096 + 224 := by
    rw [toNat_ofNat (by omega)]
    omega
  have hsum : ((n / 4096 + 224 - 224) * 64 + n / 64 % 64) * 64 + n % 64 = n := by omega
  unfold three?
  rw [if_pos, continuation?_ofNat, continuation?_ofNat, ha]
  · simp only [hsum]
    exact if_neg (by omega)
  · simp only [UInt8.le_iff_toNat_le, UInt8.lt_iff_toNat_lt, ha]
    exact ⟨by simp, by simp; omega⟩

/-- A character of four bytes is read back. -/
theorem four?_ofNat {n : Nat} (hlo : 0x10000 ≤ n) (hhi : n < 0x110000) :
    four? (UInt8.ofNat (n / 262144 % 8 + 240)) (UInt8.ofNat (n / 4096 % 64 + 128))
      (UInt8.ofNat (n / 64 % 64 + 128)) (UInt8.ofNat (n % 64 + 128)) = some (Char.ofNat n) := by
  have ha : (UInt8.ofNat (n / 262144 % 8 + 240)).toNat = n / 262144 + 240 := by
    rw [toNat_ofNat (by omega)]
    omega
  have hsum : (((n / 262144 + 240 - 240) * 64 + n / 4096 % 64) * 64 + n / 64 % 64) * 64 +
      n % 64 = n := by omega
  unfold four?
  rw [if_pos, continuation?_ofNat, continuation?_ofNat, continuation?_ofNat, ha]
  · simp only [hsum]
    exact if_neg (by omega)
  · simp only [UInt8.le_iff_toNat_le, UInt8.lt_iff_toNat_lt, ha]
    exact ⟨by simp, by simp; omega⟩

/-- A byte that starts three or four is not read as the first of fewer. -/
theorem two?_eq_none {a : UInt8} (h : 0xe0 ≤ a.toNat) (b : UInt8) : two? a b = none := by
  unfold two?
  rw [if_neg]
  simp only [UInt8.le_iff_toNat_le, UInt8.lt_iff_toNat_lt]
  intro ⟨_, hlt⟩
  simp at hlt
  omega

theorem three?_eq_none {a : UInt8} (h : 0xf0 ≤ a.toNat) (b c : UInt8) : three? a b c = none := by
  unfold three?
  rw [if_neg]
  simp only [UInt8.le_iff_toNat_le, UInt8.lt_iff_toNat_lt]
  intro ⟨_, hlt⟩
  simp at hlt
  omega

theorem not_lt_of_le_toNat {a : UInt8} (h : 0x80 ≤ a.toNat) : ¬a < 0x80 := by
  rw [UInt8.lt_iff_toNat_lt]
  simp
  omega

/-- The bytes of a character are read as it, and reading goes on after them. -/
theorem decodeFrom_utf8EncodeChar (c : Char) (rest : Bytes) :
    decodeFrom 0 (String.utf8EncodeChar c ++ rest) = some c :: decodeFrom 0 rest := by
  have hc : Char.ofNat c.val.toNat = c := Char.ofNat_toNat c
  have hv : c.val.toNat < 0xd800 ∨ (0xdfff < c.val.toNat ∧ c.val.toNat < 0x110000) := c.valid
  unfold String.utf8EncodeChar
  generalize c.val.toNat = n at hc hv
  subst hc
  simp only
  split
  · next h1 =>
    simp only [List.cons_append, List.nil_append, decodeFrom, step_one h1]
  split
  · next h1 h2 =>
    have ha : ¬UInt8.ofNat (n / 64 % 32 + 192) < 0x80 :=
      not_lt_of_le_toNat (by rw [toNat_ofNat (by omega)]; omega)
    simp only [List.cons_append, List.nil_append, decodeFrom, step, if_neg ha,
      two?_ofNat (by omega) h2]
  split
  · next h1 h2 h3 =>
    have ha : 0xe0 ≤ (UInt8.ofNat (n / 4096 % 16 + 224)).toNat := by
      rw [toNat_ofNat (by omega)]
      omega
    have hn : ¬UInt8.ofNat (n / 4096 % 16 + 224) < 0x80 :=
      not_lt_of_le_toNat (Nat.le_trans (by decide) ha)
    simp only [List.cons_append, List.nil_append, decodeFrom, step, if_neg hn, two?_eq_none ha,
      three?_ofNat (n := n) (by omega) h3 (by omega)]
  · next h1 h2 h3 =>
    have ha : 0xf0 ≤ (UInt8.ofNat (n / 262144 % 8 + 240)).toNat := by
      rw [toNat_ofNat (by omega)]
      omega
    have hn : ¬UInt8.ofNat (n / 262144 % 8 + 240) < 0x80 :=
      not_lt_of_le_toNat (Nat.le_trans (by decide) ha)
    simp only [List.cons_append, List.nil_append, decodeFrom, step, if_neg hn,
      two?_eq_none (Nat.le_trans (by decide) ha), three?_eq_none ha,
      four?_ofNat (n := n) (by omega) (by omega)]

/-! ## Texts -/

/-- The characters of a text are read back from their bytes. -/
theorem decode_flatMap (cs : List Char) :
    decode (cs.flatMap String.utf8EncodeChar) = cs.map some := by
  induction cs with
  | nil => rfl
  | cons c cs ih =>
    rw [List.flatMap_cons, decode, decodeFrom_utf8EncodeChar, List.map_cons]
    exact congrArg (some c :: ·) ih

/-- The characters of a text are read back from its bytes. -/
theorem decode_encode (s : String) : decode (encode s) = s.toList.map some := by
  rw [encode_eq_flatMap, decode_flatMap]

end Utf8

end Handover

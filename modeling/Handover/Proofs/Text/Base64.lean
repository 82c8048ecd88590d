import Handover.Text.Base64
import Mathlib.Tactic.Common

/-!
# Reading back Base64

A sequence of bytes is written as six-bit numbers (`sextets`), a character each, and padded to
full groups. The characters give the numbers back and the numbers give the bytes back, so what
was written is read back (`decode?_encode`).
-/

namespace Handover.Base64

/-- The six-bit numbers of a sequence of bytes. -/
def sextets : Bytes → List Nat
  | [] => []
  | [a] => [a.toNat / 4, a.toNat % 4 * 16]
  | [a, b] => [a.toNat / 4, a.toNat % 4 * 16 + b.toNat / 16, b.toNat % 16 * 4]
  | a :: b :: c :: rest =>
    a.toNat / 4 :: (a.toNat % 4 * 16 + b.toNat / 16) :: (b.toNat % 16 * 4 + c.toNat / 64) ::
      c.toNat % 64 :: sextets rest

theorem lt_of_mem_sextets (bs : Bytes) : ∀ n ∈ sextets bs, n < 64 := by
  fun_induction sextets bs with
  | case1 => simp
  | case2 a =>
    have ha := a.toNat_lt
    intro n hn
    simp only [List.mem_cons, List.not_mem_nil, or_false] at hn
    omega
  | case3 a b =>
    have ha := a.toNat_lt
    have hb := b.toNat_lt
    intro n hn
    simp only [List.mem_cons, List.not_mem_nil, or_false] at hn
    omega
  | case4 a b c rest ih =>
    have ha := a.toNat_lt
    have hb := b.toNat_lt
    have hc := c.toNat_lt
    intro n hn
    simp only [List.mem_cons] at hn
    rcases hn with h | h | h | h | h
    · omega
    · omega
    · omega
    · omega
    · exact ih n h

/-- The characters of the numbers, and the padding. -/
theorem encodeChars_eq (bs : Bytes) : ∃ padding, encodeChars bs =
    (sextets bs).map symbol ++ List.replicate padding '=' ∧
      padding = (4 - (sextets bs).length % 4) % 4 := by
  fun_induction sextets bs with
  | case1 => exact ⟨0, rfl, rfl⟩
  | case2 a => exact ⟨2, rfl, rfl⟩
  | case3 a b => exact ⟨1, rfl, rfl⟩
  | case4 a b c rest ih =>
    obtain ⟨padding, hrest, hp⟩ := ih
    refine ⟨padding, ?_, ?_⟩
    · simp [encodeChars, hrest]
    · simp only [List.length_cons]
      omega

theorem ofNat_eq {n : Nat} {a : UInt8} (h : n = a.toNat) : UInt8.ofNat n = a := by
  rw [h, UInt8.ofNat_toNat]

/-- Bytes are put together again from their groups of six bits. -/
theorem decodeValues_sextets (bs : Bytes) : decodeValues (sextets bs) = some bs := by
  fun_induction sextets bs with
  | case1 => rfl
  | case2 a =>
    have ha : UInt8.ofNat (a.toNat / 4 * 4 + a.toNat % 4 * 16 / 16) = a := ofNat_eq (by omega)
    simp only [decodeValues]
    rw [if_pos (by omega), ha]
  | case3 a b =>
    have hb' := b.toNat_lt
    have ha : UInt8.ofNat (a.toNat / 4 * 4 + (a.toNat % 4 * 16 + b.toNat / 16) / 16) = a :=
      ofNat_eq (by omega)
    have hb : UInt8.ofNat ((a.toNat % 4 * 16 + b.toNat / 16) % 16 * 16 + b.toNat % 16 * 4 / 4) = b :=
      ofNat_eq (by omega)
    simp only [decodeValues]
    rw [if_pos (by omega), ha, hb]
  | case4 a b c rest ih =>
    have hb' := b.toNat_lt
    have hc' := c.toNat_lt
    have ha : UInt8.ofNat (a.toNat / 4 * 4 + (a.toNat % 4 * 16 + b.toNat / 16) / 16) = a :=
      ofNat_eq (by omega)
    have hb : UInt8.ofNat ((a.toNat % 4 * 16 + b.toNat / 16) % 16 * 16 +
        (b.toNat % 16 * 4 + c.toNat / 64) / 4) = b := ofNat_eq (by omega)
    have hc : UInt8.ofNat ((b.toNat % 16 * 4 + c.toNat / 64) % 4 * 64 + c.toNat % 64) = c :=
      ofNat_eq (by omega)
    simp only [decodeValues, ih, Option.map_some, ha, hb, hc]

theorem symbol_ne : ∀ n < 64, symbol n ≠ '=' := by decide

/-- A symbol has its value. -/
theorem value?_symbol : ∀ n < 64, value? (symbol n) = some n := by decide

theorem mapM_value?_symbol {ns : List Nat} (h : ∀ n ∈ ns, n < 64) :
    (ns.map symbol).mapM value? = some ns := by
  induction ns with
  | nil => rfl
  | cons n ns ih =>
    have hn := value?_symbol n (h n (by simp))
    have hns := ih fun m hm => h m (by simp [hm])
    simp [List.mapM_cons, hn, hns]

/-- Bytes that were written are read back. -/
theorem decode?_encode (bs : Bytes) : decode? (encode bs) = some bs := by
  obtain ⟨padding, hchars, hp⟩ := encodeChars_eq bs
  have hlt := lt_of_mem_sextets bs
  have hne : ∀ c ∈ (sextets bs).map symbol, (c != '=') = true := by
    simpa using fun n hn => symbol_ne n (hlt n hn)
  have htake : (encodeChars bs).takeWhile (· != '=') = (sextets bs).map symbol := by
    rw [hchars, List.takeWhile_append_of_pos hne]
    simp
  have hdrop : (encodeChars bs).dropWhile (· != '=') = List.replicate padding '=' := by
    rw [hchars, List.dropWhile_append_of_pos hne]
    simp
  unfold decode? encode
  simp only [String.toList_ofList, htake, hdrop]
  rw [if_pos, mapM_value?_symbol hlt, Option.bind_some, decodeValues_sextets]
  simp [hp]

/-- Bytes are read back from base 64. -/
@[simp] theorem ofJson?_toJson (bs : Bytes) : ofJson? (toJson bs) = some bs := by
  simp [ofJson?, toJson, Json.string?, decode?_encode]

end Handover.Base64

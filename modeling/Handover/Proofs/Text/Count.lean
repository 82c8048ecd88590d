import Handover.Proofs.Json.ReadBack
import Handover.Text.Count

/-!
# Whole numbers as they are written

A number is read from its decimal digits.
-/

namespace Handover

/-- A number that was written is read. -/
theorem count?_toString {bound n : Nat} (h : n < bound) :
    count? bound (toString n) = some ⟨n, h⟩ := by
  have hdigits : ∀ c ∈ Nat.toDigits 10 n, c.isDigit = true := fun c hc =>
    Nat.isDigit_of_mem_toDigits (by decide) (by decide) hc
  have htext : (toString n).toList = Nat.toDigits 10 n := by
    simp [Nat.repr]
  have hvalue : (Nat.toDigits 10 n).foldl (fun n c => n * 10 + (c.toNat - 48)) 0 = n := by
    have hread := Json.ofDigits_toDigits n
    rwa [Numeral.ofDigits, List.foldl_map] at hread
  have hall : (Nat.toDigits 10 n).all Char.isDigit = true := List.all_eq_true.2 hdigits
  obtain ⟨c, cs, hcs⟩ := List.exists_cons_of_ne_nil (Nat.toDigits_ne_nil (b := 10) (n := n))
  have hc : c ≠ '+' := by
    rintro rfl
    exact absurd (hdigits '+' (by simp [hcs])) (by decide)
  rw [hcs] at htext hvalue hall
  unfold count?
  rw [htext]
  simp [hc, hall, hvalue, h]

end Handover

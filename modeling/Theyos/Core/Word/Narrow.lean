import Mathlib.Data.Nat.Bitwise
import Mathlib.Data.UInt

/-!
# Checked 32-bit words and masks

Sums and products that report an overflow, and the numbers that a mask of low bits cuts
out of a word. Every fact is about the natural numbers that the words stand for.
-/

namespace Theyos

/-- Addition that reports overflow instead of wrapping. -/
def checkedAdd32 (a b : UInt32) : Option UInt32 :=
  if a.toNat + b.toNat < 2 ^ 32 then some (a + b) else none

/-- Multiplication that reports overflow instead of wrapping. -/
def checkedMul32 (a b : UInt32) : Option UInt32 :=
  if a.toNat * b.toNat < 2 ^ 32 then some (a * b) else none

theorem checked32_eq_some {n : ℕ} {w c : UInt32} (hw : w.toNat = n % 2 ^ 32) :
    (if n < 2 ^ 32 then some w else none) = some c ↔ c.toNat = n := by
  have hc := c.toNat_lt
  rw [Option.ite_none_right_eq_some, Option.some.injEq, ← UInt32.toNat_inj, hw]
  omega

theorem checkedAdd32_eq_some {a b c : UInt32} :
    checkedAdd32 a b = some c ↔ c.toNat = a.toNat + b.toNat :=
  checked32_eq_some (UInt32.toNat_add a b)

theorem checkedMul32_eq_some {a b c : UInt32} :
    checkedMul32 a b = some c ↔ c.toNat = a.toNat * b.toNat :=
  checked32_eq_some (UInt32.toNat_mul a b)

/-- Setting the low bits of a word that has none adds them. -/
theorem toNat_or_low {a low : UInt32} {k : ℕ} (hlow : low.toNat = 2 ^ k - 1)
    (ha : a.toNat % 2 ^ k = 0) : (a ||| low).toNat = a.toNat + (2 ^ k - 1) := by
  obtain ⟨q, hq⟩ := Nat.dvd_of_mod_eq_zero ha
  rw [UInt32.toNat_or, hlow, hq, ← Nat.two_pow_add_eq_or_of_lt (by omega)]

/-- A word is what a mask keeps of it when the rest is empty. -/
theorem and_eq_self_of_and_not {a mask : UInt32} (h : a &&& ~~~ mask = 0) : a &&& mask = a := by
  have hsplit : a &&& mask ||| a &&& ~~~ mask = a := by
    refine UInt32.toBitVec_inj.mp ?_
    simp only [UInt32.toBitVec_or, UInt32.toBitVec_and, UInt32.toBitVec_not]
    rw [← BitVec.and_or_distrib_left, BitVec.or_not_self, BitVec.and_allOnes]
  rwa [h, UInt32.or_zero] at hsplit

end Theyos

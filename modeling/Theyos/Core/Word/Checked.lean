import Mathlib.Data.UInt

/-!
# Checked 64-bit counters

Counters are machine words advanced only by checked addition, so exhaustion is an explicit `none`
and never a wrapped value. Nonzero words carry the proof that they are nonzero: a zero counter
cannot be built.
-/

namespace Theyos

/-- The largest 64-bit word. -/
def maxU64 : UInt64 := 18446744073709551615

@[simp] theorem toNat_maxU64 : maxU64.toNat = 18446744073709551615 := rfl

theorem UInt64.le_maxU64 (a : UInt64) : a.toNat ≤ maxU64.toNat := by
  have h := a.toNat_lt
  rw [toNat_maxU64]
  omega

theorem toNat_max (a b : UInt64) : (max a b).toNat = max a.toNat b.toNat := by
  have hmax : max a b = if a ≤ b then b else a := rfl
  rw [hmax]
  split
  · rename_i h
    exact (max_eq_right h).symm
  · rename_i h
    exact (max_eq_left (Nat.le_of_not_le h)).symm

/-- Addition that reports overflow instead of wrapping. -/
def checkedAdd (a b : UInt64) : Option UInt64 :=
  if a.toNat + b.toNat < 2 ^ 64 then some (a + b) else none

/-- Subtraction that reports underflow instead of wrapping. -/
def checkedSub (a b : UInt64) : Option UInt64 :=
  if b.toNat ≤ a.toNat then some (a - b) else none

variable {a b : UInt64}

/-- A checked sum is present exactly when it is the exact natural sum. -/
theorem checkedAdd_eq_some {c : UInt64} :
    checkedAdd a b = some c ↔ c.toNat = a.toNat + b.toNat := by
  have hc := c.toNat_lt
  rw [checkedAdd, Option.ite_none_right_eq_some, Option.some.injEq, ← UInt64.toNat_inj,
    UInt64.toNat_add]
  omega

/-- A checked difference is present exactly when it makes up the natural difference. -/
theorem checkedSub_eq_some {c : UInt64} :
    checkedSub a b = some c ↔ a.toNat = b.toNat + c.toNat := by
  have ha := a.toNat_lt
  rw [checkedSub, Option.ite_none_right_eq_some, Option.some.injEq, ← UInt64.toNat_inj,
    UInt64.toNat_sub]
  omega

/-- The successor is refused only at the largest word. -/
theorem checkedAdd_one_eq_none : checkedAdd a 1 = none ↔ a = maxU64 := by
  have h := a.toNat_lt
  have h1 : (1 : UInt64).toNat = 1 := rfl
  rw [checkedAdd, ← UInt64.toNat_inj, toNat_maxU64, ite_eq_right_iff]
  simp only [reduceCtorEq, imp_false]
  omega

/-- A successful successor is exactly one larger. -/
theorem checkedAdd_one_eq_some :
    checkedAdd a 1 = some b ↔ b.toNat = a.toNat + 1 := checkedAdd_eq_some

theorem checkedAdd_one_of_ne (h : a ≠ maxU64) :
    ∃ b, checkedAdd a 1 = some b ∧ b.toNat = a.toNat + 1 := by
  cases hb : checkedAdd a 1 with
  | none => exact absurd (checkedAdd_one_eq_none.mp hb) h
  | some b => exact ⟨b, rfl, checkedAdd_one_eq_some.mp hb⟩

/-- A 64-bit word that is provably nonzero. -/
structure NonZeroU64 where
  /-- The underlying word. -/
  get : UInt64
  /-- Zero has no representation. -/
  ne_zero : get ≠ 0
  deriving DecidableEq, Repr

namespace NonZeroU64

/-- The numeric value of a nonzero word. -/
def toNat (a : NonZeroU64) : Nat := a.get.toNat

variable {a b : NonZeroU64}

theorem toNat_inj : a.toNat = b.toNat ↔ a = b := by
  unfold toNat
  rw [UInt64.toNat_inj]
  exact ⟨fun h => by cases a; cases b; cases h; rfl, congrArg _⟩

theorem toNat_le_max (a : NonZeroU64) : a.toNat ≤ maxU64.toNat := UInt64.le_maxU64 a.get

instance : LT NonZeroU64 := ⟨fun a b => a.get < b.get⟩

instance : LE NonZeroU64 := ⟨fun a b => a.get ≤ b.get⟩

instance (a b : NonZeroU64) : Decidable (a < b) := inferInstanceAs (Decidable (a.get < b.get))

instance (a b : NonZeroU64) : Decidable (a ≤ b) := inferInstanceAs (Decidable (a.get ≤ b.get))

theorem lt_iff : a < b ↔ a.toNat < b.toNat := UInt64.lt_iff_toNat_lt

theorem le_iff : a ≤ b ↔ a.toNat ≤ b.toNat := UInt64.le_iff_toNat_le

/-- The first generation and the first epoch. -/
def one : NonZeroU64 := ⟨1, by decide⟩

@[simp] theorem toNat_one : one.toNat = 1 := rfl

/-- The nonzero view of a word, absent at zero. -/
def new (n : UInt64) : Option NonZeroU64 := if h : n ≠ 0 then some ⟨n, h⟩ else none

theorem new_eq_some {n : UInt64} : new n = some a ↔ n = a.get := by
  unfold new
  constructor
  · intro h
    split at h
    · rw [← Option.some.inj h]
    · cases h
  · rintro rfl
    rw [dif_pos a.ne_zero]

/-- Checked addition of a plain word to a nonzero one. -/
def checkedAdd (a : NonZeroU64) (b : UInt64) : Option NonZeroU64 :=
  (Theyos.checkedAdd a.get b).bind new

/-- A successful successor is exactly one larger. -/
theorem checkedAdd_one_eq_some : a.checkedAdd 1 = some b ↔ b.toNat = a.toNat + 1 := by
  unfold checkedAdd toNat
  rw [Option.bind_eq_some_iff, ← Theyos.checkedAdd_one_eq_some]
  constructor
  · rintro ⟨n, hn, hb⟩
    rw [hn, new_eq_some.mp hb]
  · intro h
    exact ⟨b.get, h, new_eq_some.mpr rfl⟩

/-- The successor is refused only at the largest word. -/
theorem checkedAdd_one_eq_none : a.checkedAdd 1 = none ↔ a.get = maxU64 := by
  constructor
  · intro h
    by_contra hne
    obtain ⟨b, _, hb⟩ := Theyos.checkedAdd_one_of_ne hne
    have hb0 : b ≠ 0 := by
      intro h0
      rw [h0] at hb
      simp at hb
    have hs : a.checkedAdd 1 = some ⟨b, hb0⟩ := checkedAdd_one_eq_some.mpr hb
    rw [hs] at h
    cases h
  · intro h
    rw [checkedAdd, Theyos.checkedAdd_one_eq_none.mpr h, Option.bind_none]

end NonZeroU64

end Theyos

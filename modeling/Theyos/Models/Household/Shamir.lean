import Theyos.Core.Machine.Guard
import Mathlib.FieldTheory.Finite.GaloisField

/-!
# Two shares of a household secret

Every byte of the secret is the value at zero of a line over the field of 256 elements, and a
share holds the values of the lines at its coordinate. Two shares give the secret back, and one
alone fits every secret with as many choices of the slopes.
-/

namespace Theyos.Household

open Machine

def shardXM1 : UInt8 := 1

def shardXM2 : UInt8 := 2

inductive ShamirError where
  | shareIndexZero
  | duplicateShareIndex
  deriving DecidableEq, Repr

/-- The bytes as the elements of a field of characteristic two. -/
structure Gf256 where
  carrier : Type
  [field : Field carrier]
  [charTwo : CharP carrier 2]
  ofByte : UInt8 ≃ carrier
  ofByte_zero : ofByte 0 = 0

namespace Gf256

attribute [instance] field charTwo

variable (gf : Gf256)

/-- The values of the lines at the coordinate `x`. -/
def share (x : UInt8) (secret a : Vector UInt8 32) : Vector UInt8 32 :=
  secret.zipWith (fun s a => gf.ofByte.symm (gf.ofByte s + gf.ofByte a * gf.ofByte x)) a

/-- The two shares of a secret under the random slopes `a`. -/
def splitTwoOfTwo (secret a : Vector UInt8 32) : Vector UInt8 32 × Vector UInt8 32 :=
  (gf.share shardXM1 secret a, gf.share shardXM2 secret a)

/-- The values at zero of the lines through two shares. -/
def reconstructFromTwo (x₁ : UInt8) (y₁ : Vector UInt8 32) (x₂ : UInt8) (y₂ : Vector UInt8 32) :
    Except ShamirError (Vector UInt8 32) := do
  require (x₁ ≠ 0 ∧ x₂ ≠ 0) .shareIndexZero
  require (x₁ ≠ x₂) .duplicateShareIndex
  let diff := gf.ofByte x₂ - gf.ofByte x₁
  return y₁.zipWith (fun ya yb => gf.ofByte.symm
    (gf.ofByte ya * (gf.ofByte x₂ / diff) + gf.ofByte yb * (gf.ofByte x₁ / diff))) y₂

theorem reconstructFromTwo_share {x₁ x₂ : UInt8} (h₁ : x₁ ≠ 0) (h₂ : x₂ ≠ 0) (hne : x₁ ≠ x₂)
    (secret a : Vector UInt8 32) :
    gf.reconstructFromTwo x₁ (gf.share x₁ secret a) x₂ (gf.share x₂ secret a) = .ok secret := by
  have hdiff : gf.ofByte x₂ - gf.ofByte x₁ ≠ 0 := sub_ne_zero.mpr (gf.ofByte.injective.ne hne.symm)
  simp only [reconstructFromTwo, eq_ok_iff]
  refine ⟨⟨h₁, h₂⟩, hne, ?_⟩
  ext i hi : 1
  simp only [share, Vector.getElem_zipWith, Equiv.apply_symm_apply, Equiv.symm_apply_eq]
  field_simp
  -- what the two terms do not cancel is twice something
  linear_combination (gf.ofByte a[i] * gf.ofByte x₁ * gf.ofByte x₂ + gf.ofByte secret[i] *
    gf.ofByte x₁) * (CharTwo.two_eq_zero : (2 : gf.carrier) = 0)

/-- For every secret, the slopes and the values of a share determine each other. -/
def slopes {x : UInt8} (hx : x ≠ 0) (secret : Vector UInt8 32) : Equiv.Perm (Vector UInt8 32) :=
  have hne : gf.ofByte x ≠ 0 := gf.ofByte_zero ▸ gf.ofByte.injective.ne hx
  { toFun := gf.share x secret
    invFun := secret.zipWith fun s y => gf.ofByte.symm ((gf.ofByte y - gf.ofByte s) / gf.ofByte x)
    left_inv := fun a => by ext i hi : 1; simp [share, hne]
    right_inv := fun y => by ext i hi : 1; simp [share, hne] }

/-- Two shares give the secret in either order, and each of them alone fits any other secret under
other slopes, one for one. -/
theorem two_shares_needed :
    (∀ secret a, ∃ share₁ share₂, gf.splitTwoOfTwo secret a = (share₁, share₂) ∧
      gf.reconstructFromTwo shardXM1 share₁ shardXM2 share₂ = .ok secret ∧
      gf.reconstructFromTwo shardXM2 share₂ shardXM1 share₁ = .ok secret) ∧
    ∀ secret secret',
      (∃ σ : Equiv.Perm (Vector UInt8 32), ∀ a,
        (gf.splitTwoOfTwo secret a).1 = (gf.splitTwoOfTwo secret' (σ a)).1) ∧
      ∃ σ : Equiv.Perm (Vector UInt8 32), ∀ a,
        (gf.splitTwoOfTwo secret a).2 = (gf.splitTwoOfTwo secret' (σ a)).2 := by
  have hhidden : ∀ {x : UInt8}, x ≠ 0 → ∀ secret secret', ∃ σ : Equiv.Perm (Vector UInt8 32), ∀ a,
      gf.share x secret a = gf.share x secret' (σ a) := fun hx secret secret' =>
    ⟨(gf.slopes hx secret).trans (gf.slopes hx secret').symm,
      fun a => ((gf.slopes hx secret').apply_symm_apply _).symm⟩
  refine ⟨fun secret a => ⟨_, _, rfl, ?_, ?_⟩, fun secret secret' => ⟨?_, ?_⟩⟩
  · exact gf.reconstructFromTwo_share (by decide) (by decide) (by decide) secret a
  · exact gf.reconstructFromTwo_share (by decide) (by decide) (by decide) secret a
  · exact hhidden (by decide) secret secret'
  · exact hhidden (by decide) secret secret'

open Classical in
theorem two_shares_needed_galois : ∃ gf : Gf256, ∀ secret secret', ∃ σ : Equiv.Perm _, ∀ a,
    (gf.splitTwoOfTwo secret a).1 = (gf.splitTwoOfTwo secret' (σ a)).1 := by
  let bytes : UInt8 ≃ Fin (2 ^ 8) := ⟨UInt8.toFin, UInt8.ofFin, fun _ => rfl, fun _ => rfl⟩
  let e := bytes.trans (Finite.equivFinOfCardEq (GaloisField.card 2 8 (by decide))).symm
  let gf : Gf256 := ⟨GaloisField 2 8, e.trans (.swap (e 0) 0), Equiv.swap_apply_left _ _⟩
  exact ⟨gf, fun secret secret' => (gf.two_shares_needed.2 secret secret').1⟩

end Gf256

end Theyos.Household

import Mathlib.Data.List.Infix

/-!
# Versioned stores

A store whose writers replace its content only after comparing version numbers. A lineage lists
what was stored, the newest first: the first content, and then one derivation after the other,
each with the next version.
-/

namespace Theyos.Versioned

variable {ρ : Type*}

/-- The successive contents of a store, the newest first. -/
inductive Lineage (version : ρ → ℕ) (R : ρ → ρ → Prop) (first : ρ) : List ρ → Prop
  | empty : Lineage version R first []
  | first : Lineage version R first [first]
  | grow {r r' : ρ} {chain : List ρ} (h : Lineage version R first (r :: chain)) (hr : R r r')
      (hversion : version r' = version r + 1) : Lineage version R first (r' :: r :: chain)

variable {version : ρ → ℕ} {R : ρ → ρ → Prop} {first : ρ}

namespace Lineage

/-- The newest content has the largest version. -/
theorem version_le {cur : ρ} {chain : List ρ} (h : Lineage version R first (cur :: chain)) {r : ρ}
    (hr : r ∈ cur :: chain) : version r ≤ version cur := by
  generalize hcontents : cur :: chain = contents at h hr
  induction h generalizing cur chain with
  | empty => cases hr
  | first =>
    obtain ⟨rfl, _⟩ := List.cons.inj hcontents
    rw [List.mem_singleton.mp hr]
  | @grow r₀ _ _ _ _ hversion ih =>
    obtain ⟨rfl, rfl⟩ := List.cons.inj hcontents
    rcases List.mem_cons.mp hr with rfl | hr
    · exact Nat.le_refl _
    · have := ih rfl hr
      omega

/-- A version determines the content stored under it. -/
theorem eq_of_version_eq {contents : List ρ} (h : Lineage version R first contents) {r s : ρ}
    (hr : r ∈ contents) (hs : s ∈ contents) (hversion : version r = version s) : r = s := by
  induction h with
  | empty => cases hr
  | first => rw [List.mem_singleton.mp hr, List.mem_singleton.mp hs]
  | grow hchain _ hnext ih =>
    rcases List.mem_cons.mp hr with rfl | hr' <;> rcases List.mem_cons.mp hs with rfl | hs'
    · rfl
    · have := hchain.version_le hs'
      omega
    · have := hchain.version_le hr'
      omega
    · exact ih hr' hs'

/-- The optimistic write rule: what was derived from some stored content and carries the version
after the current one was derived from the current one. -/
theorem derived {cur base new : ρ} {chain : List ρ}
    (h : Lineage version R first (cur :: chain)) (hbase : base ∈ cur :: chain)
    (hnew : new = base ∨ R base new ∧ version new = version base + 1)
    (hversion : version new = version cur + 1) : R cur new := by
  rcases hnew with rfl | ⟨hR, hnext⟩
  · have := h.version_le hbase
    omega
  · have heq : base = cur := h.eq_of_version_eq hbase List.mem_cons_self (by omega)
    exact heq ▸ hR

end Lineage

end Theyos.Versioned

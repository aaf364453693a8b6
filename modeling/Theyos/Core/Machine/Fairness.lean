import Mathlib.Order.Lattice

/-!
# Progress along fair behaviours

A behaviour is an infinite run of a transition system in which nothing may happen for a while. An
action is treated fairly when it is taken again and again unless from some point on it is never
possible.
-/

namespace Theyos.Machine

variable {σ α : Type*} {next : σ → α → Option σ}

/-- An infinite run of a transition system. -/
structure Behaviour (next : σ → α → Option σ) where
  state : ℕ → σ
  /-- What happens at each instant, if anything does. -/
  action : ℕ → Option α
  step : ∀ n, (action n).elim (some (state n)) (next (state n)) = some (state (n + 1))

/-- Whenever the first condition holds, the second holds then or later. -/
def LeadsTo (P Q : ℕ → Prop) : Prop := ∀ n, P n → ∃ m ≥ n, Q m

namespace LeadsTo

variable {P Q R : ℕ → Prop}

theorem trans (hPQ : LeadsTo P Q) (hQR : LeadsTo Q R) : LeadsTo P R := by
  intro n hP
  obtain ⟨m, hm, hQ⟩ := hPQ n hP
  obtain ⟨k, hk, hR⟩ := hQR m hQ
  exact ⟨k, hm.trans hk, hR⟩

/-- A rank that is lowered as long as the goal is not reached. -/
theorem of_rank (rank : ℕ → ℕ) (h : ∀ n, P n → ∃ m ≥ n, Q m ∨ P m ∧ rank m < rank n) :
    LeadsTo P Q := by
  intro n
  induction hrank : rank n using Nat.strong_induction_on generalizing n with
  | _ k ih =>
    intro hP
    obtain ⟨m, hm, hQ | ⟨hP, hlower⟩⟩ := h n hP
    · exact ⟨m, hm, hQ⟩
    · obtain ⟨l, hl, hQ⟩ := ih (rank m) (hrank ▸ hlower) m rfl hP
      exact ⟨l, hm.trans hl, hQ⟩

end LeadsTo

namespace Behaviour

variable (b : Behaviour next) {a : α} {P Q : σ → Prop}

/-- An action is taken again and again if it is possible again and again. -/
def StronglyFair (a : α) : Prop :=
  (∀ n, ∃ m ≥ n, (next (b.state m) a).isSome) → ∀ n, ∃ m ≥ n, b.action m = some a

variable {b}

/-- What happens between two instants. -/
theorem step_cases (n : ℕ) :
    b.state (n + 1) = b.state n ∨
      ∃ a, b.action n = some a ∧ next (b.state n) a = some (b.state (n + 1)) := by
  have hstep := b.step n
  cases haction : b.action n with
  | none =>
    rw [haction] at hstep
    exact .inl (Option.some.inj hstep).symm
  | some a =>
    rw [haction] at hstep
    exact .inr ⟨a, rfl, hstep⟩

/-- What every step keeps is kept. -/
theorem keeps {I : σ → Prop} (hstep : ∀ s a s', I s → next s a = some s' → I s') {n m : ℕ}
    (hnm : n ≤ m) (hn : I (b.state n)) : I (b.state m) := by
  induction m, hnm using Nat.le_induction with
  | base => exact hn
  | succ m _ ih =>
    rcases b.step_cases m with hsame | ⟨a, -, hnext⟩
    · rwa [hsame]
    · exact hstep _ a _ ih hnext

/-- An action that is treated fairly and brings about the goal leads there. -/
theorem StronglyFair.leadsTo (hfair : b.StronglyFair a)
    (hkeep : ∀ n a' s, P (b.state n) → next (b.state n) a' = some s → a' ≠ a → P s)
    (hact : ∀ n s, P (b.state n) → next (b.state n) a = some s → Q s)
    (henabled : ∀ n, (∀ m ≥ n, P (b.state m)) → ∃ m ≥ n, (next (b.state m) a).isSome) :
    LeadsTo (fun n => P (b.state n)) fun n => Q (b.state n) := by
  intro n hP
  by_contra hnever
  push Not at hnever
  have hstays (m : ℕ) (hm : n ≤ m) : P (b.state m) := by
    induction m, hm using Nat.le_induction with
    | base => exact hP
    | succ m hm ih =>
      rcases b.step_cases m with hsame | ⟨a', -, hnext⟩
      · rwa [hsame]
      · refine hkeep m a' _ ih hnext ?_
        rintro rfl
        exact hnever _ (by omega) (hact m _ ih hnext)
  have hoften (k : ℕ) : ∃ m ≥ k, (next (b.state m) a).isSome := by
    obtain ⟨m, hm, henabled⟩ := henabled (max n k) fun m hm => hstays m (by omega)
    exact ⟨m, by omega, henabled⟩
  obtain ⟨m, hm, haction⟩ := hfair hoften n
  have hstep := b.step m
  rw [haction] at hstep
  exact hnever (m + 1) (by omega) (hact m _ (hstays m hm) hstep)

section

variable {start last : σ} {actions : List α}

variable (h : actions.foldlM next start = some last)

include h

theorem foldlM_take_isSome (n : ℕ) : ((actions.take n).foldlM next start).isSome := by
  rw [← List.take_append_drop n actions, List.foldlM_append] at h
  obtain ⟨s, hs, -⟩ := Option.bind_eq_some_iff.mp h
  rw [hs]
  rfl

/-- The behaviour that takes the actions of a list and then stops. -/
def ofList : Behaviour next where
  state n := ((actions.take n).foldlM next start).getD start
  action n := actions[n]?
  step n := by
    obtain ⟨s, hs⟩ := Option.isSome_iff_exists.mp (foldlM_take_isSome h n)
    obtain ⟨s', hs'⟩ := Option.isSome_iff_exists.mp (foldlM_take_isSome h (n + 1))
    rw [hs, hs']
    cases hn : actions[n]? with
    | none =>
      have hlength := List.getElem?_eq_none_iff.mp hn
      rw [List.take_of_length_le hlength] at hs
      rw [List.take_of_length_le (by omega)] at hs'
      exact hs.symm.trans hs'
    | some a =>
      rw [List.take_add_one, List.foldlM_append, hs, hn] at hs'
      simpa using hs'

/-- Actions that are not possible at the end are treated fairly. -/
theorem stronglyFair_ofList (hend : next last a = none) : (ofList h).StronglyFair a := by
  intro hoften
  obtain ⟨m, hm, hsome⟩ := hoften actions.length
  have hstate : (ofList h).state m = last := by
    simp only [ofList, List.take_of_length_le hm, h, Option.getD_some]
  rw [hstate, hend] at hsome
  cases hsome

end

end Behaviour

end Theyos.Machine

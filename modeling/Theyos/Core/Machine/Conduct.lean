import Mathlib.Data.List.Basic

/-!
# Runs under a condition

A run takes one possible action after another. A condition on each action, in the state in
which it is taken, holds along a run; an invariant that every such action keeps holds at
the end of every such run.
-/

namespace Theyos.Machine

variable {σ α : Type*}

/-- The condition holds of every action of a run, in the state in which it is taken. -/
def Throughout (next : σ → α → Option σ) (C : σ → α → Prop) (s : σ) : List α → Prop
  | [] => True
  | a :: actions => C s a ∧ (next s a).elim True (Throughout next C · actions)

variable {next : σ → α → Option σ} {C : σ → α → Prop} {I : σ → Prop}

instance instDecidableThroughout [∀ s a, Decidable (C s a)] (s : σ) (actions : List α) :
    Decidable (Throughout next C s actions) :=
  match actions with
  | [] => isTrue trivial
  | a :: actions =>
    match h : next s a with
    | none => decidable_of_iff (C s a) (by simp [Throughout, h])
    | some t =>
      have := instDecidableThroughout t actions
      decidable_of_iff (C s a ∧ Throughout next C t actions) (by simp [Throughout, h])

/-- An invariant that the actions of a run keep holds at its end. -/
theorem Throughout.keeps (hstep : ∀ s a t, I s → C s a → next s a = some t → I t) {s t : σ}
    {actions : List α} (hthroughout : Throughout next C s actions) (hs : I s)
    (hrun : actions.foldlM next s = some t) : I t := by
  induction actions generalizing s with
  | nil =>
    cases hrun
    exact hs
  | cons a actions ih =>
    obtain ⟨ha, hrest⟩ := hthroughout
    obtain ⟨u, hu, hrun⟩ := Option.bind_eq_some_iff.mp hrun
    rw [hu] at hrest
    exact ih hrest (hstep s a u hs ha hu) hrun

end Theyos.Machine

import Mathlib.Data.List.Basic
import Mathlib.Data.List.Induction
import Mathlib.Data.List.Pairwise

/-!
# What a history has seen

A history is the list of observations so far, the latest last. `Since`, `Linked` and `Justified`
say what was observed, in which order and with what in between; all are kept or established by
looking at the observation appended last.
-/

namespace Theyos.Machine

variable {α : Type*} {A B C : α → Prop} {R : α → α → Prop} {history : List α} {x : α}

/-- An observation in `A` was made, and only observations in `B` after it. -/
def Since (A B : α → Prop) (history : List α) : Prop :=
  ∃ before a after, history = before ++ a :: after ∧ A a ∧ ∀ y ∈ after, B y

/-- Two related observations were made, with only observations in `B` between them. -/
def Linked (R : α → α → Prop) (B : α → Prop) (history : List α) : Prop :=
  ∃ before a between c after,
    history = before ++ a :: (between ++ c :: after) ∧ R a c ∧ ∀ y ∈ between, B y

/-- Of two splits of a history, one is behind the other, or they agree. -/
theorem split_cases {before after history' : List α} {y : α}
    (h : history ++ x :: history' = before ++ y :: after) :
    (∃ between, before = history ++ x :: between ∧ history' = between ++ y :: after) ∨
      (before = history ∧ y = x ∧ after = history') ∨
        ∃ between, history = before ++ y :: between ∧ after = between ++ x :: history' := by
  rcases List.append_eq_append_iff.mp h with ⟨mid, rfl, hmid⟩ | ⟨mid, rfl, hmid⟩ <;>
  cases mid <;> obtain ⟨rfl, rfl⟩ := List.cons.inj hmid <;> simp

namespace Since

/-- The latest observation is one since which nothing happened. -/
theorem latest (h : A x) : Since A B (history ++ [x]) :=
  ⟨history, x, [], rfl, h, nofun⟩

/-- An observation in `B` interrupts nothing. -/
theorem snoc (h : Since A B history) (hx : B x) : Since A B (history ++ [x]) := by
  obtain ⟨before, a, after, rfl, ha, hafter⟩ := h
  refine ⟨before, a, after ++ [x], by simp, ha, ?_⟩
  intro y hy
  rcases List.mem_append.mp hy with hy | hy
  · exact hafter y hy
  · rwa [List.mem_singleton.mp hy]

/-- Since the latest observation nothing happened, and since an earlier one it did. -/
theorem snoc_iff : Since A B (history ++ [x]) ↔ A x ∨ Since A B history ∧ B x := by
  constructor
  · rintro ⟨before, a, after, hsplit, ha, hafter⟩
    obtain ⟨_, _, hnil⟩ | ⟨_, rfl, _⟩ | ⟨between, hinit, rfl⟩ := split_cases hsplit
    · simp at hnil
    · exact .inl ha
    · exact .inr ⟨⟨before, a, between, hinit, ha, fun y hy => hafter y (by simp [hy])⟩,
        hafter x (by simp)⟩
  · rintro (hx | ⟨h, hx⟩)
    · exact .latest hx
    · exact h.snoc hx

/-- What is known of every observation can be added to the first one. -/
theorem imp (h : Since A B history) (hA : ∀ a ∈ history, A a → C a) : Since C B history := by
  obtain ⟨before, a, after, rfl, ha, hafter⟩ := h
  exact ⟨before, a, after, rfl, hA a (by simp) ha, hafter⟩

/-- An observation related to the first one completes a pair. -/
theorem linked (h : Since A B history) (hx : ∀ a, A a → R a x) : Linked R B (history ++ [x]) := by
  obtain ⟨before, a, after, rfl, ha, hafter⟩ := h
  exact ⟨before, a, after, x, [], by simp, hx a ha, hafter⟩

end Since

namespace Linked

/-- A pair that was observed stays observed. -/
theorem snoc (h : Linked R B history) (x : α) : Linked R B (history ++ [x]) := by
  obtain ⟨before, a, between, c, after, rfl, hac, hbetween⟩ := h
  exact ⟨before, a, between, c, after ++ [x], by simp, hac, hbetween⟩

end Linked

section

variable {before after history' : List α} {y : α}

theorem mem_of_split (h : history = before ++ y :: after) : y ∈ history := by
  simp [h]

/-- An observation that lies outside what came first and is not the one in the middle came
later. -/
theorem split_after (h : history ++ x :: history' = before ++ y :: after)
    (hfirst : ∀ z ∈ history, ¬ A z) (hx : ¬ A x) (hy : A y) :
    ∃ between, before = history ++ x :: between ∧ history' = between ++ y :: after := by
  obtain hlater | ⟨_, rfl, _⟩ | ⟨_, hmem, _⟩ := split_cases h
  · exact hlater
  · exact absurd hy hx
  · exact absurd hy (hfirst y (mem_of_split hmem))

/-- The only observation of a kind splits a history in one way. -/
theorem split_unique (h : history ++ x :: history' = before ++ y :: after)
    (hfirst : ∀ z ∈ history, ¬ A z) (hlast : ∀ z ∈ history', ¬ A z) (hy : A y) :
    before = history ∧ y = x ∧ after = history' := by
  obtain ⟨between, _, rfl⟩ | hsame | ⟨_, hmem, _⟩ := split_cases h
  · exact absurd hy (hlast y (by simp))
  · exact hsame
  · exact absurd hy (hfirst y (mem_of_split hmem))

end

/-- Each observation is justified by those before it. -/
def Justified (J : List α → α → Prop) (history : List α) : Prop :=
  ∀ before x after, history = before ++ x :: after → J before x

namespace Justified

variable {J : List α → α → Prop}

theorem nil : Justified J [] := by
  intro before x after h
  cases before <;> cases h

/-- An observation is appended with its own justification. -/
theorem snoc_iff : Justified J (history ++ [x]) ↔ Justified J history ∧ J history x := by
  constructor
  · refine fun h => ⟨fun before y after hsplit => h before y (after ++ [x]) ?_, h history x [] rfl⟩
    rw [hsplit, List.append_assoc, List.cons_append]
  · rintro ⟨hhistory, hx⟩ before y after hsplit
    obtain ⟨_, _, hnil⟩ | ⟨rfl, rfl, _⟩ | ⟨between, hinit, _⟩ := split_cases hsplit
    · simp at hnil
    · exact hx
    · exact hhistory before y between hinit

/-- What is never observed again is observed at most once. -/
theorem countP_le_one {p : α → Bool}
    (h : Justified (fun before x => p x → ∀ y ∈ before, ¬ p y) history) :
    history.countP p ≤ 1 := by
  induction history using List.reverseRecOn with
  | nil => simp
  | append_singleton history x ih =>
    obtain ⟨hhistory, hx⟩ := snoc_iff.mp h
    rw [List.countP_append, List.countP_singleton]
    split
    · rename_i hpx
      simp [List.countP_eq_zero.mpr (hx hpx)]
    · exact ih hhistory

end Justified

/-- What is recorded at most once was recorded by one observation. -/
theorem eq_of_nodup_filterMap {β : Type*} {f : α → Option β} {y : α} {b : β}
    (hnodup : (history.filterMap f).Nodup) (hx : x ∈ history) (hy : y ∈ history)
    (hfx : f x = some b) (hfy : f y = some b) : x = y := by
  by_contra hne
  have hsymm : Std.Symm fun u v => ∀ c, f u = some c → ∀ d, f v = some d → c ≠ d :=
    ⟨fun _ _ h c hc d hd => (h d hd c hc).symm⟩
  exact (List.pairwise_filterMap.mp hnodup).forall hx hy hne b hfx b hfy rfl

end Theyos.Machine

import Mathlib.Data.List.Infix

/-!
# Hash chains

Events of which each names the hash of the one before it. `Chained named prev z xs w` says that
the first event names `z`, that each later one names the hash of its predecessor, and that `w` is
the hash of the last.
-/

namespace Theyos.HashChain

variable {ε η β : Type*}

/-- The events lead from the hash `z` to the hash `w`. -/
inductive Chained (named : ε → η → Prop) (prev : ε → η) : η → List ε → η → Prop
  | nil (z : η) : Chained named prev z [] z
  | cons {x : ε} {xs : List ε} {h w : η} (hx : named x h) (hxs : Chained named prev h xs w) :
      Chained named prev (prev x) (x :: xs) w

variable {named : ε → η → Prop} {prev : ε → η} {z v w : η} {x : ε} {xs ys : List ε}

namespace Chained

theorem nil_iff : Chained named prev z [] w ↔ z = w :=
  ⟨fun h => by cases h; rfl, fun h => h ▸ .nil z⟩

theorem cons_iff : Chained named prev z (x :: xs) w ↔
    prev x = z ∧ ∃ h, named x h ∧ Chained named prev h xs w := by
  constructor
  · intro h
    cases h with
    | cons hx hxs => exact ⟨rfl, _, hx, hxs⟩
  · rintro ⟨rfl, h, hx, hxs⟩
    exact .cons hx hxs

theorem append_iff : Chained named prev z (xs ++ ys) w ↔
    ∃ v, Chained named prev z xs v ∧ Chained named prev v ys w := by
  induction xs generalizing z with
  | nil => simp [nil_iff]
  | cons x xs ih =>
    simp only [List.cons_append, cons_iff, ih]
    tauto

theorem snoc_iff : Chained named prev z (xs ++ [x]) w ↔
    Chained named prev z xs (prev x) ∧ named x w := by
  simp only [append_iff, cons_iff, nil_iff]
  grind

/-- The head of a nonempty chain is the hash of its last event. -/
theorem named_getLast (h : Chained named prev z xs w) {last : ε} (hlast : xs.getLast? = some last) :
    named last w := by
  rcases List.eq_nil_or_concat' xs with rfl | ⟨init, y, rfl⟩
  · cases hlast
  · rw [List.getLast?_concat] at hlast
    cases hlast
    exact (snoc_iff.mp h).2

/-- A head commits to the contents of everything before it. -/
theorem map_eq {body : ε → β}
    (hbody : ∀ x ∈ xs, ∀ y ∈ ys, ∀ h, named x h → named y h → body x = body y)
    (hprev : ∀ x y, body x = body y → prev x = prev y) (hxs : Chained named prev z xs w)
    (hys : Chained named prev z ys w) (hlength : xs.length = ys.length) :
    xs.map body = ys.map body := by
  induction xs using List.reverseRecOn generalizing ys w with
  | nil =>
    rw [List.length_nil, eq_comm, List.length_eq_zero_iff] at hlength
    rw [hlength]
  | append_singleton xs x ih =>
    rcases List.eq_nil_or_concat' ys with rfl | ⟨ys, y, rfl⟩
    · simp at hlength
    · obtain ⟨hxs, hx⟩ := snoc_iff.mp hxs
      obtain ⟨hys, hy⟩ := snoc_iff.mp hys
      have hxy : body x = body y := hbody x (by simp) y (by simp) w hx hy
      rw [hprev x y hxy] at hxs
      have hinit := ih (fun a ha b hb => hbody a (by simp [ha]) b (by simp [hb])) hxs hys
        (by simpa using hlength)
      rw [List.map_append, List.map_append, hinit, List.map_singleton, List.map_singleton, hxy]

end Chained

end Theyos.HashChain

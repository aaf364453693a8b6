import Mathlib.Data.List.Basic

/-!
# Tables of tasks

The tasks of a concurrent program are listed, and a step replaces one of them. What is
known of the others is unchanged, and a count of tasks changes with the one that moved.
-/

namespace Theyos.Machine

variable {α : Type*} {tasks : List α} {i j : ℕ} {a b c : α} {p : α → Bool}

/-- Something is known of every task. -/
def AllTasks (P : ℕ → α → Prop) (tasks : List α) : Prop := ∀ i a, tasks[i]? = some a → P i a

namespace AllTasks

variable {P Q : ℕ → α → Prop}

theorem nil : AllTasks P [] := fun _ _ h => by cases h

variable (h : AllTasks P tasks)

include h

theorem mono (hPQ : ∀ i a, P i a → Q i a) : AllTasks Q tasks :=
  fun i a hi => hPQ i a (h i a hi)

/-- One task moves, and what is known of the others still holds. -/
theorem set (hb : Q i b) (hothers : ∀ j a, j ≠ i → P j a → Q j a) : AllTasks Q (tasks.set i b) := by
  intro j a hj
  rw [List.getElem?_set] at hj
  split at hj
  · rename_i hij
    split at hj
    · exact hij ▸ Option.some.inj hj ▸ hb
    · cases hj
  · rename_i hij
    exact hothers j a (Ne.symm hij) (h j a hj)

/-- One task is added. -/
theorem append (hb : Q tasks.length b) (hothers : ∀ j a, P j a → Q j a) :
    AllTasks Q (tasks ++ [b]) := by
  intro j a hj
  rw [List.getElem?_append] at hj
  split at hj
  · exact hothers j a (h j a hj)
  · rw [List.getElem?_singleton] at hj
    split at hj
    · have : j = tasks.length := by omega
      exact this ▸ Option.some.inj hj ▸ hb
    · cases hj

/-- Every task moves. -/
theorem map {f : α → α} (hf : ∀ j a, P j a → Q j (f a)) : AllTasks Q (tasks.map f) := by
  intro j a hj
  rw [List.getElem?_map, Option.map_eq_some_iff] at hj
  obtain ⟨b, hb, rfl⟩ := hj
  exact hf j b (h j b hb)

end AllTasks

variable (h : tasks[i]? = some a)

include h

/-- The tasks around one of them. -/
theorem exists_split_task :
    ∃ before after, tasks = before ++ a :: after ∧ ∀ b, tasks.set i b = before ++ b :: after := by
  obtain ⟨hi, rfl⟩ := List.getElem?_eq_some_iff.mp h
  refine ⟨tasks.take i, tasks.drop (i + 1), ?_, fun b => ?_⟩
  · rw [List.getElem_cons_drop, List.take_append_drop]
  · rw [List.set_eq_take_append_cons_drop, if_pos hi]

/-- A task that is not selected moves without being selected. -/
theorem filter_set_of_not (ha : p a = false) (hb : p b = false) :
    (tasks.set i b).filter p = tasks.filter p := by
  obtain ⟨before, after, hsplit, hset⟩ := exists_split_task h
  rw [hset b, hsplit]
  simp [ha, hb]

/-- The only task that is selected moves. -/
theorem filter_set_of_single (ha : p a = true)
    (hone : tasks.filter p = [c]) : a = c ∧ ∀ b, (tasks.set i b).filter p = [b].filter p := by
  obtain ⟨before, after, hsplit, hset⟩ := exists_split_task h
  rw [hsplit, List.filter_append, List.filter_cons_of_pos ha] at hone
  obtain ⟨hbefore, hrest⟩ | ⟨hbefore, hrest⟩ := List.append_eq_singleton_iff.mp hone
  · obtain ⟨rfl, hafter⟩ := List.cons.inj hrest
    refine ⟨rfl, fun b => ?_⟩
    rw [hset b, List.filter_append, hbefore]
    cases hb : p b <;> simp [hb, hafter]
  · cases hrest

/-- A count changes with the task that moves. -/
theorem countP_set_task :
    (tasks.set i b).countP p + (p a).toNat = tasks.countP p + (p b).toNat := by
  obtain ⟨hi, rfl⟩ := List.getElem?_eq_some_iff.mp h
  rw [List.countP_set hi]
  cases ha : p tasks[i] with
  | false => cases p b <;> simp
  | true =>
    have := List.countP_pos_iff.mpr ⟨_, List.getElem_mem hi, ha⟩
    cases p b <;> simp <;> omega

/-- A task that is counted is one of at least one. -/
theorem countP_pos_of_task (ha : p a = true) : 0 < tasks.countP p :=
  List.countP_pos_iff.mpr ⟨a, List.mem_of_getElem? h, ha⟩

end Theyos.Machine

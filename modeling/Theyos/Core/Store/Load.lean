import Mathlib.Algebra.Order.BigOperators.Group.List

/-!
# What the rows of a table weigh

The load of a table is the sum of the weights of its rows. A change that makes no row
heavier does not raise it, and lowers it by what one row got lighter.
-/

namespace Theyos.Store

variable {α M : Type*} [AddCommMonoid M]

/-- What the rows of a table weigh together. -/
def load (w : α → M) (table : List α) : M := (table.map w).sum

section

variable (w : α → M)

@[simp]
theorem load_nil : load w [] = 0 := rfl

@[simp]
theorem load_cons (row : α) (table : List α) : load w (row :: table) = w row + load w table := by
  simp [load]

@[simp]
theorem load_append (table rows : List α) :
    load w (table ++ rows) = load w table + load w rows := by
  simp [load]

theorem load_map (f : α → α) (table : List α) : load w (table.map f) = load (w ∘ f) table := by
  simp [load]

end

variable [PartialOrder M] [IsOrderedAddMonoid M] {v w : α → M} {table : List α}

/-- Rows that get no heavier weigh no more together. -/
theorem load_le_load (h : ∀ row ∈ table, v row ≤ w row) : load v table ≤ load w table :=
  List.sum_le_sum h

/-- What one row gets lighter by is taken from the load. -/
theorem load_add_le_load {row : α} {amount : M} (hrow : row ∈ table)
    (hlighter : v row + amount ≤ w row) (h : ∀ row ∈ table, v row ≤ w row) :
    load v table + amount ≤ load w table := by
  induction table with
  | nil => exact absurd hrow (List.not_mem_nil)
  | cons other table ih =>
    rcases List.mem_cons.mp hrow with rfl | hrow
    · have hrest : load v table ≤ load w table :=
        load_le_load fun row hmem => h row (List.mem_cons_of_mem _ hmem)
      calc v row + load v table + amount = v row + amount + load v table := add_right_comm ..
        _ ≤ w row + load w table := add_le_add hlighter hrest
    · have hrest := ih hrow fun row hmem => h row (List.mem_cons_of_mem _ hmem)
      calc v other + load v table + amount = v other + (load v table + amount) := add_assoc ..
        _ ≤ w other + load w table := add_le_add (h other List.mem_cons_self) hrest

end Theyos.Store

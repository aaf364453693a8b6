import Mathlib.Data.List.Perm.Basic

/-!
# Recycled indices

Indices are handed out from a counter, and an index that is given back is handed out again
before the counter moves on. The indices in use and the free ones are exactly those below
the counter, each of them once.
-/

namespace Theyos

/-- The indices in use and the free ones are those below the counter, each once. -/
def Recycled (used free : List ℕ) (next : ℕ) : Prop := (used ++ free).Perm (List.range next)

namespace Recycled

variable {used free : List ℕ} {next i : ℕ}

theorem empty : Recycled [] [] 0 := List.Perm.refl _

section

variable (h : Recycled used free next)

include h

theorem nodup : (used ++ free).Nodup :=
  h.nodup_iff.mpr List.nodup_range

theorem nodup_used : used.Nodup :=
  (List.nodup_append.mp h.nodup).1

theorem length : used.length + free.length = next := by
  rw [← List.length_append, List.Perm.length_eq h, List.length_range]

theorem lt_of_mem_free (hi : i ∈ free) : i < next :=
  List.mem_range.mp (h.mem_iff.mp (List.mem_append_right _ hi))

theorem congr {used' free' : List ℕ} (hused : used'.Perm used)
    (hfree : free'.Perm free) : Recycled used' free' next :=
  (hused.append hfree).trans h

end

/-- Hand out a free index again. -/
theorem reuse (h : Recycled used (free ++ [i]) next) : Recycled (i :: used) free next := by
  refine List.Perm.trans ?_ h
  rw [← List.append_assoc]
  exact (List.perm_append_singleton i _).symm

/-- Hand out a new index when none is free. -/
theorem fresh (h : Recycled used [] next) : Recycled (next :: used) [] (next + 1) := by
  unfold Recycled at h ⊢
  rw [List.range_succ]
  exact (h.cons next).trans (List.perm_append_singleton next _).symm

/-- Give an index back. -/
theorem release (h : Recycled (i :: used) free next) : Recycled used (free ++ [i]) next := by
  refine List.Perm.trans ?_ h
  rw [← List.append_assoc]
  exact List.perm_append_singleton i _

end Recycled

end Theyos

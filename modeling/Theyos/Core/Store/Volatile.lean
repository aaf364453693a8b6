import Mathlib.Data.List.Basic

/-!
# Files and the loss of power

A file is seen with its latest content. Until it is synced, a loss of power may leave
any content it had since the last sync, or part of one. What is left after a loss is
seen from then on and cannot be lost again.
-/

namespace Theyos

/-- A file as it is seen, and what else a loss of power may leave of it. -/
structure Volatile (α : Type*) where
  visible : α
  others : List α
  deriving DecidableEq, Repr

namespace Volatile

variable {α : Type*}

variable (f : Volatile α)

/-- What a loss of power may leave. -/
def survivors : List α := f.visible :: f.others

/-- A file that nothing can be lost of. -/
def settled (content : α) : Volatile α := ⟨content, []⟩

/-- Replace the content at once, without a sync. -/
def replace (content : α) : Volatile α := ⟨content, f.survivors⟩

/-- Overwrite the content in place; what is seen, and what may be left of the new content. -/
def overwrite (seen : α) (parts : List α) : Volatile α :=
  ⟨seen, parts ++ f.survivors⟩

/-- Make the content last. -/
def sync : Volatile α := settled f.visible

/-- Lose power; one of the contents is left. -/
def lose (i : ℕ) : Volatile α := settled (f.survivors.getD i f.visible)

@[simp] theorem survivors_settled (content : α) : (settled content).survivors = [content] := rfl

theorem visible_mem_survivors : f.visible ∈ f.survivors := List.mem_cons_self

theorem mem_survivors_sync {f : Volatile α} {content : α} (h : content ∈ f.sync.survivors) :
    content ∈ f.survivors :=
  List.mem_singleton.mp h ▸ f.visible_mem_survivors

/-- A loss of power leaves something that could be left. -/
theorem mem_survivors_lose {f : Volatile α} {i : ℕ} {content : α}
    (h : content ∈ (f.lose i).survivors) : content ∈ f.survivors := by
  rw [List.mem_singleton.mp h]
  change f.survivors.getD i f.visible ∈ f.survivors
  rw [List.getD_eq_getElem?_getD]
  cases hi : f.survivors[i]? with
  | none => exact f.visible_mem_survivors
  | some left => exact List.mem_of_getElem? hi

end Volatile

end Theyos

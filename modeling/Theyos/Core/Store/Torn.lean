import Mathlib.Data.List.Basic

/-!
# Files that are appended to and the loss of power

Bytes that were appended since the last sync can be cut off anywhere by a loss of power.
A truncation that was not synced can be undone by one. What is left after a loss is seen
from then on and cannot be lost again.
-/

namespace Theyos

/-- Bytes that last, and bytes that a loss of power may cut off anywhere. -/
structure Extent (β : Type*) where
  stable : List β
  fresh : List β
  deriving DecidableEq, Repr

namespace Extent

variable {β : Type*}

/-- All bytes. -/
def whole (e : Extent β) : List β := e.stable ++ e.fresh

/-- What is left when some of the fresh bytes are cut off. -/
def kept (e : Extent β) (k : ℕ) : List β := e.stable ++ e.fresh.take k

/-- Everything that a loss of power may leave. -/
def survivors (e : Extent β) : List (List β) := (List.range (e.fresh.length + 1)).map e.kept

theorem mem_survivors {e : Extent β} {bytes : List β} :
    bytes ∈ e.survivors ↔ ∃ k, bytes = e.kept k := by
  simp only [survivors, List.mem_map, List.mem_range]
  constructor
  · rintro ⟨k, -, rfl⟩
    exact ⟨k, rfl⟩
  · rintro ⟨k, rfl⟩
    refine ⟨min k e.fresh.length, by omega, ?_⟩
    rw [kept, kept, ← List.take_take, List.take_length]

end Extent

/-- A file, and what it was before each truncation that was not synced. -/
structure TornFile (β : Type*) where
  current : Extent β
  older : List (Extent β)
  deriving DecidableEq, Repr

namespace TornFile

variable {β : Type*} (f : TornFile β) (bytes : List β) {left : List β} {n i k : ℕ}

/-- What is read. -/
def visible : List β := f.current.whole

/-- A file that nothing can be lost of. -/
def settled : TornFile β := ⟨⟨bytes, []⟩, []⟩

/-- Append some bytes. -/
def append : TornFile β :=
  { f with current := ⟨f.current.stable, f.current.fresh ++ bytes⟩ }

/-- Cut the file off after some bytes. -/
def truncate (n : ℕ) : TornFile β :=
  ⟨⟨f.current.stable.take n, f.current.fresh.take (n - f.current.stable.length)⟩,
    f.current :: f.older⟩

/-- Make the content last. -/
def sync : TornFile β := settled f.visible

/-- Everything that a loss of power may leave. -/
def survivors : List (List β) :=
  (f.current :: f.older).flatMap Extent.survivors

/-- Lose power; one of the contents is left. -/
def lose (i : ℕ) : TornFile β := settled (f.survivors.getD i f.visible)

@[simp] theorem visible_settled : (settled bytes).visible = bytes :=
  List.append_nil bytes

@[simp] theorem visible_append : (f.append bytes).visible = f.visible ++ bytes := by
  simp [visible, append, Extent.whole]

@[simp] theorem visible_sync : f.sync.visible = f.visible :=
  visible_settled f.visible

@[simp] theorem visible_truncate (n : ℕ) : (f.truncate n).visible = f.visible.take n := by
  simp [visible, truncate, Extent.whole, List.take_append]

variable {f bytes}

theorem mem_survivors_settled : left ∈ (settled bytes).survivors ↔ left = bytes := by
  simp [survivors, settled, Extent.survivors, Extent.kept]

theorem mem_survivors_sync : left ∈ f.sync.survivors ↔ left = f.visible := mem_survivors_settled

theorem visible_mem_survivors (f : TornFile β) : f.visible ∈ f.survivors := by
  refine List.mem_flatMap.mpr ⟨f.current, List.mem_cons_self, ?_⟩
  refine Extent.mem_survivors.mpr ⟨f.current.fresh.length, ?_⟩
  rw [Extent.kept, List.take_length]
  rfl

/-- An append adds what is left of the new bytes. -/
theorem mem_survivors_append (h : left ∈ (f.append bytes).survivors) :
    left ∈ f.survivors ∨ ∃ k, left = f.visible ++ bytes.take k := by
  obtain ⟨e, he, hleft⟩ := List.mem_flatMap.mp h
  rcases List.mem_cons.mp he with rfl | he
  · obtain ⟨k, rfl⟩ := Extent.mem_survivors.mp hleft
    rcases Nat.le_total k f.current.fresh.length with hk | hk
    · refine .inl (List.mem_flatMap.mpr ⟨f.current, List.mem_cons_self, ?_⟩)
      refine Extent.mem_survivors.mpr ⟨k, ?_⟩
      simp only [Extent.kept, append, List.take_append_of_le_length hk]
    · refine .inr ⟨k - f.current.fresh.length, ?_⟩
      simp only [Extent.kept, append, visible, Extent.whole, List.take_append,
        List.take_of_length_le hk, List.append_assoc]
  · exact .inl (List.mem_flatMap.mpr ⟨e, List.mem_cons_of_mem _ he, hleft⟩)

/-- A truncation adds what is left of it. -/
theorem mem_survivors_truncate (h : left ∈ (f.truncate n).survivors) :
    left ∈ f.survivors ∨ left = f.visible.take n := by
  obtain ⟨e, he, hleft⟩ := List.mem_flatMap.mp h
  rcases List.mem_cons.mp he with rfl | he
  · obtain ⟨k, rfl⟩ := Extent.mem_survivors.mp hleft
    rcases Nat.le_total n f.current.stable.length with hn | hn
    · simp [Extent.kept, truncate, visible, Extent.whole, List.take_append,
        Nat.sub_eq_zero_of_le hn]
    · refine .inl (List.mem_flatMap.mpr ⟨f.current, List.mem_cons_self, ?_⟩)
      refine Extent.mem_survivors.mpr ⟨min k (n - f.current.stable.length), ?_⟩
      simp only [Extent.kept, truncate, List.take_of_length_le hn, List.take_take]
  · exact .inl (List.mem_flatMap.mpr ⟨e, he, hleft⟩)

/-- A loss of power leaves something that could be left. -/
theorem visible_lose_mem (f : TornFile β) (i : ℕ) : (f.lose i).visible ∈ f.survivors := by
  rw [lose, visible_settled, List.getD_eq_getElem?_getD]
  cases hi : f.survivors[i]? with
  | none => exact f.visible_mem_survivors
  | some left => exact List.mem_of_getElem? hi

theorem mem_survivors_lose (h : left ∈ (f.lose i).survivors) : left ∈ f.survivors := by
  rw [mem_survivors_settled.mp h]
  have hleft := f.visible_lose_mem i
  rwa [lose, visible_settled] at hleft

end TornFile

end Theyos

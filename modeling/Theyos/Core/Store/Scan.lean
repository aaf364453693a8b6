import Mathlib.Data.List.Basic

/-!
# Scans of consecutive records

A file of records is read from its front: one record after another, until what follows is
no record. A record is read the same whatever follows it, so records that are appended
behind a clean end are read after the others, and a torn end hides none of them.
-/

namespace Theyos

/-- How one record is read from the front, with the number of bytes it takes. -/
structure RecordReader (β ρ : Type*) where
  read : List β → Option (ρ × ℕ)
  /-- A record takes some of the bytes. -/
  takes : ∀ {bytes r n}, read bytes = some (r, n) → 0 < n ∧ n ≤ bytes.length
  /-- A record is read the same whatever follows. -/
  local_read : ∀ {bytes r n}, read bytes = some (r, n) →
    ∀ rest, read (bytes.take n ++ rest) = some (r, n)

namespace RecordReader

variable {β ρ : Type*} (R : RecordReader β ρ)

/-- Read records as long as there are some; they, and how many bytes they take. -/
def scan : ℕ → List β → List ρ × ℕ
  | 0, _ => ([], 0)
  | fuel + 1, bytes =>
    match R.read bytes with
    | none => ([], 0)
    | some (r, n) => (r :: (scan fuel (bytes.drop n)).1, n + (scan fuel (bytes.drop n)).2)

/-- The records of a file. -/
def records (bytes : List β) : List ρ := (R.scan bytes.length bytes).1

/-- How many bytes the records of a file take. -/
def validLen (bytes : List β) : ℕ := (R.scan bytes.length bytes).2

variable {R} {bytes rest : List β} {r : ρ} {n : ℕ}

theorem read_nil : R.read [] = none := by
  cases h : R.read [] with
  | none => rfl
  | some a =>
    have htakes := R.takes h
    simp only [List.length_nil] at htakes
    omega

/-- More fuel than bytes changes nothing. -/
theorem scan_fuel {f g : ℕ} (hf : bytes.length ≤ f) (hg : bytes.length ≤ g) :
    R.scan f bytes = R.scan g bytes := by
  induction f generalizing bytes g with
  | zero =>
    obtain rfl := List.length_eq_zero_iff.mp (Nat.le_zero.mp hf)
    cases g <;> simp [scan, read_nil]
  | succ f ih =>
    cases g with
    | zero =>
      obtain rfl := List.length_eq_zero_iff.mp (Nat.le_zero.mp hg)
      simp [scan, read_nil]
    | succ g =>
      rw [scan, scan]
      cases hread : R.read bytes with
      | none => rfl
      | some a =>
        obtain ⟨hpos, -⟩ := R.takes hread
        have hlength : (bytes.drop a.2).length = bytes.length - a.2 := List.length_drop
        dsimp only
        rw [ih (g := g) (by omega) (by omega)]

theorem scan_of_read (h : R.read bytes = some (r, n)) :
    R.scan bytes.length bytes = (r :: R.records (bytes.drop n), n + R.validLen (bytes.drop n)) := by
  obtain ⟨hpos, hle⟩ := R.takes h
  have hlength : (bytes.drop n).length = bytes.length - n := List.length_drop
  obtain ⟨fuel, hfuel⟩ : ∃ fuel, bytes.length = fuel + 1 := ⟨bytes.length - 1, by omega⟩
  rw [hfuel, scan, h]
  dsimp only
  rw [scan_fuel (g := (bytes.drop n).length) (by omega) (Nat.le_refl _)]
  rfl

theorem scan_of_none (h : R.read bytes = none) : R.scan bytes.length bytes = ([], 0) := by
  cases bytes.length with
  | zero => rfl
  | succ fuel => rw [scan, h]

theorem records_of_read (h : R.read bytes = some (r, n)) :
    R.records bytes = r :: R.records (bytes.drop n) := by
  rw [records, scan_of_read h]

theorem validLen_of_read (h : R.read bytes = some (r, n)) :
    R.validLen bytes = n + R.validLen (bytes.drop n) := by
  rw [validLen, scan_of_read h]

theorem records_of_none (h : R.read bytes = none) : R.records bytes = [] := by
  rw [records, scan_of_none h]

theorem validLen_of_none (h : R.read bytes = none) : R.validLen bytes = 0 := by
  rw [validLen, scan_of_none h]

variable (R) in
/-- Induction along the records of a file. -/
@[elab_as_elim] theorem scan_induction {P : List β → Prop}
    (stop : ∀ bytes, R.read bytes = none → P bytes)
    (next : ∀ bytes r n, R.read bytes = some (r, n) → P (bytes.drop n) → P bytes)
    (bytes : List β) : P bytes := by
  induction hlength : bytes.length using Nat.strongRecOn generalizing bytes with
  | ind k ih =>
    cases hread : R.read bytes with
    | none => exact stop bytes hread
    | some a =>
      obtain ⟨hpos, hle⟩ := R.takes hread
      have hdrop : (bytes.drop a.2).length = bytes.length - a.2 := List.length_drop
      exact next bytes a.1 a.2 hread (ih _ (by omega) _ rfl)

variable (R) in
/-- The file ends with a record. -/
def Clean (bytes : List β) : Prop := R.validLen bytes = bytes.length

theorem validLen_le (bytes : List β) : R.validLen bytes ≤ bytes.length := by
  induction bytes using R.scan_induction with
  | stop bytes hread =>
    rw [validLen_of_none hread]
    exact Nat.zero_le _
  | next bytes r n hread ih =>
    obtain ⟨-, hle⟩ := R.takes hread
    rw [List.length_drop] at ih
    rw [validLen_of_read hread]
    omega

/-- What follows a clean end is read after it. -/
theorem Clean.append (h : R.Clean bytes) (rest : List β) :
    R.records (bytes ++ rest) = R.records bytes ++ R.records rest ∧
      R.validLen (bytes ++ rest) = bytes.length + R.validLen rest := by
  unfold Clean at h
  induction bytes using R.scan_induction with
  | stop bytes hread =>
    rw [validLen_of_none hread] at h
    obtain rfl := List.length_eq_zero_iff.mp h.symm
    simp [records_of_none hread]
  | next bytes r n hread ih =>
    obtain ⟨-, hle⟩ := R.takes hread
    have hdrop : (bytes.drop n).length = bytes.length - n := List.length_drop
    rw [validLen_of_read hread] at h
    have hboth : R.read (bytes ++ rest) = some (r, n) := by
      have hlocal := R.local_read hread (bytes.drop n ++ rest)
      rwa [← List.append_assoc, List.take_append_drop] at hlocal
    obtain ⟨hrecords, hvalid⟩ := ih (by omega)
    rw [records_of_read hboth, records_of_read hread, validLen_of_read hboth,
      List.drop_append_of_le_length hle, hrecords, hvalid]
    exact ⟨rfl, by omega⟩

/-- Without its torn end a file is clean, and no record is missing. -/
theorem take_validLen (bytes : List β) :
    R.records (bytes.take (R.validLen bytes)) = R.records bytes ∧
      R.Clean (bytes.take (R.validLen bytes)) := by
  unfold Clean
  induction bytes using R.scan_induction with
  | stop bytes hread =>
    rw [validLen_of_none hread, List.take_zero, records_of_none hread, records_of_none read_nil,
      validLen_of_none read_nil]
    exact ⟨rfl, rfl⟩
  | next bytes r n hread ih =>
    obtain ⟨-, hle⟩ := R.takes hread
    obtain ⟨hrecords, hclean⟩ := ih
    have hsplit : bytes.take (R.validLen bytes) =
        bytes.take n ++ (bytes.drop n).take (R.validLen (bytes.drop n)) := by
      rw [validLen_of_read hread, List.take_add]
    have hfirst : R.read (bytes.take (R.validLen bytes)) = some (r, n) := by
      rw [hsplit]
      exact R.local_read hread _
    have hrest : (bytes.take (R.validLen bytes)).drop n =
        (bytes.drop n).take (R.validLen (bytes.drop n)) := by
      rw [hsplit, List.drop_append_of_le_length (by rw [List.length_take]; omega),
        List.drop_take_self, List.nil_append]
    rw [records_of_read hfirst, validLen_of_read hfirst, records_of_read hread, hrest, hrecords,
      hclean, hsplit, List.length_append, List.length_take_of_le hle]
    exact ⟨rfl, rfl⟩

end RecordReader

end Theyos

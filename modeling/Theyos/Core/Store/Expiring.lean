import Mathlib.Data.List.Perm.Subperm

/-!
# Tables whose entries expire

Every access first drops the entries that have expired by the time of whoever makes it, and
these times need not be in order. A key used once is refused as long as no access came at or
after the time at which the use lapses.
-/

namespace Theyos.Expiring

variable {κ : Type*} [DecidableEq κ]

/-- Keys with the times until which they are held, and the times of all accesses so far. -/
structure Table (κ : Type*) where
  entries : List (κ × ℕ) := []
  accesses : List ℕ := []
  deriving DecidableEq

variable (t : Table κ)

/-- The entries that have not expired. -/
def Table.retain (now : ℕ) : Table κ :=
  { entries := t.entries.filter (now < ·.2), accesses := now :: t.accesses }

/-- Whether a key is held. -/
def Table.contains (key : κ) : Bool := t.entries.any (·.1 = key)

/-- The table without a key. -/
def Table.erase (key : κ) : Table κ :=
  { t with entries := t.entries.filter (·.1 ≠ key) }

/-- The table with a key held until a time. -/
def Table.insert (key : κ) (expiry : ℕ) : Table κ :=
  { t with entries := (key, expiry) :: (t.erase key).entries }

/-- Every accepted use is held until it lapses or some access came later, and no key was
accepted twice. -/
structure Spent (accepted : List (κ × ℕ)) : Prop where
  held : ∀ use ∈ accepted, (∃ expiry, (use.1, expiry) ∈ t.entries ∧ use.2 ≤ expiry) ∨
    ∃ now ∈ t.accesses, use.2 ≤ now
  nodup : (accepted.map Prod.fst).Nodup

variable {t} {accepted : List (κ × ℕ)} {key : κ} {now expiry lapse : ℕ}

omit [DecidableEq κ] in
theorem Spent.start : Spent ({} : Table κ) [] :=
  ⟨by simp, by simp⟩

omit [DecidableEq κ] in
/-- An access may drop a use only once it has lapsed. -/
theorem Spent.retain (h : Spent t accepted) : Spent (t.retain now) accepted := by
  refine ⟨fun use huse => ?_, h.nodup⟩
  obtain ⟨expiry, hmem, hle⟩ | ⟨past, hpast, hle⟩ := h.held use huse
  · rcases Nat.lt_or_ge now expiry with hlt | hge
    · exact .inl ⟨expiry, by simp [Table.retain, hmem, hlt], hle⟩
    · exact .inr ⟨now, by simp [Table.retain], Nat.le_trans hle hge⟩
  · exact .inr ⟨past, by simp [Table.retain, hpast], hle⟩

/-- A new key takes no use away. -/
theorem Spent.insert (h : Spent t accepted) (hkey : t.contains key = false) :
    Spent (t.insert key expiry) accepted := by
  refine ⟨fun use huse => ?_, h.nodup⟩
  obtain ⟨held, hmem, hle⟩ | hlate := h.held use huse
  · have hne : use.1 ≠ key := by
      rintro rfl
      simp only [Table.contains, List.any_eq_false, decide_eq_true_eq] at hkey
      exact hkey _ hmem rfl
    exact .inl ⟨held, by simp [Table.insert, Table.erase, hmem, hne], hle⟩
  · exact .inr hlate

/-- A use that has not lapsed at any access is held, so its key is no new one. -/
theorem Spent.contains (h : Spent t accepted) {use : κ × ℕ} (huse : use ∈ accepted)
    (hearly : ∀ now ∈ t.accesses, now < use.2) : t.contains use.1 = true := by
  obtain ⟨expiry, hmem, -⟩ | ⟨past, hpast, hle⟩ := h.held use huse
  · exact List.any_eq_true.mpr ⟨_, hmem, by simp⟩
  · exact absurd (hearly past hpast) (Nat.not_lt.mpr hle)

/-- The use of a key that is not held is its first if no earlier use has lapsed. -/
theorem Spent.accept (h : Spent t accepted) (hkey : t.contains key = false) (hheld : lapse ≤ expiry)
    (hearly : ∀ use ∈ accepted, use.1 = key → ∀ now ∈ t.accesses, now < use.2) :
    Spent (t.insert key expiry) ((key, lapse) :: accepted) := by
  have hold : Spent (t.insert key expiry) accepted := h.insert hkey
  refine ⟨fun use huse => ?_, List.nodup_cons.mpr ⟨fun hmem => ?_, h.nodup⟩⟩
  · obtain rfl | huse := List.mem_cons.mp huse
    · exact .inl ⟨expiry, by simp [Table.insert], hheld⟩
    · exact hold.held use huse
  · obtain ⟨use, huse, rfl⟩ := List.mem_map.mp hmem
    rw [h.contains huse (hearly use huse rfl)] at hkey
    cases hkey

/-- No key was taken from the table more often than it was put there. -/
def Returned (t : Table κ) (issued taken : List κ) : Prop :=
  (taken ++ t.entries.map Prod.fst).Subperm issued

variable {issued taken : List κ}

omit [DecidableEq κ] in
/-- Entries may be dropped. -/
theorem Returned.drop {u : Table κ} (h : Returned t issued taken)
    (hsub : u.entries.Sublist t.entries) : Returned u issued taken :=
  ((List.Sublist.refl taken).append (hsub.map _)).subperm.trans h

/-- A key that is put into the table counts as issued once more. -/
theorem Returned.insert (h : Returned t issued taken) :
    Returned (t.insert key expiry) (key :: issued) taken := by
  have hrest : Returned (t.erase key) issued taken := h.drop List.filter_sublist
  exact List.perm_middle.subperm.trans ((List.subperm_cons key).mpr hrest)

/-- A key that is held can be taken. -/
theorem Returned.erase (h : Returned t issued taken) (hkey : t.contains key = true) :
    Returned (t.erase key) issued (key :: taken) := by
  obtain ⟨entry, hmem, hentry⟩ := List.any_eq_true.mp hkey
  have hheld : key ∈ t.entries.map Prod.fst :=
    List.mem_map.mpr ⟨entry, hmem, by simpa using hentry⟩
  have hgone : key ∉ (t.erase key).entries.map Prod.fst := by
    simp [Table.erase]
  have hrest := List.cons_subperm_of_not_mem_of_mem hgone hheld
    (List.filter_sublist.map Prod.fst).subperm
  exact List.perm_middle.symm.subperm.trans (((List.subperm_append_left taken).mpr hrest).trans h)

end Theyos.Expiring

import Theyos.Models.Lease.Fading

/-!
# Standing leases

A lease stands until it is released, whether or not it has expired. What the operations of the
table do to the leases that stand is all that later proofs need of them.
-/

namespace Theyos.Lease

open LeaseTable ResourceLease

/-- A lease of a key and a size is not released. -/
def Standing (leases : LeaseTable) (key : LeaseKey) (size : ℕ × ℕ) : Prop :=
  ∃ lease ∈ leases, lease.key = key ∧ lease.size = size ∧ lease.unreleased

namespace LeaseTable

variable {now : ℕ} {leases leases' : LeaseTable} {key : LeaseKey} {size : ℕ × ℕ}

theorem not_standing_nil : ¬ Standing [] key size := fun ⟨_, hmem, _⟩ => List.not_mem_nil hmem

/-- A release by the key ends the leases of the keys that it picks. -/
theorem standing_releaseWhere (picked : LeaseKey → Bool) :
    Standing (releaseWhere now (fun lease => picked lease.key) leases) key size ↔
      picked key = false ∧ Standing leases key size := by
  have hmem := @mem_releaseWhere_unreleased now leases fun lease => picked lease.key
  simp only [Standing]
  grind

/-- A release that picks no lease of a key leaves those that stand. -/
theorem standing_releaseWhere_of_not {picked : ResourceLease → Bool}
    (hpicked : ∀ lease ∈ leases, lease.key = key → picked lease = false) :
    Standing (releaseWhere now picked leases) key size ↔ Standing leases key size := by
  have hmem := @mem_releaseWhere_unreleased now leases picked
  simp only [Standing]
  grind

theorem standing_releaseLease {released : LeaseKey} :
    Standing (releaseLease now released leases) key size ↔
      key ≠ released ∧ Standing leases key size := by
  refine (standing_releaseWhere fun key => decide (key = released)).trans ?_
  rw [decide_eq_false_iff_not]

theorem standing_releaseAllLeases {ownerType : LeaseOwnerType} {ownerId : String} :
    Standing (releaseAllLeases now ownerType ownerId leases) key size ↔
      ¬ (key.ownerType = ownerType ∧ key.ownerId = ownerId) ∧ Standing leases key size := by
  refine (standing_releaseWhere fun key =>
    decide (key.ownerType = ownerType ∧ key.ownerId = ownerId)).trans ?_
  rw [decide_eq_false_iff_not]

/-- A new expiry leaves the leases that stand. -/
theorem standing_setExpiry {changed : LeaseKey} {expiresAt : Option ℕ} :
    Standing (setExpiry changed expiresAt leases) key size ↔ Standing leases key size := by
  have hsame : ∀ lease : ResourceLease,
      let after := if lease.unreleased && lease.key = changed then { lease with expiresAt }
        else lease
      after.key = lease.key ∧ after.size = lease.size ∧ after.unreleased = lease.unreleased := by
    intro lease
    split <;> exact ⟨rfl, rfl, rfl⟩
  simp only [Standing, setExpiry, List.mem_map]
  grind

theorem standing_extendLease {extended : LeaseKey} {newExpiresAt : ℕ} :
    Standing (extendLease extended newExpiresAt leases) key size ↔ Standing leases key size := by
  rw [extendLease]
  split
  · exact standing_setExpiry
  · exact Iff.rfl

theorem standing_finalizeLease {finalized : LeaseKey} :
    Standing (finalizeLease finalized leases) key size ↔ Standing leases key size :=
  standing_setExpiry

variable {new : NewLease}

/-- A new lease stands beside the others. -/
theorem standing_createLease (h : createLease now new leases = some leases') :
    Standing leases' key size ↔
      Standing leases key size ∨ key = new.key ∧ size = (new.cpuCores, new.ramMb) := by
  simp only [Standing, mem_createLease h, or_and_right, exists_or, exists_eq_left]
  refine or_congr_right ⟨?_, ?_⟩
  · rintro ⟨rfl, rfl, -⟩
    exact ⟨rfl, rfl⟩
  · rintro ⟨rfl, rfl⟩
    exact ⟨rfl, rfl, rfl⟩

/-- A lease is refused only when one of its key stands. -/
theorem standing_of_createLease_eq_none (hexpiry : new.expiresAt = none)
    (h : createLease now new leases = none) : ∃ size, Standing leases new.key size := by
  have hlease : ∃ lease ∈ leases, lease.key = new.key ∧ lease.unreleased := by
    simpa [createLease, guard, hexpiry] using h
  obtain ⟨lease, hmem, hkey, hunreleased⟩ := hlease
  exact ⟨_, lease, hmem, hkey, rfl, hunreleased⟩

/-- A lease is created only when none of its key stands. -/
theorem not_standing_of_createLease
    (h : createLease now new leases = some leases') : ¬ Standing leases new.key size := by
  rintro ⟨lease, hmem, hkey, -, hunreleased⟩
  simp only [createLease, Machine.eq_some_iff] at h
  obtain ⟨_, hfree, -⟩ := h
  exact absurd ((hfree lease hmem hkey).symm.trans hunreleased) Bool.false_ne_true

/-- An active lease stands. -/
theorem standing_of_hasActiveLease (h : hasActiveLease now key leases) :
    ∃ size, Standing leases key size := by
  obtain ⟨lease, hmem, hkey, hactive⟩ := hasActiveLease_iff.mp h
  exact ⟨_, lease, hmem, hkey, rfl, (Bool.and_eq_true_iff.mp hactive).1⟩

end LeaseTable

end Theyos.Lease

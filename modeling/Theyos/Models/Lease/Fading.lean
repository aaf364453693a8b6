import Theyos.Models.Lease.Table
import Mathlib.Algebra.Order.Ring.Nat

/-!
# Leases that fade

The passing of time, the release of leases and a change of the expiry of active ones leave
every lease in its place and make none active that was not. Such a change never raises the sum
of the active runtime leases, and a lease that it ends gives back its whole size.
-/

namespace Theyos.Lease

open Store LeaseTable ResourceLease

/-- The later table has the leases of the earlier one, and none is active that was not. -/
def Fades (now : ℕ) (leases : LeaseTable) (now' : ℕ) (leases' : LeaseTable) : Prop :=
  ∃ f : ResourceLease → ResourceLease, leases' = leases.map f ∧ ∀ lease ∈ leases,
    (f lease).key = lease.key ∧ (f lease).size = lease.size ∧
      ((f lease).active now' → lease.active now)

/-- A lease of a key and a size is active. -/
def Held (now : ℕ) (leases : LeaseTable) (key : LeaseKey) (size : ℕ × ℕ) : Prop :=
  ∃ lease ∈ leases, lease.key = key ∧ lease.size = size ∧ lease.active now

variable {lease : ResourceLease}

theorem ResourceLease.not_active_of_released (now moment : ℕ) :
    ({ lease with releasedAt := some moment } : ResourceLease).active now = false := rfl

variable {now : ℕ}

theorem ResourceLease.active_anti {now' : ℕ} (h : now ≤ now') (hactive : lease.active now') :
    lease.active now := by
  rw [active, Bool.and_eq_true] at hactive ⊢
  refine ⟨hactive.1, ?_⟩
  cases hexpiry : lease.expiresAt with
  | none => rfl
  | some expiry =>
    have hlt : now' < expiry := by simpa [hexpiry] using hactive.2
    simpa using h.trans_lt hlt

theorem ResourceLease.runtimeUse_le (now : ℕ) (lease : ResourceLease) :
    lease.runtimeUse now ≤ lease.size := by
  rw [runtimeUse]
  split
  · exact le_rfl
  · exact zero_le

theorem ResourceLease.runtimeUse_of_active (hactive : lease.active now)
    (hkind : lease.key.leaseKind = .runtime) :
    lease.runtimeUse now = lease.size :=
  if_pos ⟨hactive, hkind⟩

theorem ResourceLease.runtimeUse_of_not_active (hactive : ¬ lease.active now) :
    lease.runtimeUse now = 0 :=
  if_neg fun h => hactive h.1

namespace Fades

variable {now now' now'' : ℕ} {leases leases' leases'' : LeaseTable}

/-- Time passes. -/
theorem wait (h : now ≤ now') : Fades now leases now' leases :=
  ⟨id, (List.map_id leases).symm, fun _ _ => ⟨rfl, rfl, active_anti h⟩⟩

protected theorem refl : Fades now leases now leases := wait le_rfl

protected theorem trans (h : Fades now leases now' leases')
    (h' : Fades now' leases' now'' leases'') : Fades now leases now'' leases'' := by
  obtain ⟨f, rfl, hf⟩ := h
  obtain ⟨g, rfl, hg⟩ := h'
  refine ⟨g ∘ f, List.map_map, fun lease hmem => ?_⟩
  obtain ⟨hkey, hsize, hactive⟩ := hf lease hmem
  obtain ⟨hkey', hsize', hactive'⟩ := hg (f lease) (List.mem_map_of_mem hmem)
  exact ⟨hkey'.trans hkey, hsize'.trans hsize, fun h => hactive (hactive' h)⟩

/-- Leases are released. -/
theorem releaseWhere (picked : ResourceLease → Bool) :
    Fades now leases now (releaseWhere now picked leases) := by
  refine ⟨_, rfl, fun lease _ => ?_⟩
  split
  · exact ⟨rfl, rfl, fun h => absurd h (by simp [not_active_of_released])⟩
  · exact ⟨rfl, rfl, id⟩

theorem releaseLease (key : LeaseKey) : Fades now leases now (releaseLease now key leases) :=
  releaseWhere _

theorem releaseAllLeases (ownerType : LeaseOwnerType) (ownerId : String) :
    Fades now leases now (releaseAllLeases now ownerType ownerId leases) :=
  releaseWhere _

variable {key : LeaseKey}

/-- The expiry of a lease that has not expired is set. -/
theorem setExpiry (expiresAt : Option ℕ)
    (hfresh : ∀ lease ∈ leases, lease.key = key → lease.unreleased → lease.active now) :
    Fades now leases now (setExpiry key expiresAt leases) := by
  refine ⟨_, rfl, fun lease hmem => ?_⟩
  split
  · rename_i h
    rw [Bool.and_eq_true, decide_eq_true_eq] at h
    exact ⟨rfl, rfl, fun _ => hfresh lease hmem h.2 h.1⟩
  · exact ⟨rfl, rfl, id⟩

theorem extendLease (newExpiresAt : ℕ)
    (hfresh : ∀ lease ∈ leases, lease.key = key → lease.unreleased → lease.active now) :
    Fades now leases now (extendLease key newExpiresAt leases) := by
  rw [LeaseTable.extendLease]
  split
  · exact setExpiry _ hfresh
  · exact .refl

/-- One action on the leases after another is taken. -/
theorem foldl {β : Type*} (f : LeaseTable → β → LeaseTable)
    (hf : ∀ leases b, Fades now leases now (f leases b)) (bs : List β) (leases : LeaseTable) :
    Fades now leases now (bs.foldl f leases) :=
  List.foldlRecOn bs _ .refl fun leases' h b _ => h.trans (hf leases' b)

/-- A pass of the reaper is made. -/
theorem reapExpiredLeases (missing : String → Bool) :
    Fades now leases now (reapExpiredLeases now missing leases) := by
  refine foldl _ (fun leases lease => ?_) _ _
  split
  · exact .refl
  · split
    · exact releaseAllLeases ..
    · exact releaseLease _

theorem runtimeUse_le_of {lease lease' : ResourceLease} (hkey : lease'.key = lease.key)
    (hsize : lease'.size = lease.size) (hactive : lease'.active now' → lease.active now) :
    lease'.runtimeUse now' ≤ lease.runtimeUse now := by
  rw [runtimeUse, runtimeUse, hkey, hsize]
  split
  · rename_i h
    rw [if_pos ⟨hactive h.1, h.2⟩]
  · exact zero_le

variable (h : Fades now leases now' leases')

include h

/-- The sum of the active runtime leases does not grow. -/
theorem sum_le : sumActiveRuntimeLeases now' leases' ≤ sumActiveRuntimeLeases now leases := by
  obtain ⟨f, rfl, hf⟩ := h
  rw [sumActiveRuntimeLeases, load_map]
  exact load_le_load fun lease hmem =>
    runtimeUse_le_of (hf lease hmem).1 (hf lease hmem).2.1 (hf lease hmem).2.2

/-- A held runtime lease stays held, or its size is given back. -/
theorem held_or_sum_add_le {size : ℕ × ℕ}
    (hheld : Held now leases key size) (hkind : key.leaseKind = .runtime) :
    Held now' leases' key size ∨
      sumActiveRuntimeLeases now' leases' + size ≤ sumActiveRuntimeLeases now leases := by
  obtain ⟨f, rfl, hf⟩ := h
  obtain ⟨lease, hmem, rfl, rfl, hactive⟩ := hheld
  obtain ⟨hkey, hsize, -⟩ := hf lease hmem
  by_cases hafter : (f lease).active now'
  · exact .inl ⟨f lease, List.mem_map_of_mem hmem, hkey, hsize, hafter⟩
  · right
    rw [sumActiveRuntimeLeases, load_map]
    refine load_add_le_load hmem ?_ fun lease hmem =>
      runtimeUse_le_of (hf lease hmem).1 (hf lease hmem).2.1 (hf lease hmem).2.2
    rw [Function.comp_apply, runtimeUse_of_not_active hafter, zero_add,
      runtimeUse_of_active hactive hkind]

/-- What holds of the keys and the sizes of all leases goes on holding. -/
theorem forall_mem {P : LeaseKey → ℕ × ℕ → Prop}
    (hleases : ∀ lease ∈ leases, P lease.key lease.size) :
    ∀ lease ∈ leases', P lease.key lease.size := by
  obtain ⟨f, rfl, hf⟩ := h
  rw [List.forall_mem_map]
  intro lease hmem
  rw [(hf lease hmem).1, (hf lease hmem).2.1]
  exact hleases lease hmem

end Fades

namespace LeaseTable

variable {now : ℕ} {new : NewLease} {leases leases' : LeaseTable}

section

variable (h : createLease now new leases = some leases')

include h

theorem createLease_eq_some :
    leases' = leases ++ [{ new with acquiredAt := now, releasedAt := none }] := by
  simp only [createLease, Machine.eq_some_iff] at h
  obtain ⟨_, _, _, _, h⟩ := h
  exact h.symm

/-- A new lease adds no more than its size to the sum. -/
theorem sum_createLease_le :
    sumActiveRuntimeLeases now leases' ≤
      sumActiveRuntimeLeases now leases + (new.cpuCores, new.ramMb) := by
  rw [createLease_eq_some h, sumActiveRuntimeLeases, load_append]
  refine add_le_add le_rfl ?_
  exact runtimeUse_le ..

theorem mem_createLease {lease : ResourceLease} :
    lease ∈ leases' ↔
      lease ∈ leases ∨ lease = { new with acquiredAt := now, releasedAt := none } := by
  rw [createLease_eq_some h, List.mem_append, List.mem_singleton]

theorem held_of_createLease {key : LeaseKey}
    {size : ℕ × ℕ} (hheld : Held now leases key size) : Held now leases' key size := by
  obtain ⟨lease, hmem, hlease⟩ := hheld
  exact ⟨lease, (mem_createLease h).mpr (.inl hmem), hlease⟩

end

/-- A release leaves the leases that are not picked. -/
theorem mem_releaseWhere_unreleased {picked : ResourceLease → Bool} {lease : ResourceLease} :
    lease ∈ releaseWhere now picked leases ∧ lease.unreleased ↔
      lease ∈ leases ∧ lease.unreleased ∧ picked lease = false := by
  constructor
  · rintro ⟨hmem, hunreleased⟩
    obtain ⟨before, hbefore, hlease⟩ := List.mem_map.mp hmem
    by_cases hpicked : (before.unreleased && picked before) = true
    · rw [if_pos hpicked] at hlease
      rw [← hlease] at hunreleased
      nomatch hunreleased
    · rw [if_neg hpicked] at hlease
      subst hlease
      rw [hunreleased] at hpicked
      exact ⟨hbefore, hunreleased, Bool.eq_false_iff.mpr hpicked⟩
  · rintro ⟨hmem, hunreleased, hpicked⟩
    refine ⟨List.mem_map.mpr ⟨lease, hmem, ?_⟩, hunreleased⟩
    rw [hpicked, Bool.and_false, if_neg Bool.false_ne_true]

/-- A lease that is active after a release is one that was not picked. -/
theorem active_of_mem_releaseWhere {picked : ResourceLease → Bool} {lease : ResourceLease}
    {now' : ℕ} (hmem : lease ∈ releaseWhere now picked leases) (hactive : lease.active now') :
    lease ∈ leases ∧ picked lease = false := by
  have hunreleased := (Bool.and_eq_true_iff.mp hactive).1
  obtain ⟨hmem, _, hpicked⟩ := mem_releaseWhere_unreleased.mp ⟨hmem, hunreleased⟩
  exact ⟨hmem, hpicked⟩

theorem hasActiveLease_iff {key : LeaseKey} :
    hasActiveLease now key leases ↔ ∃ lease ∈ leases, lease.key = key ∧ lease.active now := by
  simp [hasActiveLease, List.any_eq_true]

end LeaseTable

end Theyos.Lease

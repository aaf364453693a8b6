import Theyos.Core.Machine.Conduct
import Theyos.Models.Capacity.System

/-!
# The budgets are kept

What a holder of the lock is about to add is covered: there is room for it, or a lease of the
same size is still active that it replaces. Whatever happens without the lock makes leases fade,
as long as no expired lease is revived, so that what is covered stays covered.
-/

namespace Theyos.Capacity

open Lease LeaseTable ResourceLease

/-- The cores and the memory of a request. -/
def CreateRequest.size (req : CreateRequest) : ℕ × ℕ := (req.cpuCores, req.ramMb)

/-- There is room for a size, or a lease of that size is active. -/
def Covered (host : Host) (now : ℕ) (leases : LeaseTable) (key : LeaseKey) (size : ℕ × ℕ) : Prop :=
  Room host now leases size ∨ Held now leases key size

/-- What the holder of the lock may still add is covered. -/
def Holder.Covered (host : Host) (now : ℕ) (leases : LeaseTable) : Holder → Prop
  | .create req .checked =>
    Room host now leases req.size ∨
      req.size = slotSize ∧ Capacity.Covered host now leases (warmPoolSlotKey req.clawType) slotSize
  | .create req (.decided true) => req.size = slotSize
  | .create req (.decided false) => Room host now leases req.size
  | .create req (.inserted instanceId true) =>
    req.size = slotSize ∧ Capacity.Covered host now leases (runtimeKey instanceId) slotSize
  | .create req (.rolledBack true) => req.size = slotSize ∧ Room host now leases slotSize
  | .create _ (.inserted _ false) | .create _ (.rolledBack false) => True
  | .restart _ cpu ram => Room host now leases (cpu, ram)
  | .reconcile targets => Room host now leases (targets.length • slotSize)

/-- Every runtime lease of the warm pool has the size of a slot. -/
def SlotSized (leases : LeaseTable) : Prop :=
  ∀ lease ∈ leases, lease.key.ownerType = .warmPool → lease.key.leaseKind = .runtime →
    lease.size = slotSize

/-- The leases are within the budgets and what is about to be added is covered. -/
structure Committed (host : Host) (s : System) : Prop where
  within : Room host s.now s.leases 0
  slots : SlotSized s.leases
  holder : ∀ holder ∈ s.lock, holder.Covered host s.now s.leases

/-- No restart is admitted on the strength of a warm lease, no expired lease is given a new
expiry, and the leases of an instance that took a warm lease are released in its rollback. -/
def Careful (s : System) : Action → Prop
  | .restartCheck instanceId clawType cpu ram _ =>
    hasActiveLease s.now (runtimeKey instanceId) s.leases ∨
      requestMatchesWarmPoolLease s.now s.leases (some clawType) cpu ram = false
  | .extendLease key _ | .finalizeLease key =>
    ∀ lease ∈ s.leases, lease.key = key → lease.unreleased → lease.active s.now
  | .rollbackRelease stored =>
    (s.lock matches some (.create _ (.inserted _ true))) → stored = true
  | _ => True

instance (s : System) (action : Action) : Decidable (Careful s action) := by
  cases action <;> unfold Careful <;> infer_instance

variable {host : Host} {now now' : ℕ} {leases leases' : LeaseTable}

theorem Room.zero {demand : ℕ × ℕ} (h : Room host now leases demand) : Room host now leases 0 :=
  h.mono zero_le

/-- What is covered stays covered when leases fade. -/
theorem Covered.fades {key : LeaseKey} {size : ℕ × ℕ} (h : Covered host now leases key size)
    (hwithin : Room host now leases 0) (hkind : key.leaseKind = .runtime)
    (hfades : Fades now leases now' leases') : Covered host now' leases' key size := by
  rcases h with hroom | hheld
  · exact .inl (hroom.fades hfades)
  · rcases hfades.held_or_sum_add_le hheld hkind with hheld | hsum
    · exact .inr hheld
    · exact .inl (hsum.trans (by simpa [Room] using hwithin))

theorem Holder.Covered.fades {holder : Holder} (h : holder.Covered host now leases)
    (hwithin : Room host now leases 0) (hfades : Fades now leases now' leases') :
    holder.Covered host now' leases' := by
  match holder, h with
  | .create _ .checked, h =>
    exact h.imp (·.fades hfades) fun h => ⟨h.1, h.2.fades hwithin rfl hfades⟩
  | .create _ (.decided true), h => exact h
  | .create _ (.decided false), h => exact Room.fades h hfades
  | .create _ (.inserted _ true), h => exact ⟨h.1, h.2.fades hwithin rfl hfades⟩
  | .create _ (.rolledBack true), h => exact ⟨h.1, h.2.fades hfades⟩
  | .create _ (.inserted _ false), _ => trivial
  | .create _ (.rolledBack false), _ => trivial
  | .restart .., h => exact Room.fades h hfades
  | .reconcile _, h => exact Room.fades h hfades

theorem SlotSized.fades (h : SlotSized leases) (hfades : Fades now leases now' leases') :
    SlotSized leases' := by
  let P : LeaseKey → ℕ × ℕ → Prop := fun key size =>
    key.ownerType = .warmPool → key.leaseKind = .runtime → size = slotSize
  exact hfades.forall_mem (P := P) h

/-- What happens without the lock keeps the budgets. -/
theorem Committed.fades {s : System} (h : Committed host s)
    (hfades : Fades s.now s.leases now' leases') : Committed host ⟨now', leases', s.lock⟩ where
  within := h.within.fades hfades
  slots := h.slots.fades hfades
  holder holder hmem := (h.holder holder hmem).fades h.within hfades

/-- A holder that has nothing left to add gives the lock back. -/
theorem Committed.unlock {s : System} (h : Committed host s) :
    Committed host { s with lock := none } :=
  ⟨h.within, h.slots, nofun⟩

theorem SlotSized.createLease {new : NewLease} (h : SlotSized leases)
    (hcreate : createLease now new leases = some leases')
    (hnew : new.key.ownerType = .warmPool → (new.cpuCores, new.ramMb) = slotSize) :
    SlotSized leases' := by
  intro lease hmem howner hkind
  rcases (mem_createLease hcreate).mp hmem with hmem | rfl
  · exact h lease hmem howner hkind
  · exact hnew howner

/-- A lease for which there is room is created, or it is not. -/
theorem Committed.tryLease {s : System} (h : Committed host s) {new : NewLease}
    {lock : Option Holder} {rest : ℕ × ℕ}
    (hroom : Room host s.now s.leases (rest + (new.cpuCores, new.ramMb)))
    (hnew : new.key.ownerType = .warmPool → (new.cpuCores, new.ramMb) = slotSize)
    (hlock : ∀ leases, Room host s.now leases rest →
      ∀ holder ∈ lock, holder.Covered host s.now leases) :
    Committed host (s.tryLease new lock) := by
  have hrest : Room host s.now s.leases rest := hroom.mono (le_add_of_nonneg_right zero_le)
  rw [System.tryLease]
  cases hcreate : createLease s.now new s.leases with
  | none => exact ⟨h.within, h.slots, hlock _ hrest⟩
  | some leases =>
    have hroom : Room host s.now leases rest := by
      refine (add_le_add (sum_createLease_le hcreate) le_rfl).trans ?_
      rw [add_assoc, add_comm _ rest]
      exact hroom
    exact ⟨hroom.zero, h.slots.createLease hcreate hnew, hlock _ hroom⟩

end Theyos.Capacity

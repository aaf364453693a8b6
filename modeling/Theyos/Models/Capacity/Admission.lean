import Theyos.Models.Lease.Fading
import Mathlib.Data.List.Sort

/-!
# Admission

A request is admitted when the sum of the active runtime leases leaves room for it. A request
of exactly the size of a slot whose warm-pool lease is active is admitted at no cost, because
that lease is to be handed over to it.
-/

namespace Theyos.Capacity

open Lease LeaseTable

/-- The cores of a slot of the warm pool. -/
def slotCpu : ℕ := 2

/-- The memory of a slot of the warm pool. -/
def slotRam : ℕ := 2048

/-- The size of a slot of the warm pool. -/
def slotSize : ℕ × ℕ := (slotCpu, slotRam)

/-- The disk that is always kept free. -/
def diskMarginGb : ℕ := 5

/-- The host, with the two settings that budget it. -/
structure Host where
  cpuCores : ℕ
  totalRamMb : ℕ
  totalDiskGb : ℕ
  cpuReserve : ℕ := 1
  ramBudgetPercent : ℕ := 80
  deriving DecidableEq, Repr

variable (host : Host)

/-- The cores and the memory that leases may take. -/
def Host.budget : ℕ × ℕ :=
  (host.cpuCores - host.cpuReserve, host.totalRamMb * host.ramBudgetPercent / 100)

/-- The host, its budgets, what is allocated and what is available. -/
structure CapacityProjection where
  hostCpu : ℕ
  hostRamMb : ℕ
  hostDiskGb : ℕ
  cpuBudget : ℕ
  ramBudget : ℕ
  allocatedCpu : ℕ
  allocatedRam : ℕ
  allocatedDisk : ℕ
  availableCpu : ℕ
  availableRam : ℕ
  availableDisk : ℕ
  deriving DecidableEq, Repr

/-- The projection from the leases; what is available is never less than nothing. -/
def computeCapacityProjection (availableDiskGb now : ℕ) (leases : LeaseTable) :
    CapacityProjection :=
  let cpuBudget := host.cpuCores - host.cpuReserve
  let ramBudget := host.totalRamMb * host.ramBudgetPercent / 100
  let (allocCpu, allocRam) := sumActiveRuntimeLeases now leases
  let allocDisk := sumActiveStorageLeases leases
  { hostCpu := host.cpuCores
    hostRamMb := host.totalRamMb
    hostDiskGb := host.totalDiskGb
    cpuBudget
    ramBudget
    allocatedCpu := allocCpu
    allocatedRam := allocRam
    allocatedDisk := allocDisk
    availableCpu := cpuBudget - allocCpu
    availableRam := ramBudget - allocRam
    availableDisk := availableDiskGb - allocDisk - diskMarginGb }

structure CapacityRequest where
  cpuCores : ℕ
  ramMb : ℕ
  diskGb : ℕ
  clawType : Option String
  deriving DecidableEq, Repr

structure CapacityError where
  message : String
  retryAfterSecs : ℕ
  deriving DecidableEq, Repr

/-- The request is of the size of a slot and the lease of that slot is active. -/
def requestMatchesWarmPoolLease (now : ℕ) (leases : LeaseTable) (clawType : Option String)
    (cpuCores ramMb : ℕ) : Bool :=
  clawType.any fun ct =>
    cpuCores = slotCpu && ramMb = slotRam && hasActiveLease now (warmPoolSlotKey ct) leases

/-- Check a request against the budgets; a warm match costs neither cores nor memory. -/
def checkCapacity (availableDiskGb now : ℕ) (leases : LeaseTable)
    (req : CapacityRequest) : Except CapacityError CapacityProjection :=
  let projection := computeCapacityProjection host availableDiskGb now leases
  let warmMatch := requestMatchesWarmPoolLease now leases req.clawType req.cpuCores req.ramMb
  let requestCpuDelta := if warmMatch then 0 else req.cpuCores
  let requestRamDelta := if warmMatch then 0 else req.ramMb
  if projection.allocatedCpu + requestCpuDelta > projection.cpuBudget then
    .error
      { message := s!"insufficient CPU: requesting {req.cpuCores} cores, " ++
          s!"but only {projection.availableCpu} of {projection.cpuBudget} available " ++
          s!"(allocated: {projection.allocatedCpu})"
        retryAfterSecs := 30 }
  else if projection.allocatedRam + requestRamDelta > projection.ramBudget then
    .error
      { message := s!"insufficient RAM: requesting {req.ramMb} MB, " ++
          s!"but only {projection.availableRam} MB of {projection.ramBudget} MB budget " ++
          s!"available (allocated: {projection.allocatedRam} MB)"
        retryAfterSecs := 30 }
  else if req.diskGb > projection.availableDisk then
    .error
      { message := s!"insufficient disk: requesting {req.diskGb} GB, " ++
          s!"but only {projection.availableDisk} GB available after reserved storage " ++
          s!"and {diskMarginGb} GB margin"
        retryAfterSecs := 60 }
  else .ok projection

/-- What a warm-pool slot is found to be. -/
inductive SlotState where
  | empty
  | filling
  | warm
  | stale
  | expired
  deriving DecidableEq, Repr

/-- A stale or expired slot is as good as empty. -/
def capacitySlotState : SlotState → SlotState
  | .stale | .expired => .empty
  | state => state

/-- Accept one slot after another while the rest of the budget allows it. -/
def admitWithin (perSlotCost : ℕ × ℕ) : List String → ℕ × ℕ → List String
  | [], _ => []
  | ct :: candidates, remaining =>
    if perSlotCost.1 ≤ remaining.1 ∧ perSlotCost.2 ≤ remaining.2 then
      ct :: admitWithin perSlotCost candidates
        (remaining.1 - perSlotCost.1, remaining.2 - perSlotCost.2)
    else admitWithin perSlotCost candidates remaining

/-- The claw types whose empty slots are to be refilled, within what is available. -/
def decideRefillTargets (now : ℕ) (leases : LeaseTable) (slotStates : String → SlotState)
    (installedClaws : List String) (available perSlotCost : ℕ × ℕ) : List String :=
  let candidates := installedClaws.filter fun ct =>
    capacitySlotState (slotStates ct) = .empty && !hasActiveLease now (warmPoolSlotKey ct) leases
  admitWithin perSlotCost (candidates.insertionSort (· ≤ ·)) available

/-- The claw type in the owner id of a slot: what stands before the first colon. -/
def slotClawType (ownerId : String) : String := String.ofList (ownerId.toList.takeWhile (· ≠ ':'))

/-- Release the warm-pool leases of claw types that are not installed. -/
def releaseOrphanedWarmPoolLeases (now : ℕ) (installedClaws : List String) (leases : LeaseTable) :
    LeaseTable :=
  (activeWarmPoolLeaseOwners now leases).foldl
    (fun leases ownerId =>
      if slotClawType ownerId ∈ installedClaws then leases
      else releaseLease now ⟨.warmPool, ownerId, .runtime⟩ leases)
    leases

/-- The leases leave room for a demand. -/
def Room (now : ℕ) (leases : LeaseTable) (demand : ℕ × ℕ) : Prop :=
  sumActiveRuntimeLeases now leases + demand ≤ host.budget

section

variable {host : Host} {availableDiskGb now : ℕ} {leases : LeaseTable}

/-- An admitted request finds room for itself, unless it matches a warm slot. -/
theorem room_of_checkCapacity {req : CapacityRequest} {projection : CapacityProjection}
    (h : checkCapacity host availableDiskGb now leases req = .ok projection)
    (hmatch : requestMatchesWarmPoolLease now leases req.clawType req.cpuCores req.ramMb = false) :
    Room host now leases (req.cpuCores, req.ramMb) := by
  simp only [checkCapacity, hmatch, Bool.false_eq_true, if_false] at h
  split at h
  · nomatch h
  · rename_i hcpu
    split at h
    · nomatch h
    · rename_i hram
      exact ⟨not_lt.mp hcpu, not_lt.mp hram⟩

/-- The slots that are accepted fit together into what was available. -/
theorem length_admitWithin_nsmul_le (perSlotCost : ℕ × ℕ) (candidates : List String)
    (remaining : ℕ × ℕ) :
    (admitWithin perSlotCost candidates remaining).length • perSlotCost ≤ remaining := by
  induction candidates generalizing remaining with
  | nil => simp [admitWithin]
  | cons ct candidates ih =>
    rw [admitWithin]
    split
    · rename_i hfits
      have hrest := ih (remaining.1 - perSlotCost.1, remaining.2 - perSlotCost.2)
      rw [List.length_cons, succ_nsmul]
      refine (add_le_add hrest le_rfl).trans ?_
      exact ⟨(Nat.sub_add_cancel hfits.1).le, (Nat.sub_add_cancel hfits.2).le⟩
    · exact ih remaining

/-- Releasing the orphans makes no lease active. -/
theorem fades_releaseOrphanedWarmPoolLeases (installedClaws : List String) :
    Fades now leases now (releaseOrphanedWarmPoolLeases now installedClaws leases) := by
  refine Fades.foldl _ (fun leases ownerId => ?_) _ _
  split
  · exact .refl
  · exact Fades.releaseLease _

theorem Room.mono {demand demand' : ℕ × ℕ} (h : Room host now leases demand)
    (hle : demand' ≤ demand) : Room host now leases demand' :=
  (add_le_add le_rfl hle).trans h

/-- Room is not lost when leases fade. -/
theorem Room.fades {demand : ℕ × ℕ} (h : Room host now leases demand) {now' : ℕ}
    {leases' : LeaseTable} (hfades : Fades now leases now' leases') :
    Room host now' leases' demand :=
  (add_le_add hfades.sum_le le_rfl).trans h

end

end Theyos.Capacity

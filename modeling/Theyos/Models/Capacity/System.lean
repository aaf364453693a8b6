import Theyos.Models.Capacity.Admission

/-!
# Requests, the reconciler and the lock

Creating an instance, giving a restarted one its lease and refilling the warm pool happen under
the capacity lock, in several steps each. Leases are extended, finalised and released without
it, between any two of those steps, and time passes.
-/

namespace Theyos.Capacity

open Lease LeaseTable

/-- The seconds that an instance has to come up. -/
def provisioningTtlSecs : ℕ := 1200

/-- What is asked for a new instance. -/
structure CreateRequest where
  clawType : String
  cpuCores : ℕ
  ramMb : ℕ
  diskGb : ℕ
  deriving DecidableEq, Repr

/-- How far the creation of an instance has come. -/
inductive CreateStage where
  /-- The capacity check has passed. -/
  | checked
  /-- It is known whether the warm lease is to be handed over. -/
  | decided (useWarmPool : Bool)
  /-- The row and its leases are inserted. -/
  | inserted (instanceId : String) (useWarmPool : Bool)
  /-- A later step failed and the leases of the instance are released. -/
  | rolledBack (restoreWarmPoolLease : Bool)
  deriving DecidableEq, Repr

/-- What holds the capacity lock. -/
inductive Holder where
  | create (req : CreateRequest) (stage : CreateStage)
  | restart (instanceId : String) (cpu ram : ℕ)
  | reconcile (targets : List String)
  deriving DecidableEq, Repr

/-- The clock, the leases and the holder of the capacity lock. -/
structure System where
  now : ℕ
  leases : LeaseTable
  lock : Option Holder
  deriving DecidableEq, Repr

/-- No leases and nobody at work. -/
def System.empty (now : ℕ) : System := ⟨now, [], none⟩

/-- One step of a request, of a background task or of the clock. -/
inductive Action where
  | wait (seconds : ℕ)
  /-- A create request takes the lock and checks the capacity. -/
  | createCheck (req : CreateRequest) (availableDiskGb : ℕ)
  /-- It looks once more for a warm lease. -/
  | createDecide
  /-- It inserts the row and the leases. -/
  | createInsert (instanceId : String)
  /-- After a later failure it releases the leases; a failed release is only logged. -/
  | rollbackRelease (stored : Bool)
  /-- It gives the warm pool its lease back. -/
  | rollbackRestore
  /-- A restart request takes the lock and checks the capacity, unless a lease is active. -/
  | restartCheck (instanceId clawType : String) (cpu ram availableDiskGb : ℕ)
  /-- It creates the lease of the instance. -/
  | restartLease
  /-- A tick of the reconciler takes the lock and decides what to refill. -/
  | reconcileDecide (installedClaws : List String) (slotStates : String → SlotState)
      (availableDiskGb : ℕ)
  /-- It creates the lease of the next slot. -/
  | reconcileLease
  /-- The holder of the lock is done, or fails. -/
  | dropLock
  | extendLease (key : LeaseKey) (newExpiresAt : ℕ)
  | finalizeLease (key : LeaseKey)
  | releaseLease (key : LeaseKey)
  | releaseAllLeases (ownerType : LeaseOwnerType) (ownerId : String)
  | reap (missing : String → Bool)

/-- The lease that a refill creates. -/
def slotLease (clawType : String) : NewLease :=
  ⟨warmPoolSlotKey clawType, slotCpu, slotRam, 0, none⟩

/-- The lease that a restart creates. -/
def restartLease (instanceId : String) (cpu ram : ℕ) : NewLease :=
  ⟨runtimeKey instanceId, cpu, ram, 0, none⟩

/-- The lease that a rollback gives back to the warm pool. -/
def restoredLease (req : CreateRequest) : NewLease :=
  ⟨warmPoolSlotKey req.clawType, req.cpuCores, req.ramMb, 0, none⟩

/-- The leases of a new instance, those of the warm pool handed over or not. -/
def insertInstance (now : ℕ) (req : CreateRequest) (instanceId : String) (useWarmPool : Bool)
    (leases : LeaseTable) : Option LeaseTable :=
  if useWarmPool then
    insertWithWarmPoolLeases now provisioningTtlSecs instanceId req.clawType req.cpuCores
      req.ramMb req.diskGb leases
  else
    insertWithLeases now provisioningTtlSecs instanceId req.cpuCores req.ramMb req.diskGb leases

namespace System

variable (host : Host) (s : System)

/-- Check the capacity and hold the lock on if it suffices. -/
def checkAndHold (availableDiskGb : ℕ) (req : CapacityRequest) (holder : Holder) : System :=
  match checkCapacity host availableDiskGb s.now s.leases req with
  | .ok _ => { s with lock := some holder }
  | .error _ => s

/-- Create a lease, or leave the table as it is. -/
def tryLease (new : NewLease) (lock : Option Holder) : System :=
  { s with leases := (createLease s.now new s.leases).getD s.leases, lock }

/-- The step of an action, if it is possible. -/
def next : Action → Option System
  | .wait seconds => some { s with now := s.now + seconds }
  | .createCheck req availableDiskGb => do
    guard s.lock.isNone
    pure (s.checkAndHold host availableDiskGb
      ⟨req.cpuCores, req.ramMb, req.diskGb, some req.clawType⟩
      (.create req .checked))
  | .createDecide =>
    match s.lock with
    | some (.create req .checked) =>
      let useWarmPool :=
        requestMatchesWarmPoolLease s.now s.leases (some req.clawType) req.cpuCores req.ramMb
      some { s with lock := some (.create req (.decided useWarmPool)) }
    | _ => none
  | .createInsert instanceId =>
    match s.lock with
    | some (.create req (.decided useWarmPool)) =>
      match insertInstance s.now req instanceId useWarmPool s.leases with
      | some leases =>
        some { s with leases, lock := some (.create req (.inserted instanceId useWarmPool)) }
      | none => some { s with lock := none }
    | _ => none
  | .rollbackRelease stored =>
    match s.lock with
    | some (.create req (.inserted instanceId useWarmPool)) =>
      some { s with
        leases :=
          if stored then LeaseTable.releaseAllLeases s.now .forInstance instanceId s.leases
          else s.leases
        lock := some (.create req (.rolledBack useWarmPool)) }
    | _ => none
  | .rollbackRestore =>
    match s.lock with
    | some (.create req (.rolledBack true)) => some (s.tryLease (restoredLease req) none)
    | _ => none
  | .restartCheck instanceId clawType cpu ram availableDiskGb => do
    guard s.lock.isNone
    if hasActiveLease s.now (runtimeKey instanceId) s.leases then pure s
    else
      pure (s.checkAndHold host availableDiskGb ⟨cpu, ram, 0, some clawType⟩
        (.restart instanceId cpu ram))
  | .restartLease =>
    match s.lock with
    | some (.restart instanceId cpu ram) =>
      some (s.tryLease (Capacity.restartLease instanceId cpu ram) none)
    | _ => none
  | .reconcileDecide installedClaws slotStates availableDiskGb => do
    guard s.lock.isNone
    let leases := releaseOrphanedWarmPoolLeases s.now installedClaws s.leases
    let projection := computeCapacityProjection host availableDiskGb s.now leases
    let targets := decideRefillTargets s.now leases slotStates installedClaws
      (projection.availableCpu, projection.availableRam) slotSize
    pure { s with leases, lock := some (.reconcile targets) }
  | .reconcileLease =>
    match s.lock with
    | some (.reconcile (ct :: targets)) =>
      some (s.tryLease (slotLease ct) (some (.reconcile targets)))
    | _ => none
  | .dropLock => do
    guard s.lock.isSome
    pure { s with lock := none }
  | .extendLease key newExpiresAt =>
    some { s with leases := LeaseTable.extendLease key newExpiresAt s.leases }
  | .finalizeLease key => some { s with leases := LeaseTable.finalizeLease key s.leases }
  | .releaseLease key => some { s with leases := LeaseTable.releaseLease s.now key s.leases }
  | .releaseAllLeases ownerType ownerId =>
    some { s with leases := LeaseTable.releaseAllLeases s.now ownerType ownerId s.leases }
  | .reap missing => some { s with leases := reapExpiredLeases s.now missing s.leases }

/-- The active runtime leases stay within the budgets of the projection. -/
def WithinBudget : Prop :=
  let projection := computeCapacityProjection host 0 s.now s.leases
  projection.allocatedCpu ≤ projection.cpuBudget ∧ projection.allocatedRam ≤ projection.ramBudget

instance : Decidable (s.WithinBudget host) :=
  inferInstanceAs (Decidable (_ ∧ _))

end System

end Theyos.Capacity

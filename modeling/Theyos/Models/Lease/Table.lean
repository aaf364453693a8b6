import Theyos.Core.Machine.Guard
import Theyos.Core.Store.Load
import Mathlib.Algebra.Order.Monoid.Prod

/-!
# The table of resource leases

A lease reserves cores, memory or disk for an instance or for a slot of the warm pool. It is never
deleted: it is released, or it expires.
-/

namespace Theyos.Lease

open Store

/-- What holds a lease. -/
inductive LeaseOwnerType where
  | forInstance
  | warmPool
  deriving DecidableEq, Repr

/-- What a lease reserves. -/
inductive LeaseKind where
  | runtime
  | storage
  deriving DecidableEq, Repr

/-- The columns of the unique index over the unreleased leases. -/
structure LeaseKey where
  ownerType : LeaseOwnerType
  ownerId : String
  leaseKind : LeaseKind
  deriving DecidableEq, Repr

/-- The runtime lease of an instance. -/
def runtimeKey (instanceId : String) : LeaseKey := ⟨.forInstance, instanceId, .runtime⟩

/-- The storage lease of an instance. -/
def storageKey (instanceId : String) : LeaseKey := ⟨.forInstance, instanceId, .storage⟩

/-- The runtime lease of the warm-pool slot of a claw type. -/
def warmPoolSlotKey (clawType : String) : LeaseKey := ⟨.warmPool, clawType ++ ":slot:0", .runtime⟩

/-- A lease to be created. -/
structure NewLease where
  key : LeaseKey
  cpuCores : ℕ
  ramMb : ℕ
  diskGb : ℕ
  expiresAt : Option ℕ
  deriving DecidableEq, Repr

/-- A row of the table. -/
structure ResourceLease extends NewLease where
  acquiredAt : ℕ
  releasedAt : Option ℕ
  deriving DecidableEq, Repr

abbrev LeaseTable := List ResourceLease

namespace ResourceLease

/-- Not released, expired or not. -/
def unreleased (lease : ResourceLease) : Bool := lease.releasedAt.isNone

/-- Not released and not expired. -/
def active (now : ℕ) (lease : ResourceLease) : Bool :=
  lease.unreleased && lease.expiresAt.all (now < ·)

/-- The cores and the memory of a lease. -/
def size (lease : ResourceLease) : ℕ × ℕ := (lease.cpuCores, lease.ramMb)

/-- The cores and the memory that a lease takes from the host. -/
def runtimeUse (now : ℕ) (lease : ResourceLease) : ℕ × ℕ :=
  if lease.active now ∧ lease.key.leaseKind = .runtime then lease.size else (0, 0)

/-- The disk that a lease takes from the host. -/
def storageUse (lease : ResourceLease) : ℕ :=
  if lease.unreleased ∧ lease.key.leaseKind = .storage then lease.diskGb else 0

end ResourceLease

namespace LeaseTable

variable (now : ℕ)

/-- Insert a lease; the unique index and the check on the expiry can refuse it. -/
def createLease (new : NewLease) (leases : LeaseTable) : Option LeaseTable := do
  guard (∀ lease ∈ leases, lease.key = new.key → lease.unreleased = false)
  guard (new.expiresAt.all (now ≤ ·))
  pure (leases ++ [{ new with acquiredAt := now, releasedAt := none }])

/-- Release the unreleased leases that a condition picks. -/
def releaseWhere (picked : ResourceLease → Bool) (leases : LeaseTable) : LeaseTable :=
  leases.map fun lease =>
    if lease.unreleased && picked lease then { lease with releasedAt := some now } else lease

section

variable (key : LeaseKey)

def releaseLease (leases : LeaseTable) : LeaseTable :=
  releaseWhere now (·.key = key) leases

def releaseAllLeases (ownerType : LeaseOwnerType) (ownerId : String)
    (leases : LeaseTable) : LeaseTable :=
  releaseWhere now (fun lease => lease.key.ownerType = ownerType ∧ lease.key.ownerId = ownerId)
    leases

/-- Set the expiry of the unreleased lease of a key, expired or not. -/
def setExpiry (expiresAt : Option ℕ) (leases : LeaseTable) : LeaseTable :=
  leases.map fun lease =>
    if lease.unreleased && lease.key = key then { lease with expiresAt } else lease

/-- Extend a lease; an expiry before the acquisition fails the whole statement. -/
def extendLease (newExpiresAt : ℕ) (leases : LeaseTable) : LeaseTable :=
  if ∀ lease ∈ leases, lease.unreleased && lease.key = key → lease.acquiredAt ≤ newExpiresAt then
    setExpiry key (some newExpiresAt) leases
  else leases

variable (leases : LeaseTable)

def finalizeLease : LeaseTable := setExpiry key none leases

/-- The cores and the memory of the active runtime leases. -/
def sumActiveRuntimeLeases : ℕ × ℕ :=
  load (ResourceLease.runtimeUse now) leases

/-- The disk of the unreleased storage leases. -/
def sumActiveStorageLeases : ℕ := load ResourceLease.storageUse leases

def hasActiveLease : Bool :=
  leases.any fun lease => lease.key = key && lease.active now

end

/-- The owners of the active leases of the warm pool. -/
def activeWarmPoolLeaseOwners (leases : LeaseTable) : List String :=
  (leases.filter fun lease => lease.key.ownerType = .warmPool && lease.active now).map
    (·.key.ownerId)

/-- The runtime leases that expired without being released. -/
def expiredRuntimeLeases (leases : LeaseTable) : List ResourceLease :=
  leases.filter fun lease =>
    lease.unreleased && lease.key.leaseKind = .runtime && lease.expiresAt.any (· ≤ now)

/-- Insert the leases of a new instance: the runtime lease expires unless it is finalised. -/
def insertWithLeases (now ttlSecs : ℕ) (instanceId : String) (cpu ram disk : ℕ)
    (leases : LeaseTable) : Option LeaseTable := do
  let leases ← createLease now ⟨runtimeKey instanceId, cpu, ram, 0, some (now + ttlSecs)⟩ leases
  createLease now ⟨storageKey instanceId, 0, 0, disk, none⟩ leases

/-- Insert the leases of a new instance in the place of the active lease of the warm pool. -/
def insertWithWarmPoolLeases (now ttlSecs : ℕ) (instanceId clawType : String)
    (cpu ram disk : ℕ) (leases : LeaseTable) : Option LeaseTable := do
  guard (hasActiveLease now (warmPoolSlotKey clawType) leases)
  insertWithLeases now ttlSecs instanceId cpu ram disk
    (releaseWhere now (fun lease => lease.key = warmPoolSlotKey clawType && lease.active now) leases)

/-- One pass of the reaper: an expired lease of an instance is released, with all the leases
of its owner when the owner has no row. -/
def reapExpiredLeases (now : ℕ) (missing : String → Bool) (leases : LeaseTable) : LeaseTable :=
  (expiredRuntimeLeases now leases).foldl
    (fun leases lease =>
      if lease.key.ownerType ≠ .forInstance then leases
      else if missing lease.key.ownerId then
        releaseAllLeases now .forInstance lease.key.ownerId leases
      else releaseLease now (runtimeKey lease.key.ownerId) leases)
    leases

end LeaseTable

end Theyos.Lease

import Theyos.Models.Instances.Flows

/-!
# Flows, sweeps and restarts of the server

Requests and the jobs they queue run their flows one after another.
-/

namespace Theyos.Instances

open Lease LeaseTable

namespace World

variable (w : World)

/-- Reap an expired lease of an instance. -/
def reapLease (lease : ResourceLease) : World :=
  let id := lease.key.ownerId
  if lease.key.ownerType ≠ .forInstance then w
  else
    match w.rows id with
    | some row =>
      let w := if row.status = .provisioning then w.updateStatus id .failed else w
      w.releaseRuntimeLease id
    | none => w.releaseInstanceLeases id

/-- One pass of the reaper. -/
def reapExpiredLeasesOnce : World := (expiredRuntimeLeases w.now w.leases).foldl reapLease w

/-- An active instance is found dead: its container was swept, or it has no state directory. -/
def foundDead (cleanedContainers : List String) (envExists : String → Bool) (id : String) : Bool :=
  (w.rows id).any fun row => row.status = .active ∧
    (row.container ∈ cleanedContainers ∨
      row.deletedAt = none ∧ row.clawType ≠ "mac-host" ∧ envExists row.container = false)

/-- Mark the instances that are found dead as stopped and release their runtime leases. -/
def reconcileAfterSweep (cleanedContainers : List String) (envExists : String → Bool) : World :=
  let dead := w.foundDead cleanedContainers envExists
  { w with
    rows := fun id => if dead id then (w.rows id).map ({ · with status := .stopped }) else w.rows id
    leases := releaseWhere w.now
      (fun lease => lease.key.ownerType = .forInstance && lease.key.leaseKind = .runtime &&
        dead lease.key.ownerId)
      w.leases }

/-- The instances that are to be brought up again after a restart of the server. -/
def previouslyActive (id : String) : Bool :=
  (w.rows id).any fun row =>
    row.deletedAt = none ∧ row.status = .active ∧ row.clawType ≠ "mac-host"

/-- Give a restarted instance a runtime lease unless one is active. -/
def ensureRestartedRuntimeLease (id : String) (cpu ram : ℕ) : World :=
  if hasActiveLease w.now (runtimeKey id) w.leases then w
  else { w with
    leases := (createLease w.now (Capacity.restartLease id cpu ram) w.leases).getD w.leases }

/-- Bring an instance up again after a restart of the server. -/
def autoRestart (id : String) (call : Call) : World :=
  match w.rows id with
  | none => w
  | some row =>
    match w.executeRestart id row.container call with
    | (w, true) => w.ensureRestartedRuntimeLease id row.cpuCores row.ramConfigMb
    | (w, false) => w

end World

/-- The world, the create jobs that wait, the instance whose create flow runs, and those that
the server still has to bring up. -/
structure Site where
  world : World
  pending : List String
  creating : Option String
  toRestart : String → Bool

def Site.empty (now : ℕ) : Site := ⟨.empty now, [], none, fun _ => false⟩

/-- A create job of the instance waits or runs. -/
def Site.awaits (s : Site) (id : String) : Bool := id ∈ s.pending ∨ s.creating = some id

inductive Action where
  | wait (seconds : ℕ)
  | vmDies (container : String)
  | createRequest (name clawType : String) (cpu ram disk : ℕ) (useWarmPool : Bool)
  | beginCreate (id : String)
  | endCreate (create cleanup : Call)
  | stop (id : String) (call : Call)
  | restart (id : String) (admitted : Bool) (call : Call)
  | rebuild (id : String) (call : Call)
  | delete (id : String) (stop delete : Call) (cleanupFs : Bool)
  | reap
  | startup (cleanedContainers : List String) (envExists : String → Bool)
  | autoRestart (id : String) (call : Call)

namespace Site

variable (s : Site)

/-- Run a flow when the executor is free. -/
def run (flow : World → World) : Option Site := do
  guard s.creating.isNone
  pure { s with world := flow s.world }

/-- The step of an action, if it is possible. -/
def next : Action → Option Site
  | .wait seconds => some { s with world := { s.world with now := s.world.now + seconds } }
  | .vmDies container => some { s with world := s.world.setVm container false }
  | .createRequest name clawType cpu ram disk useWarmPool => do
    let world ← s.world.insertInstance name clawType cpu ram disk useWarmPool
    pure { s with world, pending := s.pending ++ ["inst-" ++ name] }
  | .beginCreate id => do
    guard (s.creating.isNone ∧ id ∈ s.pending)
    pure { s with
      world := s.world.beginCreate id
      pending := s.pending.erase id
      creating := some id }
  | .endCreate create cleanup => do
    let id ← s.creating
    let row ← s.world.rows id
    let status := if create = .ok then InstanceStatus.active else .failed
    let world := (s.world.endCreate id row.container create cleanup).updateStatus id status
    pure { s with world, creating := none }
  | .stop id call => s.run (·.stopInstance id call)
  | .restart id admitted call => s.run (·.restartInstance id admitted call)
  | .rebuild id call => s.run (·.rebuildInstance id call)
  | .delete id stop delete cleanupFs => s.run (·.deleteInstance id stop delete cleanupFs)
  | .reap => some { s with world := s.world.reapExpiredLeasesOnce }
  | .startup cleanedContainers envExists =>
    some { s with
      world := s.world.reconcileAfterSweep cleanedContainers envExists
      creating := none
      toRestart := s.world.previouslyActive }
  | .autoRestart id call => do
    guard (s.toRestart id)
    let s := { s with toRestart := Function.update s.toRestart id false }
    s.run (·.autoRestart id call)

end Site

end Theyos.Instances

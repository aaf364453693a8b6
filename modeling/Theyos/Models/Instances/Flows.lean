import Theyos.Models.Capacity.System
import Theyos.Models.Lease.Standing

/-!
# The flows of an instance

An instance has a row, leases, and a virtual machine that is named by its container. The executor
runs one flow at a time: it calls the runner, which can fail and leave the machine running or not,
and writes the row and the leases.
-/

namespace Theyos.Instances

open Lease LeaseTable

inductive InstanceStatus where
  | provisioning
  | active
  | stopped
  | failed
  deriving DecidableEq, Repr

/-- What is kept of an instance. -/
structure InstanceRow where
  name : String
  container : String
  clawType : String
  cpuCores : ℕ
  ramConfigMb : ℕ
  diskGb : ℕ
  status : InstanceStatus
  deletedAt : Option ℕ
  deriving DecidableEq, Repr

/-- The configured cores and memory. -/
def InstanceRow.size (row : InstanceRow) : ℕ × ℕ := (row.cpuCores, row.ramConfigMb)

/-- The clock, the rows, the unique index over their containers, the leases and the machines. -/
structure World where
  now : ℕ
  rows : String → Option InstanceRow
  containers : String → Option String
  leases : LeaseTable
  /-- Whether a machine runs under a container name. -/
  vms : String → Bool

def World.empty (now : ℕ) : World := ⟨now, fun _ => none, fun _ => none, [], fun _ => false⟩

/-- How a call on the runner ends: a failed one leaves the machine running or not. -/
inductive Call where
  | ok
  | failed (running : Bool)
  deriving DecidableEq, Repr

/-- Whether the machine runs after a call that is to start it. -/
def Call.started : Call → Bool
  | ok => true
  | failed running => running

/-- Whether the machine still runs after a call that is to end it. -/
def Call.survived (before : Bool) : Call → Bool
  | ok => false
  | failed running => before && running

namespace World

variable (w : World)

def setVm (container : String) (running : Bool) : World :=
  { w with vms := Function.update w.vms container running }

/-- Rewrite the row of an instance, if there is one. -/
def updateRow (id : String) (f : InstanceRow → InstanceRow) : World :=
  { w with rows := Function.update w.rows id ((w.rows id).map f) }

/-- Set the status of a row, deleted or not. -/
def updateStatus (id : String) (status : InstanceStatus) : World :=
  w.updateRow id ({ · with status })

/-- Mark a row as deleted; it stays in the table. -/
def softDelete (id : String) : World :=
  w.updateRow id ({ · with deletedAt := some w.now, status := .stopped })

def releaseRuntimeLease (id : String) : World :=
  { w with leases := releaseLease w.now (runtimeKey id) w.leases }

def releaseStorageLease (id : String) : World :=
  { w with leases := releaseLease w.now (storageKey id) w.leases }

def releaseInstanceLeases (id : String) : World :=
  { w with leases := releaseAllLeases w.now .forInstance id w.leases }

/-- Insert an instance with its leases, in the place of a warm lease or beside the others. -/
def insertInstance (name clawType : String) (cpu ram disk : ℕ) (useWarmPool : Bool) :
    Option World := do
  let id := "inst-" ++ name
  let container := clawType ++ "-" ++ name
  guard (w.rows id).isNone
  guard (w.containers container).isNone
  let leases ← Capacity.insertInstance w.now ⟨clawType, cpu, ram, disk⟩ id useWarmPool w.leases
  let row : InstanceRow := ⟨name, container, clawType, cpu, ram, disk, .provisioning, none⟩
  pure { w with
    rows := Function.update w.rows id (some row)
    containers := Function.update w.containers container (some id)
    leases }

/-- The create flow sets the phase and extends the lease before it calls the runner. -/
def beginCreate (id : String) : World :=
  let w := w.updateStatus id .provisioning
  { w with leases := extendLease (runtimeKey id) (w.now + 1200) w.leases }

variable (id container : String)

/-- After the call the instance is active and its lease final, or the machine is deleted and
the leases are released. -/
def endCreate (create cleanup : Call) : World :=
  match create with
  | .ok =>
    let w := (w.setVm container true).updateStatus id .active
    { w with leases := finalizeLease (runtimeKey id) w.leases }
  | .failed running =>
    (w.setVm container (cleanup.survived running)).releaseInstanceLeases id

/-- The stop flow releases the runtime lease once the machine is stopped. -/
def executeStop (call : Call) : World × Bool :=
  let stopped := w.setVm container (call.survived (w.vms container))
  match call with
  | .ok => ((stopped.updateStatus id .stopped).releaseRuntimeLease id, true)
  | .failed _ => (stopped, false)

/-- A flow that brings the machine up and touches no lease. -/
def executeBoot (call : Call) : World × Bool :=
  let booted := w.setVm container call.started
  match call with
  | .ok => (booted.updateStatus id .active, true)
  | .failed _ => (booted, false)

def executeRestart (call : Call) : World × Bool :=
  w.executeBoot id container call

def executeRebuild (call : Call) : World × Bool :=
  w.executeBoot id container call

/-- The delete flow goes on after every failed call; only a failed clean-up of the file system
keeps the storage lease. -/
def executeDelete (stop delete : Call) (cleanupFs : Bool) : World :=
  let w := (w.setVm container (stop.survived (w.vms container))).releaseRuntimeLease id
  let w := w.setVm container (delete.survived (w.vms container))
  let w := if cleanupFs then w.releaseStorageLease id else w
  w.softDelete id

/-- A stop request. -/
def stopInstance (id : String) (call : Call) : World :=
  match w.rows id with
  | none => w
  | some row =>
    match w.executeStop id row.container call with
    | (w, true) => w.updateStatus id .stopped
    | (w, false) => w

/-- A rebuild request takes no lease. -/
def rebuildInstance (id : String) (call : Call) : World :=
  match w.rows id with
  | none => w
  | some row =>
    match w.executeRebuild id row.container call with
    | (w, true) => w.updateStatus id .active
    | (w, false) => w

/-- A restart request takes a runtime lease unless one is active, and gives the lease that it
took back when the flow fails. -/
def restartInstance (id : String) (admitted : Bool) (call : Call) : World :=
  match w.rows id with
  | none => w
  | some row =>
    if hasActiveLease w.now (runtimeKey id) w.leases then
      match w.executeRestart id row.container call with
      | (w, true) => w.updateStatus id .active
      | (w, false) => w
    else if admitted then
      match createLease w.now (Capacity.restartLease id row.cpuCores row.ramConfigMb) w.leases with
      | none => w
      | some leases =>
        match { w with leases }.executeRestart id row.container call with
        | (w, true) => w.updateStatus id .active
        | (w, false) => w.releaseRuntimeLease id
    else w

/-- A delete request. -/
def deleteInstance (id : String) (stop delete : Call) (cleanupFs : Bool) : World :=
  match w.rows id with
  | none => w
  | some row => (w.executeDelete id row.container stop delete cleanupFs).softDelete id

end World

end Theyos.Instances

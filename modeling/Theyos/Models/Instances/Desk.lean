import Theyos.Models.Instances.Sweeps
import Theyos.Models.Jobs.Store

/-!
# Creating and deleting an instance

A create request inserts the row and then queues a job; the worker claims the job at some later
time, has the executor run its flow, and marks first the job and then the row.
-/

namespace Theyos.Instances

open Lease LeaseTable Jobs Machine

/-- A create request whose row is inserted and whose job is not yet queued. -/
structure Request where
  id : String
  container : String
  useWarmPool : Bool
  deriving DecidableEq, Repr

/-- How far the worker is with a job. -/
inductive Worker where
  | idle
  | claimed (job : Job)
  /-- The executor runs the create flow of the job. -/
  | executing (job : Job)
  /-- The flow has ended, well or not. -/
  | executed (job : Job) (completed : Bool)
  /-- The job is marked, the row is not. -/
  | marked (job : Job) (completed : Bool)
  deriving DecidableEq, Repr

/-- The job that the worker has in hand. -/
def Worker.job? : Worker → Option Job
  | idle => none
  | claimed job | executing job | executed job _ | marked job _ => some job

/-- The world, the jobs, the create requests under way, the worker, and the delete requests whose
flow has run and those that have returned. -/
structure Desk where
  world : World
  jobs : Table
  requests : List Request
  worker : Worker
  deleting : List String
  deleted : List String

def Desk.empty (now : ℕ) : Desk := ⟨.empty now, [], [], .idle, [], []⟩

/-- Undo the insertion of an instance: its leases are released, the warm lease is restored and
the row is gone. -/
def World.rollBack (w : World) (id : String) (restoreWarmPoolLease : Bool) : World :=
  match w.rows id with
  | none => w.releaseInstanceLeases id
  | some row =>
    let w := w.releaseInstanceLeases id
    let restored : NewLease :=
      ⟨warmPoolSlotKey row.clawType, row.cpuCores, row.ramConfigMb, 0, none⟩
    { w with
      rows := Function.update w.rows id none
      containers := Function.update w.containers row.container none
      leases :=
        if restoreWarmPoolLease then (createLease w.now restored w.leases).getD w.leases
        else w.leases }

namespace Desk

inductive Action where
  /-- A create request inserts its row and leases. -/
  | insert (name clawType : String) (cpu ram disk : ℕ) (useWarmPool : Bool)
  /-- It queues its job, or undoes the insertion. -/
  | createJob (request : Request) (jobId : String) (createdAt : ℕ) (written : Bool)
  | claim (jobId : String)
  /-- During maintenance the claimed job is put back. -/
  | defer
  | beginCreate
  | endCreate (create cleanup : Call)
  | markJob (written : Bool)
  | markRow
  /-- The delete flow of a request. -/
  | delete (id : String) (stop delete : Call) (cleanupFs : Bool)
  /-- The request marks the row and returns success. -/
  | deleteReturns (id : String)
  deriving DecidableEq, Repr

variable (s : Desk)

/-- The executor runs no create flow. -/
def executorFree : Bool :=
  match s.worker with
  | .executing _ => false
  | _ => true

/-- The status that a job ends with. -/
def finalStatus (completed : Bool) : Jobs.Status := if completed then .completed else .failed

/-- The step of an action, if it is possible. -/
def next : Action → Option Desk
  | .insert name clawType cpu ram disk useWarmPool => do
    let world ← s.world.insertInstance name clawType cpu ram disk useWarmPool
    let request := ⟨"inst-" ++ name, clawType ++ "-" ++ name, useWarmPool⟩
    pure { s with world, requests := request :: s.requests }
  | .createJob request jobId createdAt written => do
    guard (request ∈ s.requests)
    let s := { s with requests := s.requests.erase request }
    let job := Job.new jobId .createInstance request.id request.container createdAt
    match written, s.jobs.create job with
    | true, .ok jobs =>
      pure { s with jobs, world := s.world.updateStatus request.id .provisioning }
    | _, _ => pure { s with world := s.world.rollBack request.id request.useWarmPool }
  | .claim jobId => do
    guard (s.worker = .idle)
    let (job, jobs) ← s.jobs.claimNextPending (· ∉ Table.installTypes) jobId
    pure { s with jobs, worker := .claimed job }
  | .defer =>
    match s.worker with
    | .claimed job =>
      some { s with
        jobs := s.jobs.update job.id fun _ => { job with status := .pending }
        worker := .idle }
    | _ => none
  | .beginCreate =>
    match s.worker with
    | .claimed job =>
      some { s with world := s.world.beginCreate job.instanceId, worker := .executing job }
    | _ => none
  | .endCreate create cleanup =>
    match s.worker with
    | .executing job =>
      some { s with
        world := s.world.endCreate job.instanceId job.payload create cleanup
        worker := .executed job (create = .ok) }
    | _ => none
  | .markJob written =>
    match s.worker with
    | .executed job completed =>
      some { s with
        jobs :=
          if written then s.jobs.update job.id ({ · with status := finalStatus completed })
          else s.jobs
        worker := .marked job completed }
    | _ => none
  | .markRow =>
    match s.worker with
    | .marked job completed =>
      some { s with
        world := s.world.updateStatus job.instanceId (if completed then .active else .failed)
        worker := .idle }
    | _ => none
  | .delete id stop delete cleanupFs => do
    guard s.executorFree
    let row ← s.world.rows id
    pure { s with
      world := s.world.executeDelete id row.container stop delete cleanupFs
      deleting := id :: s.deleting }
  | .deleteReturns id => do
    guard (id ∈ s.deleting)
    pure { s with
      world := s.world.softDelete id
      deleting := s.deleting.erase id
      deleted := id :: s.deleted }

/-- A create request, a live job or the worker has still to do with the instance. -/
def busy (id : String) : Bool :=
  s.requests.any (·.id = id) || s.jobs.any (fun job => job.instanceId = id && job.live) ||
    s.worker.job?.any (·.instanceId = id)

end Desk

end Theyos.Instances

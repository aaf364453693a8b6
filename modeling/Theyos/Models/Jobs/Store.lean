import Theyos.Core.Machine.Guard
import Mathlib.Data.List.Nodup

/-!
# The job store

A table of jobs, one row for each identifier. A worker claims the oldest pending job of
its types; a job that is pending or running is live.
-/

namespace Theyos.Jobs

open Machine

/-- What a job does. -/
inductive JobType where
  | createInstance
  | deleteInstance
  | restartInstance
  | installClaw
  | uninstallClaw
  | unknown (name : String)
  deriving DecidableEq, Repr

/-- How far a job is. -/
inductive Status where
  | pending
  | running
  | completed
  | failed
  deriving DecidableEq, Repr

/-- A row of the table. -/
structure Job where
  id : String
  jobType : JobType
  status : Status
  instanceId : String
  payload : String
  error : Option String
  createdAt : ℕ
  deriving DecidableEq, Repr

/-- A job that waits or is being worked on. -/
def Job.live (job : Job) : Bool := job.status = .pending ∨ job.status = .running

/-- Why a call on the store fails. -/
inductive JobError where
  | notFound (id : String)
  | database
  deriving DecidableEq, Repr

/-- A new job. -/
def Job.new (id : String) (jobType : JobType) (instanceId payload : String) (now : ℕ) : Job :=
  ⟨id, jobType, .pending, instanceId, payload, none, now⟩

/-- The rows of the table. -/
abbrev Table := List Job

namespace Table

variable (t : Table)

/-- Insert a row; an identifier is given once. -/
def create (job : Job) : Except JobError Table := do
  require (∀ row ∈ t, row.id ≠ job.id) .database
  return job :: t

/-- The row of an identifier. -/
def get (id : String) : Except JobError Job := okOr (t.find? (·.id = id)) (.notFound id)

/-- Rewrite the row of an identifier. -/
def update (id : String) (f : Job → Job) : Table :=
  t.map fun row => if row.id = id then f row else row

/-- Delete the row of an identifier. -/
def deleteById (id : String) : Except JobError Table := do
  require (∃ row ∈ t, row.id = id) (.notFound id)
  return t.filter (·.id ≠ id)

/-- Fail every live job of the given types. -/
def failLive (types : List JobType) (error : String) : Table :=
  t.map fun row =>
    if row.jobType ∈ types ∧ row.live then { row with status := .failed, error := some error }
    else row

def installTypes : List JobType := [.installClaw, .uninstallClaw]

/-- Fail the install and uninstall jobs that a restart left behind. -/
def resetStaleInstallJobs : Table := t.failLive installTypes "server restarted during operation"

/-- Claim a job: the oldest pending one of the types, whichever of several equally old. -/
def claimNextPending (types : JobType → Bool) (id : String) : Option (Job × Table) := do
  let job ← t.find? fun row => row.id = id ∧ row.status = .pending ∧ types row.jobType
  guard (∀ row ∈ t, row.status = .pending → types row.jobType → job.createdAt ≤ row.createdAt)
  return ({ job with status := .running }, t.update job.id ({ · with status := .running }))

variable {t}

theorem create_eq_ok {job : Job} {t' : Table} :
    t.create job = .ok t' ↔ (∀ row ∈ t, row.id ≠ job.id) ∧ t' = job :: t := by
  simp only [create, eq_ok_iff, eq_comm (a := t')]

/-- Deleting leaves the other rows, whether or not there was one to delete. -/
theorem getD_deleteById (t : Table) (id : String) :
    (t.deleteById id).toOption.getD t = t.filter (·.id ≠ id) := by
  by_cases hrow : ∃ row ∈ t, row.id = id
  · simp only [deleteById, require, if_pos hrow]
    rfl
  · simp only [deleteById, require, if_neg hrow]
    have hkeep : ∀ row ∈ t, row.id ≠ id := fun row hmem hid => hrow ⟨row, hmem, hid⟩
    exact (List.filter_eq_self.mpr fun row hmem => decide_eq_true (hkeep row hmem)).symm

/-- What a claim finds and writes. -/
theorem claimNextPending_eq_some {types : JobType → Bool} {id : String} {job : Job} {t' : Table}
    (h : t.claimNextPending types id = some (job, t')) :
    ∃ row ∈ t, row.id = id ∧ row.status = .pending ∧ types row.jobType ∧
      job = { row with status := .running } ∧
      t' = t.update row.id ({ · with status := .running }) := by
  simp only [claimNextPending, eq_some_iff] at h
  obtain ⟨row, hrow, -, -, hresult⟩ := h
  have hp := List.find?_some hrow
  rw [decide_eq_true_iff] at hp
  obtain ⟨hid, hpending, htype⟩ := hp
  cases hresult
  exact ⟨row, List.mem_of_find?_eq_some hrow, hid, hpending, htype, rfl, rfl⟩

/-- Rewriting rows without touching identifiers keeps them unique. -/
theorem nodup_map {f : Job → Job} (hf : ∀ row, (f row).id = row.id)
    (h : (t.map (·.id)).Nodup) : ((t.map f).map (·.id)).Nodup := by
  have hids : (t.map f).map (·.id) = t.map (·.id) := by
    rw [List.map_map]
    exact List.map_congr_left fun row _ => hf row
  rw [hids]
  exact h

end Table

end Theyos.Jobs

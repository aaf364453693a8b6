import Theyos.Core.Machine.Tasks
import Theyos.Models.Jobs.Store

/-!
# Installing and uninstalling claws

The status of each claw is kept in a file with a copy in memory, the jobs in a table of their own.
A request checks the status, creates a job and marks the status, in three steps; the install
worker claims a job, does its work, marks the status and then the job.
-/

namespace Theyos.ClawInstall

open Machine Jobs

/-- The status of a claw. -/
inductive ClawStatus where
  | notInstalled
  | installing
  | ready
  | failed
  | uninstalling
  deriving DecidableEq, Repr

/-- What is kept of a claw. -/
structure InstalledState where
  status : ClawStatus
  installedAt : Option String
  jobId : Option String
  error : Option String
  deriving DecidableEq, Repr

/-- The entries of the claws. -/
abbrev ClawMap := String → Option InstalledState

/-- The status of an entry. -/
def statusOf (entry : Option InstalledState) : ClawStatus := entry.elim .notInstalled (·.status)

/-- An entry that says that a job is on its way. -/
def transitional (entry : Option InstalledState) : Bool :=
  statusOf entry = .installing ∨ statusOf entry = .uninstalling

def installingState (jobId : String) : InstalledState := ⟨.installing, none, some jobId, none⟩
def uninstallingState : InstalledState := ⟨.uninstalling, none, none, none⟩
def readyState (now : String) : InstalledState := ⟨.ready, some now, none, none⟩
def failedState (error : String) : InstalledState := ⟨.failed, none, none, some error⟩

/-- The entries in memory and those of the state file. -/
structure ClawStore where
  state : ClawMap
  stateFile : ClawMap

namespace ClawStore

variable (store : ClawStore) (persisted : Bool)

/-- Write an entry to the file and then to memory, or to neither. -/
def setState (name : String) (entry : Option InstalledState) : ClawStore :=
  if persisted then
    ⟨Function.update store.state name entry, Function.update store.state name entry⟩
  else store

/-- An entry after a restart. -/
def resetEntry (entry : Option InstalledState) : Option InstalledState :=
  if transitional entry then
    entry.map ({ · with status := .failed, error := some "server restarted during operation" })
  else entry

/-- Reset the entries that a restart left behind; a failed write is only logged. -/
def resetStaleInstalling : ClawStore :=
  let state := fun name => resetEntry (store.state name)
  ⟨state, if persisted then state else store.stateFile⟩

/-- Mark the claws whose assets are found as ready, unless they are ready or on their way. -/
def seed (found : List String) (now : String) : ClawStore :=
  let state := fun name =>
    if name ∈ found ∧ ¬ transitional (store.state name) ∧ statusOf (store.state name) ≠ .ready then
      some (readyState now)
    else store.state name
  ⟨state, if persisted then state else store.stateFile⟩

end ClawStore

/-- What a request asks for. -/
inductive ClawStoreAction where
  | install
  | uninstall
  deriving DecidableEq, Repr

namespace ClawStoreAction

/-- The type of the job of a request. -/
def jobType : ClawStoreAction → JobType
  | install => .installClaw
  | uninstall => .uninstallClaw

/-- The entry that a request marks. -/
def mark : ClawStoreAction → String → InstalledState
  | install, jobId => installingState jobId
  | uninstall, _ => uninstallingState

end ClawStoreAction

/-- How far a request is. -/
inductive Phase where
  /-- Before the instances of the claw are counted. -/
  | counting
  /-- Before the job is created. -/
  | creating
  /-- Before the status is marked. -/
  | marking (jobId : String)
  /-- Before the job is deleted again. -/
  | rollingBack (jobId : String)
  | done
  deriving DecidableEq, Repr

/-- A request that passed its check. -/
structure Request where
  action : ClawStoreAction
  claw : String
  phase : Phase
  deriving DecidableEq, Repr

/-- How the work of a job ends. -/
inductive Outcome where
  | ready (now : String)
  | failed (error : String)
  | notInstalled
  deriving DecidableEq, Repr

namespace Outcome

/-- The entry of an outcome. -/
def entry : Outcome → Option InstalledState
  | ready now => some (readyState now)
  | failed error => some (failedState error)
  | notInstalled => none

/-- The row of a job after it. -/
def finish (outcome : Outcome) (row : Job) : Job :=
  match outcome with
  | failed error => { row with status := .failed, error := some error }
  | _ => { row with status := .completed }

/-- Whether a job can end so. -/
def possible (jobType : JobType) : Outcome → Bool
  | notInstalled => jobType = .uninstallClaw
  | _ => jobType = .installClaw

end Outcome

/-- How far the install worker is. -/
inductive Worker where
  | resettingClaws
  | resettingJobs
  | idle
  | working (job : Job)
  /-- The status of the claw is marked, the job is not. -/
  | settled (job : Job) (outcome : Outcome)
  deriving DecidableEq, Repr

/-- The server. -/
structure Server where
  clawStore : ClawStore
  jobs : Table
  requests : List Request
  worker : Worker
  /-- The identifiers that were generated, with the claws of their jobs; none is repeated. -/
  issued : List (String × String)

/-- A server that was never used, whose worker has reset what it found. -/
def Server.initial : Server := ⟨⟨fun _ => none, fun _ => none⟩, [], [], .idle, []⟩

/-- What is known of the claws. -/
structure Manifest where
  known : String → Bool
  installable : String → Bool

/-- What happens on a server. -/
inductive Action where
  | install (name : String)
  | uninstall (name : String)
  /-- The instances of the claw are counted, unless the query fails. -/
  | count (request : ℕ) (instances : Option ℕ)
  | createJob (request : ℕ) (id : String) (now : ℕ) (written : Bool)
  | mark (request : ℕ) (persisted : Bool)
  | rollback (request : ℕ) (deleted : Bool)
  | resetClaws (persisted : Bool)
  | resetJobs (written : Bool)
  | claim (id : String)
  | settle (outcome : Outcome) (persisted : Bool)
  | finishJob (written : Bool)
  /-- The server stops and starts again. -/
  | restart (found : List String) (now : String) (persisted : Bool)
  deriving DecidableEq, Repr

/-- Whether an install request passes its checks. -/
def installAdmitted (manifest : Manifest) (s : Server) (name : String) : Bool :=
  manifest.known name ∧ manifest.installable name ∧
    statusOf (s.clawStore.state name) ≠ .ready ∧ statusOf (s.clawStore.state name) ≠ .installing

/-- Whether an uninstall request passes its checks. -/
def uninstallAdmitted (manifest : Manifest) (s : Server) (name : String) : Bool :=
  manifest.known name ∧ statusOf (s.clawStore.state name) = .ready

/-- Put a request into another phase. -/
def Server.moveTo (s : Server) (i : ℕ) (request : Request) (phase : Phase) : Server :=
  { s with requests := s.requests.set i { request with phase := phase } }

/-- The next state of a server. -/
def next (manifest : Manifest) (s : Server) : Action → Option Server
  | .install name =>
    if installAdmitted manifest s name then
      some { s with requests := s.requests ++ [⟨.install, name, .creating⟩] }
    else some s
  | .uninstall name =>
    if uninstallAdmitted manifest s name then
      some { s with requests := s.requests ++ [⟨.uninstall, name, .counting⟩] }
    else some s
  | .count i instances => do
    let r ← s.requests[i]?
    guard (r.phase = .counting)
    return s.moveTo i r (if instances = some 0 then .creating else .done)
  | .createJob i id now written => do
    let r ← s.requests[i]?
    guard (r.phase = .creating ∧ ∀ pair ∈ s.issued, pair.1 ≠ id)
    let s := { s with issued := (id, r.claw) :: s.issued }
    match written, s.jobs.create (.new id r.action.jobType r.claw "{}" now) with
    | true, .ok jobs => return { s.moveTo i r (.marking id) with jobs := jobs }
    | _, _ => return s.moveTo i r .done
  | .mark i persisted => do
    let r ← s.requests[i]?
    match r.phase with
    | .marking jobId =>
      let store := s.clawStore.setState persisted r.claw (some (r.action.mark jobId))
      let phase := if persisted then Phase.done else .rollingBack jobId
      return { s.moveTo i r phase with clawStore := store }
    | _ => none
  | .rollback i deleted => do
    let r ← s.requests[i]?
    match r.phase with
    | .rollingBack jobId =>
      return { s.moveTo i r .done with
        jobs := if deleted then (s.jobs.deleteById jobId).toOption.getD s.jobs else s.jobs }
    | _ => none
  | .resetClaws persisted => do
    guard (s.worker = .resettingClaws)
    return { s with
      clawStore := s.clawStore.resetStaleInstalling persisted
      worker := .resettingJobs }
  | .resetJobs written => do
    guard (s.worker = .resettingJobs)
    return { s with
      jobs := if written then s.jobs.resetStaleInstallJobs else s.jobs
      worker := .idle }
  | .claim id => do
    guard (s.worker = .idle)
    let (job, jobs) ← s.jobs.claimNextPending (· ∈ Table.installTypes) id
    return { s with jobs := jobs, worker := .working job }
  | .settle outcome persisted =>
    match s.worker with
    | .working job => do
      guard (outcome.possible job.jobType)
      return { s with
        clawStore := s.clawStore.setState persisted job.instanceId outcome.entry
        worker := .settled job outcome }
    | _ => none
  | .finishJob written =>
    match s.worker with
    | .settled job outcome =>
      some { s with
        jobs := if written then s.jobs.update job.id outcome.finish else s.jobs
        worker := .idle }
    | _ => none
  | .restart found now persisted =>
    let file := s.clawStore.stateFile
    some { s with
      clawStore := ClawStore.seed ⟨file, file⟩ persisted found now
      requests := []
      worker := .resettingClaws }

/-- The cases of a step. -/
inductive Step (manifest : Manifest) (s : Server) : Action → Server → Prop
  | installRefused {name} : Step manifest s (.install name) s
  | installAdmitted {name} (h : installAdmitted manifest s name) :
    Step manifest s (.install name)
      { s with requests := s.requests ++ [⟨.install, name, .creating⟩] }
  | uninstallRefused {name} : Step manifest s (.uninstall name) s
  | uninstallAdmitted {name} (h : uninstallAdmitted manifest s name) :
    Step manifest s (.uninstall name)
      { s with requests := s.requests ++ [⟨.uninstall, name, .counting⟩] }
  | counted {i : ℕ} {instances r} (hr : s.requests[i]? = some r)
    (hphase : r.phase = .counting) :
    Step manifest s (.count i instances)
      (s.moveTo i r (if instances = some 0 then .creating else .done))
  | created {i : ℕ} {id now r} (hr : s.requests[i]? = some r)
    (hphase : r.phase = .creating) (hissued : ∀ pair ∈ s.issued, pair.1 ≠ id)
    (hrows : ∀ row ∈ s.jobs, row.id ≠ id) :
    Step manifest s (.createJob i id now true)
      { s.moveTo i r (.marking id) with
        jobs := .new id r.action.jobType r.claw "{}" now :: s.jobs
        issued := (id, r.claw) :: s.issued }
  | notCreated {i : ℕ} {id now written r}
    (hr : s.requests[i]? = some r) (hphase : r.phase = .creating)
    (hissued : ∀ pair ∈ s.issued, pair.1 ≠ id) :
    Step manifest s (.createJob i id now written)
      { s.moveTo i r .done with issued := (id, r.claw) :: s.issued }
  | marked {i : ℕ} {jobId r} (hr : s.requests[i]? = some r)
    (hphase : r.phase = .marking jobId) :
    Step manifest s (.mark i true)
      { s.moveTo i r .done with
        clawStore := s.clawStore.setState true r.claw (some (r.action.mark jobId)) }
  | notMarked {i : ℕ} {jobId r} (hr : s.requests[i]? = some r)
    (hphase : r.phase = .marking jobId) :
    Step manifest s (.mark i false) (s.moveTo i r (.rollingBack jobId))
  | rolledBack {i : ℕ} {jobId r} (hr : s.requests[i]? = some r)
    (hphase : r.phase = .rollingBack jobId) :
    Step manifest s (.rollback i true)
      { s.moveTo i r .done with jobs := s.jobs.filter (·.id ≠ jobId) }
  | notRolledBack {i : ℕ} {jobId r}
    (hr : s.requests[i]? = some r) (hphase : r.phase = .rollingBack jobId) :
    Step manifest s (.rollback i false) (s.moveTo i r .done)
  | resetClaws {persisted} (hworker : s.worker = .resettingClaws) :
    Step manifest s (.resetClaws persisted)
      { s with
        clawStore := s.clawStore.resetStaleInstalling persisted
        worker := .resettingJobs }
  | resetJobs {written} (hworker : s.worker = .resettingJobs) :
    Step manifest s (.resetJobs written)
      { s with
        jobs := if written then s.jobs.resetStaleInstallJobs else s.jobs
        worker := .idle }
  | claimed {row} (hworker : s.worker = .idle) (hrow : row ∈ s.jobs)
    (hstatus : row.status = .pending) (htype : row.jobType ∈ Table.installTypes) :
    Step manifest s (.claim row.id)
      { s with
        jobs := s.jobs.update row.id ({ · with status := .running })
        worker := .working { row with status := .running } }
  | settled {outcome persisted job} (hworker : s.worker = .working job) :
    Step manifest s (.settle outcome persisted)
      { s with
        clawStore := s.clawStore.setState persisted job.instanceId outcome.entry
        worker := .settled job outcome }
  | finished {written job outcome}
    (hworker : s.worker = .settled job outcome) :
    Step manifest s (.finishJob written)
      { s with
        jobs := if written then s.jobs.update job.id outcome.finish else s.jobs
        worker := .idle }
  | restarted {found now persisted} :
    Step manifest s (.restart found now persisted)
      { s with
        clawStore := ClawStore.seed ⟨s.clawStore.stateFile, s.clawStore.stateFile⟩ persisted found now
        requests := []
        worker := .resettingClaws }

/-- Every step is one of the cases. -/
theorem step_of_next {manifest : Manifest} {s t : Server} {a : Action}
    (h : next manifest s a = some t) : Step manifest s a t := by
  cases a with
  | install name =>
    simp only [next] at h
    split at h
    · rename_i hadmitted
      cases h
      exact .installAdmitted hadmitted
    · cases h
      exact .installRefused
  | uninstall name =>
    simp only [next] at h
    split at h
    · rename_i hadmitted
      cases h
      exact .uninstallAdmitted hadmitted
    · cases h
      exact .uninstallRefused
  | count i instances =>
    simp only [next, eq_some_iff] at h
    obtain ⟨r, hr, -, hphase, hresult⟩ := h
    cases hresult
    exact .counted hr hphase
  | createJob i id now written =>
    simp only [next, eq_some_iff] at h
    obtain ⟨r, hr, -, ⟨hphase, hissued⟩, hresult⟩ := h
    split at hresult
    · rename_i jobs hcreate
      obtain ⟨hrows, rfl⟩ := Table.create_eq_ok.mp hcreate
      cases hresult
      exact .created hr hphase hissued hrows
    · cases hresult
      exact .notCreated hr hphase hissued
  | mark i persisted =>
    simp only [next, eq_some_iff] at h
    obtain ⟨r, hr, hresult⟩ := h
    split at hresult
    · rename_i jobId hphase
      cases persisted <;> cases hresult
      · exact .notMarked hr hphase
      · exact .marked hr hphase
    · cases hresult
  | rollback i deleted =>
    simp only [next, eq_some_iff] at h
    obtain ⟨r, hr, hresult⟩ := h
    split at hresult
    · rename_i jobId hphase
      cases deleted <;> cases hresult
      · exact .notRolledBack hr hphase
      · simp only [if_true, Table.getD_deleteById]
        exact .rolledBack hr hphase
    · cases hresult
  | resetClaws persisted =>
    simp only [next, eq_some_iff] at h
    obtain ⟨-, hworker, hresult⟩ := h
    cases hresult
    exact .resetClaws hworker
  | resetJobs written =>
    simp only [next, eq_some_iff] at h
    obtain ⟨-, hworker, hresult⟩ := h
    cases hresult
    exact .resetJobs hworker
  | claim id =>
    simp only [next, eq_some_iff] at h
    obtain ⟨-, hworker, ⟨job, jobs⟩, hclaim, hresult⟩ := h
    obtain ⟨row, hrow, rfl, hstatus, htype, rfl, rfl⟩ := Table.claimNextPending_eq_some hclaim
    cases hresult
    exact .claimed hworker hrow hstatus (of_decide_eq_true htype)
  | settle outcome persisted =>
    simp only [next] at h
    split at h
    · rename_i job hworker
      simp only [eq_some_iff] at h
      obtain ⟨-, -, hresult⟩ := h
      cases hresult
      exact .settled hworker
    · cases h
  | finishJob written =>
    simp only [next] at h
    split at h
    · rename_i job outcome hworker
      cases h
      exact .finished hworker
    · cases h
  | restart found now persisted =>
    cases h
    exact .restarted

end Theyos.ClawInstall

import Theyos.Models.Instances.Deletion

/-!
# Deletion is final when nothing is left of the creation

The worker's steps keep to the jobs that are there, so that a deletion that finds no create
request, no live job and no step of the worker for its instance is never undone. A deletion that
finds the job still queued is.
-/

namespace Theyos.Instances

open Lease Jobs Machine

namespace Desk

/-- A deletion runs only when nothing of the creation of the instance is left to be done, and
one of its two calls ends the machine. -/
def Careful (s : Desk) : Action → Prop
  | .delete id stop delete _ => s.busy id = false ∧
    (s.world.rows id).all fun row => !delete.survived (stop.survived (s.world.vms row.container))
  | _ => True

instance (s : Desk) (action : Action) : Decidable (Careful s action) := by
  cases action <;> unfold Careful <;> infer_instance

end Desk

variable {s t : Desk} {job : Job}

theorem Desk.busy_of_worker (hworker : s.worker.job? = some job) : s.busy job.instanceId :=
  Desk.busy_iff.mpr (.inr ⟨job, .inr hworker, rfl⟩)

section

variable (h : Orderly s)

include h

/-- The worker goes on with the job in its hands, whose row it may write. -/
theorem Orderly.worker (hworker : s.worker.job? = some job) {worker : Worker}
    (hnext : ∀ job', worker.job? = some job' → job' = job) {world : World}
    (hworld : ∀ row, s.world.rows job.instanceId = some row → row.container = job.payload →
      Touches job.instanceId row s.world world) : Orderly { s with world, worker } := by
  obtain ⟨row, hrow, hcontainer⟩ := h.carried job (.inr hworker)
  have hworks : Works s world :=
    .flow job.instanceId row hrow (hworld row hrow hcontainer) (Desk.busy_of_worker hworker)
  refine h.works rfl (fun _ => Iff.rfl) hworks h.ids ?_ ?_
  · rintro job' (hjob | hjob)
    · exact ⟨job', .inl hjob, rfl, rfl⟩
    · rw [hnext job' hjob]
      exact ⟨job, .inr hworker, rfl, rfl⟩
  · rintro job' (hjob | hjob)
    · exact ⟨job', .inl hjob, rfl⟩
    · rw [hnext job' hjob]
      exact ⟨job, .inr hworker, rfl⟩

/-- The jobs are rewritten to jobs of the same instances, and none comes to life. -/
theorem Orderly.rewrite {jobs : Table} {worker : Worker} (hids : (jobs.map (·.id)).Nodup)
    (hjobs : ∀ job ∈ jobs, ∃ job', s.Carries job' ∧ job'.instanceId = job.instanceId ∧
      job'.payload = job.payload ∧ (job.live → s.Pending job'))
    (hworker : ∀ job, worker.job? = some job → ∃ job', s.Pending job' ∧
      job'.instanceId = job.instanceId ∧ job'.payload = job.payload) :
    Orderly { s with jobs, worker } := by
  refine h.works rfl (fun _ => Iff.rfl) (.rest rfl) hids ?_ ?_
  · rintro job (hjob | hjob)
    · obtain ⟨job', hcarries, hid, hpayload, -⟩ := hjobs job hjob
      exact ⟨job', hcarries, hid, hpayload⟩
    · obtain ⟨job', hpending, hid, hpayload⟩ := hworker job hjob
      exact ⟨job', hpending.carries, hid, hpayload⟩
  · rintro job (⟨hjob, hlive⟩ | hjob)
    · obtain ⟨job', -, hid, -, hpending⟩ := hjobs job hjob
      exact ⟨job', hpending hlive, hid⟩
    · obtain ⟨job', hpending, hid, -⟩ := hworker job hjob
      exact ⟨job', hpending, hid⟩

/-- The worker claims a pending job. -/
theorem Orderly.claim {types : JobType → Bool} {jobId : String} {jobs : Table}
    (hclaim : s.jobs.claimNextPending types jobId = some (job, jobs)) :
    Orderly { s with jobs, worker := .claimed job } := by
  obtain ⟨row, hmem, -, hpending, -, rfl, rfl⟩ := Table.claimNextPending_eq_some hclaim
  have hlive : row.live := by simp [Job.live, hpending]
  refine h.rewrite (Table.nodup_map (fun row => by split <;> rfl) h.ids) (fun job hjob => ?_)
    fun job hjob => ?_
  · obtain ⟨before, hbefore, rfl⟩ := List.mem_map.mp hjob
    split
    · rename_i hid
      obtain rfl : before = row := List.inj_on_of_nodup_map h.ids hbefore hmem hid
      exact ⟨before, .inl hbefore, rfl, rfl, fun _ => .inl ⟨hbefore, hlive⟩⟩
    · exact ⟨before, .inl hbefore, rfl, rfl, fun hlive => .inl ⟨hbefore, hlive⟩⟩
  · cases hjob
    exact ⟨row, .inl ⟨hmem, hlive⟩, rfl, rfl⟩

/-- The worker puts a claimed job back. -/
theorem Orderly.defer (hworker : s.worker = .claimed job) : Orderly { s with
      jobs := s.jobs.update job.id fun _ => { job with status := .pending }
      worker := .idle } := by
  have hworker : s.worker.job? = some job := by rw [hworker]; rfl
  refine h.rewrite (Table.nodup_map (fun row => ?_) h.ids) (fun found hfound => ?_)
    fun found hfound => nomatch hfound
  · split
    · rename_i hid
      exact hid.symm
    · rfl
  · obtain ⟨before, hbefore, rfl⟩ := List.mem_map.mp hfound
    split
    · exact ⟨job, .inr hworker, rfl, rfl, fun _ => .inr hworker⟩
    · exact ⟨before, .inl hbefore, rfl, rfl, fun hlive => .inl ⟨hbefore, hlive⟩⟩

/-- The worker marks the job whose flow has ended. -/
theorem Orderly.markJob {completed : Bool} (written : Bool)
    (hworker : s.worker = .executed job completed) :
    Orderly { s with
      jobs :=
        if written then s.jobs.update job.id ({ · with status := Desk.finalStatus completed })
        else s.jobs
      worker := .marked job completed } := by
  have hworker : s.worker.job? = some job := by rw [hworker]; rfl
  have hlast : ∀ found, (Worker.marked job completed).job? = some found → ∃ job', s.Pending job' ∧
      job'.instanceId = found.instanceId ∧ job'.payload = found.payload := by
    rintro found ⟨⟩
    exact ⟨job, .inr hworker, rfl, rfl⟩
  cases written with
  | false =>
    exact h.rewrite h.ids (fun found hfound =>
      ⟨found, .inl hfound, rfl, rfl, fun hlive => .inl ⟨hfound, hlive⟩⟩) hlast
  | true =>
    refine h.rewrite (Table.nodup_map (fun row => by split <;> rfl) h.ids) (fun found hfound => ?_)
      hlast
    obtain ⟨before, hbefore, rfl⟩ := List.mem_map.mp hfound
    split
    · refine ⟨before, .inl hbefore, rfl, rfl, fun hlive => ?_⟩
      cases completed <;> simp [Job.live, Desk.finalStatus] at hlive
    · exact ⟨before, .inl hbefore, rfl, rfl, fun hlive => .inl ⟨hbefore, hlive⟩⟩

/-- Every careful step keeps order. -/
theorem Orderly.next {action : Desk.Action} (hcareful : Desk.Careful s action)
    (hnext : s.next action = some t) : Orderly t := by
  cases action with
  | insert name clawType cpu ram disk useWarmPool =>
    obtain ⟨world, hinsert, hnext⟩ := Option.bind_eq_some_iff.mp hnext
    cases hnext
    obtain ⟨row, hcontainer, hinserted⟩ := inserted_of_insertInstance hinsert
    exact h.insert ⟨"inst-" ++ name, clawType ++ "-" ++ name, useWarmPool⟩ hinserted hcontainer
  | createJob request jobId createdAt written =>
    obtain ⟨_, hmem, hnext⟩ := Option.bind_eq_some_iff.mp hnext
    rw [Option.guard_eq_some'] at hmem
    dsimp only at hnext
    split at hnext
    · rename_i jobs hcreate _
      cases hnext
      exact h.queue hmem hcreate
    · cases hnext
      exact h.rollBack hmem request.useWarmPool
  | claim jobId =>
    obtain ⟨_, -, hnext⟩ := Option.bind_eq_some_iff.mp hnext
    obtain ⟨⟨job, jobs⟩, hclaim, hnext⟩ := Option.bind_eq_some_iff.mp hnext
    cases hnext
    exact h.claim hclaim
  | defer =>
    rw [Desk.next] at hnext
    split at hnext
    · rename_i job hworker
      cases hnext
      exact h.defer hworker
    · nomatch hnext
  | beginCreate =>
    rw [Desk.next] at hnext
    split at hnext
    · rename_i job hworker
      cases hnext
      refine h.worker (congrArg Worker.job? hworker) ?_ fun row hrow _ => .beginCreate hrow
      rintro job' ⟨⟩
      rfl
    · nomatch hnext
  | endCreate create cleanup =>
    rw [Desk.next] at hnext
    split at hnext
    · rename_i job hworker
      cases hnext
      refine h.worker (congrArg Worker.job? hworker) ?_ fun row hrow hcontainer => ?_
      · rintro job' ⟨⟩
        rfl
      · rw [← hcontainer]
        exact .endCreate hrow create cleanup
    · nomatch hnext
  | markJob written =>
    rw [Desk.next] at hnext
    split at hnext
    · rename_i job completed hworker
      cases hnext
      exact h.markJob written hworker
    · nomatch hnext
  | markRow =>
    rw [Desk.next] at hnext
    split at hnext
    · rename_i job completed hworker
      cases hnext
      refine h.worker (congrArg Worker.job? hworker) ?_ fun row hrow _ => .updateStatus hrow _
      rintro job' ⟨⟩
    · nomatch hnext
  | delete id stop delete cleanupFs =>
    obtain ⟨_, -, hnext⟩ := Option.bind_eq_some_iff.mp hnext
    obtain ⟨row, hrow, hnext⟩ := Option.bind_eq_some_iff.mp hnext
    cases hnext
    obtain ⟨hbusy, hvm⟩ := hcareful
    refine h.delete hrow (by simp [hbusy]) cleanupFs ?_
    simpa [hrow] using hvm
  | deleteReturns id =>
    obtain ⟨_, hmem, hnext⟩ := Option.bind_eq_some_iff.mp hnext
    rw [Option.guard_eq_some'] at hmem
    cases hnext
    exact h.deleteReturns hmem

end

theorem Orderly.empty (now : ℕ) : Orderly (.empty now) where
  indexed _ _ hrow := by simp [Desk.empty, World.empty] at hrow
  ids := List.nodup_nil
  carried _ hjob := hjob.elim (fun hmem => absurd hmem List.not_mem_nil) fun hjob => by
    simp [Desk.empty, Worker.job?] at hjob
  requested _ hmem := absurd hmem List.not_mem_nil
  apart := List.nodup_nil
  unqueued _ hmem := absurd hmem List.not_mem_nil
  gone _ hid := hid.elim (fun hmem => absurd hmem List.not_mem_nil)
    fun hmem => absurd hmem List.not_mem_nil
  settled _ hid := hid.elim (fun hmem => absurd hmem List.not_mem_nil)
    fun hmem => absurd hmem List.not_mem_nil

/-- A create request for an instance that queues its job. -/
def requestSteps (name jobId : String) : List Desk.Action :=
  [.insert name "picoclaw" 2 2048 10 false,
    .createJob ⟨"inst-" ++ name, "picoclaw-" ++ name, false⟩ jobId 0 true]

/-- The worker claims a job, runs its flow and marks it. -/
def workerSteps (jobId : String) : List Desk.Action :=
  [.claim jobId, .beginCreate, .endCreate .ok .ok, .markJob true, .markRow]

/-- A delete request. -/
def deleteSteps (id : String) : List Desk.Action := [.delete id .ok .ok true, .deleteReturns id]

/-- An instance is created and deleted while another one waits for its job. -/
def settledRun : List Desk.Action :=
  requestSteps "a" "job-1" ++ workerSteps "job-1" ++ requestSteps "b" "job-2" ++
    deleteSteps "inst-a" ++ workerSteps "job-2"

/-- In every run in which a deletion finds nothing of the creation left to be done and ends the
machine, an instance whose delete request has returned has no running machine and is not shown
as active, ever again. -/
theorem deletion_is_final (now : ℕ) (actions : List Desk.Action) (s : Desk)
    (hcareful : Throughout Desk.next Desk.Careful (.empty now) actions)
    (hrun : actions.foldlM Desk.next (.empty now) = some s) (id : String) (hid : id ∈ s.deleted) :
    ∃ row, s.world.rows id = some row ∧ s.world.vms row.container = false ∧
      row.status ≠ .active := by
  have h := hcareful.keeps (fun _ _ _ h hcareful hnext => h.next hcareful hnext)
    (Orderly.empty now) hrun
  exact h.gone id (.inr hid)

theorem deletion_is_final_settled :
    ∃ s, settledRun.foldlM Desk.next (.empty 0) = some s ∧ s.world.vms "picoclaw-b" ∧
      ∃ row, s.world.rows "inst-a" = some row ∧ s.world.vms row.container = false ∧
        row.status ≠ .active := by
  obtain ⟨s, hrun, hvm, hdeleted⟩ : ∃ s, settledRun.foldlM Desk.next (.empty 0) = some s ∧
      s.world.vms "picoclaw-b" ∧ "inst-a" ∈ s.deleted := by decide +kernel
  exact ⟨s, hrun, hvm, deletion_is_final 0 settledRun s (by decide +kernel) hrun "inst-a" hdeleted⟩

/-- An instance is deleted before its job is claimed. -/
def queuedRun : List Desk.Action :=
  requestSteps "a" "job-1" ++ deleteSteps "inst-a" ++ workerSteps "job-1"

/-- An instance is deleted while the runner fails to end its machine. -/
def failedCallsRun : List Desk.Action :=
  requestSteps "a" "job-1" ++ workerSteps "job-1" ++
    [.delete "inst-a" (.failed true) (.failed true) true, .deleteReturns "inst-a"]

/-- The job of a deleted instance creates its machine and marks its row as active, and a delete
request returns success though the machine goes on running. -/
theorem deleted_instance_comes_back :
    (∃ s, queuedRun.foldlM Desk.next (.empty 0) = some s ∧ "inst-a" ∈ s.deleted ∧
      s.world.vms "picoclaw-a" ∧ ∃ row, s.world.rows "inst-a" = some row ∧
        row.status = .active ∧ row.deletedAt.isSome) ∧
    ∃ s, failedCallsRun.foldlM Desk.next (.empty 0) = some s ∧ "inst-a" ∈ s.deleted ∧
      s.world.vms "picoclaw-a" := by
  constructor <;> decide +kernel

end Theyos.Instances

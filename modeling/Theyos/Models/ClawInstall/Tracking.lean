import Theyos.Models.ClawInstall.Server

/-!
# Jobs and requests of one claw

Job identifiers are never repeated, so a job belongs to one claw for ever, and a step for
one claw leaves the live jobs and the requests of every other claw as they are.
-/

namespace Theyos.ClawInstall

open Machine Jobs

/-- The job of a request. -/
def Request.jobId? (r : Request) : Option String :=
  match r.phase with
  | .marking jobId => some jobId
  | .rollingBack jobId => some jobId
  | _ => none

/-- The job of the worker. -/
def Worker.job? : Worker → Option Job
  | .working job => some job
  | .settled job _ => some job
  | _ => none

/-- The live install and uninstall jobs of a claw. -/
def liveFor (claw : String) (jobs : Table) : List Job :=
  jobs.filter fun row => row.instanceId = claw ∧ row.jobType ∈ Table.installTypes ∧ row.live

/-- The requests for a claw that are under way. -/
def activeFor (claw : String) (requests : List Request) : List Request :=
  requests.filter fun r => r.claw = claw ∧ r.phase ≠ .done

/-- Identifiers belong to one claw for ever. -/
structure Tracked (s : Server) : Prop where
  rows : (s.jobs.map (·.id)).Nodup
  issued : (s.issued.map Prod.fst).Nodup
  row : ∀ row ∈ s.jobs, (row.id, row.instanceId) ∈ s.issued
  request : ∀ r ∈ s.requests, ∀ jobId, r.jobId? = some jobId → (jobId, r.claw) ∈ s.issued
  worker : ∀ job, s.worker.job? = some job → (job.id, job.instanceId) ∈ s.issued

theorem Outcome.finish_id (outcome : Outcome) (row : Job) :
    (outcome.finish row).id = row.id ∧ (outcome.finish row).instanceId = row.instanceId := by
  cases outcome <;> exact ⟨rfl, rfl⟩

namespace Tracked

variable {s : Server}

section

variable (h : Tracked s)

include h

theorem moveTo {i : ℕ} {r : Request} {phase : Phase}
    (hphase : ∀ jobId, Request.jobId? { r with phase := phase } = some jobId →
      (jobId, r.claw) ∈ s.issued) : Tracked (s.moveTo i r phase) := by
  refine ⟨h.rows, h.issued, h.row, fun r' hr' jobId hjob => ?_, h.worker⟩
  rcases List.mem_or_eq_of_mem_set hr' with hr' | rfl
  · exact h.request r' hr' jobId hjob
  · exact hphase jobId hjob

theorem moveToDone (i : ℕ) (r : Request) : Tracked (s.moveTo i r .done) :=
  h.moveTo nofun

/-- Rewriting rows keeps them tracked. -/
theorem withJobs {f : Job → Job} (hid : ∀ row, (f row).id = row.id)
    (hclaw : ∀ row, (f row).instanceId = row.instanceId) :
    Tracked { s with jobs := s.jobs.map f } := by
  refine ⟨Table.nodup_map hid h.rows, h.issued, fun row hrow => ?_, h.request, h.worker⟩
  obtain ⟨row', hrow', rfl⟩ := List.mem_map.mp hrow
  rw [hid, hclaw]
  exact h.row row' hrow'

/-- Generating an identifier keeps everything tracked. -/
theorem issue {id claw : String} (hissued : ∀ pair ∈ s.issued, pair.1 ≠ id) :
    Tracked { s with issued := (id, claw) :: s.issued } := by
  refine ⟨h.rows, ?_, fun row hrow => .tail _ (h.row row hrow),
    fun r hr jobId hjob => .tail _ (h.request r hr jobId hjob),
    fun job hjob => .tail _ (h.worker job hjob)⟩
  refine List.nodup_cons.mpr ⟨fun hmem => ?_, h.issued⟩
  obtain ⟨pair, hpair, hid⟩ := List.mem_map.mp hmem
  exact hissued pair hpair hid

theorem append {r : Request} (hr : r.jobId? = none) :
    Tracked { s with requests := s.requests ++ [r] } := by
  refine ⟨h.rows, h.issued, h.row, fun r' hr' jobId hjob => ?_, h.worker⟩
  rcases List.mem_append.mp hr' with hr' | hr'
  · exact h.request r' hr' jobId hjob
  · rw [List.mem_singleton.mp hr', hr] at hjob
    cases hjob

theorem withWorker {store : ClawStore} {worker : Worker}
    (hworker : ∀ job, worker.job? = some job → (job.id, job.instanceId) ∈ s.issued) :
    Tracked { s with clawStore := store, worker := worker } :=
  ⟨h.rows, h.issued, h.row, h.request, hworker⟩

theorem update {id : String} {f : Job → Job} (hid : ∀ row, (f row).id = row.id)
    (hclaw : ∀ row, (f row).instanceId = row.instanceId) :
    Tracked { s with jobs := s.jobs.update id f } := by
  refine h.withJobs (fun row => ?_) fun row => ?_
  · split
    · exact hid row
    · rfl
  · split
    · exact hclaw row
    · rfl

theorem step {manifest : Manifest} {t : Server} {a : Action}
    (hstep : Step manifest s a t) : Tracked t := by
  cases hstep with
  | installRefused | uninstallRefused => exact h
  | installAdmitted | uninstallAdmitted => exact h.append rfl
  | counted hr hphase =>
    refine h.moveTo fun jobId hjob => ?_
    split at hjob <;> cases hjob
  | @created i id now r hr hphase hissued hrows =>
    have hissue : Tracked { s with issued := (id, r.claw) :: s.issued } := h.issue hissued
    have hmoved : Tracked
        (Server.moveTo { s with issued := (id, r.claw) :: s.issued } i r (.marking id)) := by
      refine hissue.moveTo fun jobId hjob => ?_
      cases hjob
      exact List.mem_cons_self
    refine ⟨List.nodup_cons.mpr ⟨fun hmem => ?_, h.rows⟩, hmoved.issued, ?_, hmoved.request,
      hmoved.worker⟩
    · obtain ⟨row, hrow, hid⟩ := List.mem_map.mp hmem
      exact hrows row hrow hid
    · exact List.forall_mem_cons.mpr ⟨List.mem_cons_self, hmoved.row⟩
  | notCreated hr hphase hissued => exact (h.issue hissued).moveToDone _ _
  | marked hr hphase => exact (h.moveToDone _ _).withWorker h.worker
  | @notMarked i jobId r hr hphase =>
    refine h.moveTo fun jobId' hjob => ?_
    cases hjob
    exact h.request r (List.mem_of_getElem? hr) jobId (by rw [Request.jobId?, hphase])
  | @rolledBack i jobId r hr hphase =>
    have hmoved := h.moveToDone i r
    exact ⟨h.rows.sublist (List.filter_sublist.map _), h.issued,
      fun row hrow => h.row row (List.mem_of_mem_filter hrow), hmoved.request, h.worker⟩
  | notRolledBack hr hphase => exact h.moveToDone _ _
  | resetClaws hworker => exact h.withWorker nofun
  | @resetJobs written hworker =>
    have hreset : Tracked { s with jobs := s.jobs.resetStaleInstallJobs } := by
      refine h.withJobs (fun row => ?_) fun row => ?_ <;> split <;> rfl
    cases written
    · exact h.withWorker nofun
    · exact hreset.withWorker nofun
  | @claimed row hworker hrow hstatus htype =>
    have hclaim : Tracked { s with jobs := s.jobs.update row.id ({ · with status := .running }) } :=
      h.update (fun _ => rfl) fun _ => rfl
    refine hclaim.withWorker fun job hjob => ?_
    cases hjob
    exact h.row row hrow
  | settled hworker =>
    refine h.withWorker fun job hjob => ?_
    cases hjob
    exact h.worker _ (by rw [hworker]; rfl)
  | @finished written job outcome hworker =>
    have hfinish : Tracked { s with jobs := s.jobs.update job.id outcome.finish } :=
      h.update (fun row => (outcome.finish_id row).1) fun row => (outcome.finish_id row).2
    cases written
    · exact h.withWorker nofun
    · exact hfinish.withWorker nofun
  | restarted => exact ⟨h.rows, h.issued, h.row, nofun, nofun⟩

end

end Tracked

section

variable {claw : String} {jobs : Table} {id : String} {f : Job → Job}

theorem liveFor_delete :
    liveFor claw (jobs.filter (·.id ≠ id)) = (liveFor claw jobs).filter (·.id ≠ id) := by
  unfold liveFor
  rw [List.filter_filter, List.filter_filter]
  exact List.filter_congr fun row _ => Bool.and_comm _ _

theorem liveFor_update_done (hf : ∀ row, (f row).live = false) :
    liveFor claw (jobs.update id f) = (liveFor claw jobs).filter (·.id ≠ id) := by
  rw [← liveFor_delete]
  unfold liveFor Table.update
  rw [List.filter_map, List.filter_filter]
  refine (List.map_congr_left fun row hrow => ?_).trans
    ((List.map_id _).trans (List.filter_congr fun row _ => ?_))
  · by_cases hid : row.id = id
    · simp [hid, hf] at hrow
    · exact if_neg hid
  · by_cases hid : row.id = id <;> simp [hid, hf]

theorem liveFor_update_running (h : ∀ row ∈ jobs, row.id = id → row.live) :
    liveFor claw (jobs.update id ({ · with status := .running })) =
      (liveFor claw jobs).map fun row =>
        if row.id = id then { row with status := .running } else row := by
  unfold liveFor Table.update
  rw [List.filter_map]
  refine congrArg _ (List.filter_congr fun row hrow => ?_)
  by_cases hid : row.id = id
  · have hrunning : Job.live { row with status := .running } := by simp [Job.live]
    simp only [Function.comp_apply, if_pos hid, h row hrow hid, hrunning]
  · simp only [Function.comp_apply, if_neg hid]

theorem liveFor_reset : liveFor claw jobs.resetStaleInstallJobs = [] := by
  refine List.filter_eq_nil_iff.mpr fun row hrow => ?_
  obtain ⟨row', -, rfl⟩ := List.mem_map.mp hrow
  split
  · simp [Job.live]
  · rename_i hnot
    simp only [decide_eq_true_iff]
    rintro ⟨-, htype, hlive⟩
    exact hnot ⟨htype, hlive⟩

/-- An identifier of another claw names no live job of this one. -/
theorem Tracked.ne_of_liveFor {s : Server} (h : Tracked s) {other : String}
    (hissued : (id, other) ∈ s.issued) (hne : other ≠ claw) :
    ∀ row ∈ liveFor claw s.jobs, row.id ≠ id := by
  intro row hrow hid
  obtain ⟨hmem, hlive⟩ := List.mem_filter.mp hrow
  have hclaw : row.instanceId = claw := (of_decide_eq_true hlive).1
  have hrow' := h.row row hmem
  rw [hid, hclaw] at hrow'
  exact hne (congrArg Prod.snd (List.inj_on_of_nodup_map h.issued hissued hrow' rfl))

theorem activeFor_append_of_ne {requests : List Request} {r : Request} (h : r.claw ≠ claw) :
    activeFor claw (requests ++ [r]) = activeFor claw requests := by
  unfold activeFor
  simp [h]

end

end Theyos.ClawInstall

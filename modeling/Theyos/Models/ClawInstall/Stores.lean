import Theyos.Models.ClawInstall.Agreement

/-!
# The claw store and the job store

Every run in which nobody moves between two writes keeps a claw's part of the server in order. Two
requests that check the status before either of them marks it queue two jobs; a worker that
finishes a job before it is marked leaves the claw marked as installing for ever.
-/

namespace Theyos.ClawInstall

open Machine Jobs

namespace Conforming

variable {claw : String} {s : Server}

variable (h : Conforming claw s)

include h

theorem resetClaws {persisted : Bool} (hworker : s.worker = .resettingClaws) :
    Conforming claw
      { s with
        clawStore := s.clawStore.resetStaleInstalling persisted
        worker := .resettingJobs } := by
  have hone := h.one
  have hactive : activeFor claw s.requests = [] := by
    unfold Conforming at h
    rw [hworker] at h
    generalize activeFor claw s.requests = active at h
    cases h
    rfl
  change Conforms .resettingJobs (ClawStore.resetEntry (s.clawStore.state claw))
    (liveFor claw s.jobs) (activeFor claw s.requests)
  rw [hactive]
  refine .reset hone ?_
  unfold ClawStore.resetEntry
  split
  · cases s.clawStore.state claw <;> nofun
  · assumption

theorem resetJobs (hworker : s.worker = .resettingJobs) :
    Conforming claw { s with jobs := s.jobs.resetStaleInstallJobs, worker := .idle } := by
  unfold Conforming at h ⊢
  rw [hworker] at h
  rw [liveFor_reset]
  generalize activeFor claw s.requests = active at h ⊢
  cases h with
  | reset _ hentry => exact .rest hentry

theorem claimed (htracked : Tracked s) {row : Job}
    (hworker : s.worker = .idle) (hrow : row ∈ s.jobs) (hstatus : row.status = .pending)
    (htype : row.jobType ∈ Table.installTypes)
    (hquiet : row.instanceId = claw → activeFor claw s.requests = []) :
    Conforming claw
      { s with
        jobs := s.jobs.update row.id ({ · with status := .running })
        worker := .working { row with status := .running } } := by
  have hlive : row.live := decide_eq_true (.inl hstatus)
  have hsame : ∀ row' ∈ s.jobs, row'.id = row.id → row'.live := fun row' hrow' hid =>
    List.inj_on_of_nodup_map htracked.rows hrow' hrow hid ▸ hlive
  have hmap := @liveFor_update_running claw s.jobs row.id hsame
  by_cases hclaw : row.instanceId = claw
  · have hmem : row ∈ liveFor claw s.jobs :=
      List.mem_filter.mpr ⟨hrow, decide_eq_true ⟨hclaw, htype, hlive⟩⟩
    have hdesk : deskFor claw (.working { row with status := .running }) =
        .working { row with status := .running } := if_pos hclaw
    unfold Conforming at h ⊢
    rw [hworker, hquiet hclaw] at h
    rw [hdesk, hmap, hquiet hclaw]
    generalize liveFor claw s.jobs = live at h hmem ⊢
    cases h with
    | rest _ => cases hmem
    | queued hnames =>
      obtain rfl := List.mem_singleton.mp hmem
      simp only [List.map_cons, List.map_nil, if_true]
      exact .working hnames
  · refine h.frame ?_ rfl ?_ rfl
    · rw [hworker]
      exact if_neg hclaw
    · have hne := htracked.ne_of_liveFor (htracked.row row hrow) hclaw
      rw [hmap]
      exact (List.map_congr_left fun row' hrow' => if_neg (hne row' hrow')).trans (List.map_id _)

theorem settle {outcome : Outcome} {persisted : Bool} {job : Job}
    (hworker : s.worker = .working job) (hpersisted : job.instanceId = claw → persisted) :
    Conforming claw
      { s with
        clawStore := s.clawStore.setState persisted job.instanceId outcome.entry
        worker := .settled job outcome } := by
  by_cases hclaw : job.instanceId = claw
  · have hstate : (s.clawStore.setState persisted job.instanceId outcome.entry).state claw =
        outcome.entry := by
      rw [hpersisted hclaw, ← hclaw]
      exact Function.update_self ..
    unfold Conforming at h ⊢
    rw [hworker] at h
    simp only [deskFor, hclaw, if_true] at h ⊢
    rw [hclaw] at hstate
    rw [hstate]
    generalize liveFor claw s.jobs = live at h ⊢
    generalize activeFor claw s.requests = active at h ⊢
    cases h with
    | working _ =>
      refine .settled ?_
      cases outcome <;> nofun
  · refine h.frame ?_ ?_ rfl rfl
    · rw [hworker]
      exact (if_neg hclaw).trans (if_neg hclaw).symm
    · cases persisted
      · rfl
      · exact Function.update_of_ne (Ne.symm hclaw) ..

theorem finish (htracked : Tracked s) {written : Bool} {job : Job}
    {outcome : Outcome} (hworker : s.worker = .settled job outcome)
    (hwritten : job.instanceId = claw → written) :
    Conforming claw
      { s with
        jobs := if written then s.jobs.update job.id outcome.finish else s.jobs
        worker := .idle } := by
  have hdone : ∀ row, (outcome.finish row).live = false := by
    intro row
    cases outcome <;> rfl
  have hupdate := @liveFor_update_done claw s.jobs job.id outcome.finish hdone
  by_cases hclaw : job.instanceId = claw
  · unfold Conforming at h ⊢
    rw [hworker] at h
    simp only [deskFor, hclaw, if_true, hwritten hclaw, hupdate] at h ⊢
    generalize liveFor claw s.jobs = live at h ⊢
    generalize activeFor claw s.requests = active at h ⊢
    cases h with
    | settled hentry =>
      rw [List.filter_cons_of_neg (by simp)]
      exact .rest hentry
  · refine h.frame ?_ rfl ?_ rfl
    · rw [hworker]
      exact (if_neg hclaw).symm
    · cases written
      · rfl
      · have hissued := htracked.worker job (by rw [hworker]; rfl)
        have hne := htracked.ne_of_liveFor hissued hclaw
        change liveFor claw (s.jobs.update job.id outcome.finish) = _
        rw [hupdate]
        exact List.filter_eq_self.mpr fun row hrow => decide_eq_true (hne row hrow)

/-- A step that is in order keeps the claw's part of the server in order. -/
theorem step {manifest : Manifest} {t : Server} {a : Action} (htracked : Tracked s)
    (horderly : Orderly manifest claw s a)
    (hstep : Step manifest s a t) : Conforming claw t := by
  cases hstep with
  | installRefused | uninstallRefused => exact h
  | @installAdmitted name hadmitted =>
    by_cases hclaw : name = claw
    · obtain ⟨hsettled, huninstalling⟩ := horderly hclaw hadmitted
      obtain ⟨-, -, -, hinstalling⟩ := of_decide_eq_true hadmitted
      subst hclaw
      refine h.admitted rfl nofun rfl hsettled fun htransitional => ?_
      exact (of_decide_eq_true htransitional).elim hinstalling huninstalling
    · exact h.frame rfl rfl rfl (activeFor_append_of_ne hclaw)
  | @uninstallAdmitted name hadmitted =>
    by_cases hclaw : name = claw
    · obtain ⟨-, hready⟩ := of_decide_eq_true hadmitted
      have hsettled := horderly hclaw hadmitted
      subst hclaw
      refine h.admitted rfl nofun rfl hsettled fun htransitional => ?_
      rcases of_decide_eq_true htransitional with hstatus | hstatus <;>
        rw [hready] at hstatus <;> cases hstatus
    · exact h.frame rfl rfl rfl (activeFor_append_of_ne hclaw)
  | counted hr hphase =>
    refine h.counted hr (.inl hphase) ?_
    split
    · exact .inl rfl
    · exact .inr rfl
  | created hr hphase _ _ => exact h.created hr hphase
  | notCreated hr hphase _ => exact h.notCreated hr hphase
  | marked hr hphase => exact h.marked hr hphase
  | notMarked hr hphase => exact h.notMarked hr hphase
  | rolledBack hr hphase => exact h.rolledBack hr htracked hphase
  | @notRolledBack i jobId r hr hphase =>
    by_cases hclaw : r.claw = claw
    · exact absurd (horderly (by simp [hr, hclaw])) Bool.false_ne_true
    · exact h.moveTo_of_ne .done hr hclaw
  | resetClaws hworker => exact h.resetClaws hworker
  | @resetJobs written hworker =>
    obtain rfl : written = true := horderly
    exact h.resetJobs hworker
  | @claimed row hworker hrow hstatus htype =>
    exact h.claimed htracked hworker hrow hstatus htype fun hclaw =>
      horderly ⟨row, hrow, rfl, hclaw⟩
  | @settled outcome persisted job hworker =>
    exact h.settle hworker fun hclaw => horderly (by simp [hworker, Worker.job?, hclaw])
  | @finished written job outcome hworker =>
    exact h.finish htracked hworker fun hclaw => horderly (by simp [hworker, Worker.job?, hclaw])
  | restarted =>
    have hone := h.one
    exact .restarted hone

end Conforming

/-- The two stores agree about a claw. -/
structure Agree (claw : String) (s : Server) : Prop where
  /-- At most one install or uninstall job is pending or running. -/
  one : (liveFor claw s.jobs).length ≤ 1
  /-- A claw that is installing has its job, and names it. -/
  installing : Settled claw s → ∀ entry, s.clawStore.state claw = some entry →
    entry.status = .installing →
      ∃ job ∈ liveFor claw s.jobs, job.jobType = .installClaw ∧ entry.jobId = some job.id
  /-- A claw that is uninstalling has its job. -/
  uninstalling : Settled claw s → ∀ entry, s.clawStore.state claw = some entry →
    entry.status = .uninstalling → ∃ job ∈ liveFor claw s.jobs, job.jobType = .uninstallClaw

theorem Conforming.agree {claw : String} {s : Server} (h : Conforming claw s) : Agree claw s := by
  have hnames : Settled claw s → transitional (s.clawStore.state claw) →
      ∃ job ∈ liveFor claw s.jobs, Names (s.clawStore.state claw) job := by
    rintro ⟨hactive, hdesk⟩ htransitional
    unfold Conforming at h
    rw [hactive] at h
    generalize deskFor claw s.worker = desk at h hdesk
    generalize liveFor claw s.jobs = live at h ⊢
    cases h with
    | restarted _ | reset _ _ | settled _ => cases hdesk
    | rest hentry => exact absurd htransitional hentry
    | queued hnames | working hnames => exact ⟨_, List.mem_singleton_self _, hnames⟩
  refine ⟨h.one, fun hsettled entry hentry hstatus => ?_, fun hsettled entry hentry hstatus => ?_⟩
  · have htransitional : transitional (s.clawStore.state claw) :=
      decide_eq_true (.inl (by rw [hentry]; exact hstatus))
    obtain ⟨job, hjob, ⟨-, htype, hid⟩ | ⟨hother, -⟩⟩ := hnames hsettled htransitional
    · rw [hentry] at hid
      exact ⟨job, hjob, htype, hid⟩
    · rw [hentry] at hother
      exact absurd (hstatus.symm.trans hother) nofun
  · have htransitional : transitional (s.clawStore.state claw) :=
      decide_eq_true (.inr (by rw [hentry]; exact hstatus))
    obtain ⟨job, hjob, ⟨hother, -⟩ | ⟨-, htype⟩⟩ := hnames hsettled htransitional
    · rw [hentry] at hother
      exact absurd (hstatus.symm.trans hother) nofun
    · exact ⟨job, hjob, htype⟩

theorem tracked_initial : Tracked .initial := ⟨.nil, .nil, nofun, nofun, nofun⟩

theorem conforming_initial (claw : String) : Conforming claw .initial := .rest nofun

/-- A manifest in which every claw is known and installable. -/
def openManifest : Manifest := ⟨fun _ => true, fun _ => true⟩

/-- Two requests that both find the claw not installed. -/
def twoRequests : List Action :=
  [.install "pico", .install "pico", .createJob 0 "a" 0 true, .createJob 1 "b" 1 true]

/-- A job that is done before the claw is marked as installing. -/
def finishedEarly : List Action :=
  [.install "pico", .createJob 0 "a" 0 true, .claim "a", .settle (.ready "now") true,
    .finishJob true, .mark 0 true]

/-- A restart, an install that is rolled back, one that is queued and claimed. -/
def installedOnce : List Action :=
  [.restart [] "now" true, .resetClaws false, .resetJobs true, .install "pico",
    .createJob 0 "a" 0 true, .mark 0 false, .rollback 0 true, .install "pico",
    .createJob 1 "b" 1 true, .mark 1 true, .install "pico", .claim "b"]

end Theyos.ClawInstall

import Theyos.Core.Machine.Conduct
import Theyos.Models.ClawInstall.Tracking

/-!
# When the claw store and the job store agree

The two stores are written one after the other, so they agree only as long as nobody else moves in
between and the writes that finish or undo a job succeed. Requests may fail, and the server may
restart, at any point.
-/

namespace Theyos.ClawInstall

open Machine Jobs

/-- Where the worker is, seen from a claw. -/
inductive Desk where
  | resettingClaws
  | resettingJobs
  /-- Idle, or at another claw. -/
  | away
  | working (job : Job)
  | settled (job : Job)

/-- Whether the worker is not between two marks. -/
def Desk.outside : Desk → Bool
  | away => true
  | working _ => true
  | _ => false

/-- The worker, seen from a claw. -/
def deskFor (claw : String) : Worker → Desk
  | .resettingClaws => .resettingClaws
  | .resettingJobs => .resettingJobs
  | .idle => .away
  | .working job => if job.instanceId = claw then .working job else .away
  | .settled job _ => if job.instanceId = claw then .settled job else .away

/-- An entry that stands for a job. -/
def Names (entry : Option InstalledState) (job : Job) : Prop :=
  statusOf entry = .installing ∧ job.jobType = .installClaw ∧ entry.bind (·.jobId) = some job.id ∨
    statusOf entry = .uninstalling ∧ job.jobType = .uninstallClaw

/-- How the worker, the entry, the live jobs and the requests of a claw fit together. -/
inductive Conforms : Desk → Option InstalledState → List Job → List Request → Prop
  | restarted {entry} {live : List Job} (hone : live.length ≤ 1) :
    Conforms .resettingClaws entry live []
  | reset {entry} {live : List Job} (hone : live.length ≤ 1)
    (hentry : ¬ transitional entry) : Conforms .resettingJobs entry live []
  | rest {entry} (hentry : ¬ transitional entry) :
    Conforms .away entry [] []
  | requested {entry} {r : Request} (hentry : ¬ transitional entry)
    (hr : r.jobId? = none) : Conforms .away entry [] [r]
  | created {entry} {job : Job} {r : Request}
    (hentry : ¬ transitional entry) (hr : r.jobId? = some job.id)
    (hjob : job.jobType = r.action.jobType) : Conforms .away entry [job] [r]
  | queued {entry} {job : Job} (hnames : Names entry job) :
    Conforms .away entry [job] []
  | working {entry} {job : Job} (hnames : Names entry job) :
    Conforms (.working job) entry [job] []
  | settled {entry} {job : Job} (hentry : ¬ transitional entry) :
    Conforms (.settled job) entry [job] []

/-- The claw's part of a server conforms. -/
def Conforming (claw : String) (s : Server) : Prop :=
  Conforms (deskFor claw s.worker) (s.clawStore.state claw) (liveFor claw s.jobs)
    (activeFor claw s.requests)

/-- No request for the claw is under way and the worker is not between two marks of it. -/
def Settled (claw : String) (s : Server) : Prop :=
  activeFor claw s.requests = [] ∧ (deskFor claw s.worker).outside

instance (claw : String) (s : Server) : Decidable (Settled claw s) :=
  inferInstanceAs (Decidable (_ ∧ _))

/-- Nobody moves between two writes for the claw, and the writes that finish or undo its
jobs succeed. -/
def Orderly (manifest : Manifest) (claw : String) (s : Server) : Action → Prop
  | .install name => name = claw → installAdmitted manifest s name →
    Settled claw s ∧ statusOf (s.clawStore.state claw) ≠ .uninstalling
  | .uninstall name => name = claw → uninstallAdmitted manifest s name → Settled claw s
  | .rollback i deleted => s.requests[i]?.any (·.claw = claw) → deleted
  | .resetJobs written => written
  | .claim id => (∃ row ∈ s.jobs, row.id = id ∧ row.instanceId = claw) →
    activeFor claw s.requests = []
  | .settle _ persisted => s.worker.job?.any (·.instanceId = claw) → persisted
  | .finishJob written => s.worker.job?.any (·.instanceId = claw) → written
  | _ => True

instance (manifest : Manifest) (claw : String) (s : Server) (a : Action) :
    Decidable (Orderly manifest claw s a) := by
  cases a <;> unfold Orderly <;> infer_instance

namespace Conforming

variable {claw : String} {s : Server} (h : Conforming claw s)

include h

theorem one : (liveFor claw s.jobs).length ≤ 1 := by
  unfold Conforming at h
  generalize deskFor claw s.worker = desk at h
  generalize liveFor claw s.jobs = live at h ⊢
  generalize activeFor claw s.requests = active at h
  cases h with
  | restarted hone | reset hone _ => exact hone
  | rest _ | requested _ _ => exact Nat.zero_le 1
  | created _ _ _ | queued _ | working _ | settled _ => exact Nat.le_refl 1

/-- A claw at rest: what a request that passes its check finds. -/
theorem of_settled (hsettled : Settled claw s)
    (hentry : ¬ transitional (s.clawStore.state claw)) :
    deskFor claw s.worker = .away ∧ liveFor claw s.jobs = [] := by
  obtain ⟨hactive, hdesk⟩ := hsettled
  have hnames : ∀ job, ¬ Names (s.clawStore.state claw) job := by
    intro job hnames
    refine hentry (decide_eq_true ?_)
    rcases hnames with ⟨hstatus, -⟩ | ⟨hstatus, -⟩
    · exact .inl hstatus
    · exact .inr hstatus
  unfold Conforming at h
  rw [hactive] at h
  generalize deskFor claw s.worker = desk at h hdesk ⊢
  generalize liveFor claw s.jobs = live at h ⊢
  cases h with
  | restarted _ | reset _ _ | settled _ => cases hdesk
  | rest _ => exact ⟨rfl, rfl⟩
  | queued h | working h => exact absurd h (hnames _)

variable {i : ℕ} {r : Request}

/-- A request for the claw is the only one under way, and the worker is away. -/
theorem of_request (hr : s.requests[i]? = some r) (hclaw : r.claw = claw) (hphase : r.phase ≠ .done) :
    activeFor claw s.requests = [r] ∧ deskFor claw s.worker = .away ∧
      ¬ transitional (s.clawStore.state claw) ∧
      (r.jobId? = none ∧ liveFor claw s.jobs = [] ∨
        ∃ job, r.jobId? = some job.id ∧ job.jobType = r.action.jobType ∧
          liveFor claw s.jobs = [job]) := by
  have hselected : decide (r.claw = claw ∧ r.phase ≠ .done) = true :=
    decide_eq_true ⟨hclaw, hphase⟩
  have hmem : r ∈ activeFor claw s.requests :=
    List.mem_filter.mpr ⟨List.mem_of_getElem? hr, hselected⟩
  unfold Conforming at h
  generalize deskFor claw s.worker = desk at h ⊢
  generalize liveFor claw s.jobs = live at h ⊢
  generalize activeFor claw s.requests = active at h hmem ⊢
  cases h with
  | requested hentry hjob =>
    obtain rfl := List.mem_singleton.mp hmem
    exact ⟨rfl, rfl, hentry, .inl ⟨hjob, rfl⟩⟩
  | created hentry hjob htype =>
    obtain rfl := List.mem_singleton.mp hmem
    exact ⟨rfl, rfl, hentry, .inr ⟨_, hjob, htype, rfl⟩⟩
  | _ => cases hmem

/-- A step that leaves the claw's part alone. -/
theorem frame {t : Server}
    (hdesk : deskFor claw t.worker = deskFor claw s.worker)
    (hentry : t.clawStore.state claw = s.clawStore.state claw)
    (hlive : liveFor claw t.jobs = liveFor claw s.jobs)
    (hactive : activeFor claw t.requests = activeFor claw s.requests) : Conforming claw t := by
  unfold Conforming
  rw [hdesk, hentry, hlive, hactive]
  exact h

/-- A request for another claw moves. -/
theorem moveTo_of_ne (phase : Phase) (hr : s.requests[i]? = some r) (hclaw : r.claw ≠ claw) :
    Conforming claw (s.moveTo i r phase) :=
  h.frame rfl rfl rfl (filter_set_of_not hr (by simp [hclaw]) (by simp [hclaw]))

omit h in
/-- What is left of the only request for the claw when it moves. -/
theorem activeFor_moveTo (phase : Phase) (hr : s.requests[i]? = some r) (hclaw : r.claw = claw)
    (hphase : r.phase ≠ .done) (hactive : activeFor claw s.requests = [r]) :
    activeFor claw (s.moveTo i r phase).requests =
      if phase = .done then [] else [{ r with phase := phase }] := by
  have hselected : decide (r.claw = claw ∧ r.phase ≠ .done) = true :=
    decide_eq_true ⟨hclaw, hphase⟩
  have hset := (filter_set_of_single hr hselected hactive).2 { r with phase := phase }
  unfold Server.moveTo activeFor
  rw [hset]
  by_cases hdone : phase = .done <;> simp [hdone, hclaw]

theorem admitted (hclaw : r.claw = claw) (hphase : r.phase ≠ .done)
    (hjob : r.jobId? = none) (hsettled : Settled claw s)
    (hentry : ¬ transitional (s.clawStore.state claw)) :
    Conforming claw { s with requests := s.requests ++ [r] } := by
  obtain ⟨hdesk, hlive⟩ := h.of_settled hsettled hentry
  have hactive : activeFor claw (s.requests ++ [r]) = [r] := by
    unfold activeFor
    rw [List.filter_append]
    have hnone : s.requests.filter (fun r => r.claw = claw ∧ r.phase ≠ .done) = [] := hsettled.1
    rw [hnone]
    simp [hclaw, hphase]
  unfold Conforming
  rw [hdesk, hlive, hactive]
  exact .requested hentry hjob

/-- The only request for the claw moves, with whatever it writes. -/
theorem moved {t : Server} (phase : Phase) (hr : s.requests[i]? = some r)
    (hclaw : r.claw = claw) (hphase : r.phase ≠ .done) (hworker : t.worker = s.worker)
    (hrequests : t.requests = (s.moveTo i r phase).requests)
    (hgoal : Conforms .away (t.clawStore.state claw) (liveFor claw t.jobs) (if phase = .done then
      [] else [{ r with phase := phase }])) : Conforming claw t := by
  obtain ⟨hactive, hdesk, -⟩ := h.of_request hr hclaw hphase
  unfold Conforming
  rw [hworker, hdesk, hrequests, activeFor_moveTo phase hr hclaw hphase hactive]
  exact hgoal

variable {jobId : String} (hr : s.requests[i]? = some r)

include hr

/-- A request of the claw that has no job yet. -/
theorem of_request_none (hclaw : r.claw = claw) (hphase : r.phase ≠ .done) (hjob : r.jobId? = none) :
    ¬ transitional (s.clawStore.state claw) ∧ liveFor claw s.jobs = [] := by
  obtain ⟨-, -, hentry, ⟨-, hlive⟩ | ⟨job, hsome, -⟩⟩ := h.of_request hr hclaw hphase
  · exact ⟨hentry, hlive⟩
  · rw [hjob] at hsome
    cases hsome

/-- A request of the claw that has its job. -/
theorem of_request_some (hclaw : r.claw = claw) (hjob : r.jobId? = some jobId) :
    r.phase ≠ .done ∧ ¬ transitional (s.clawStore.state claw) ∧
      ∃ job, job.id = jobId ∧ job.jobType = r.action.jobType ∧ liveFor claw s.jobs = [job] := by
  have hphase : r.phase ≠ .done := fun hdone => by simp [Request.jobId?, hdone] at hjob
  obtain ⟨-, -, hentry, ⟨hnone, -⟩ | ⟨job, hsome, htype, hlive⟩⟩ := h.of_request hr hclaw hphase
  · rw [hjob] at hnone
    cases hnone
  · rw [hjob] at hsome
    exact ⟨hphase, hentry, job, (Option.some.inj hsome).symm, htype, hlive⟩

/-- A request without a job goes on to creating one, or it ends. -/
theorem counted {phase : Phase} (hphase : r.phase = .counting ∨ r.phase = .creating)
    (hnext : phase = .creating ∨ phase = .done) : Conforming claw (s.moveTo i r phase) := by
  by_cases hclaw : r.claw = claw
  · have hnot : r.phase ≠ .done := by rcases hphase with h | h <;> rw [h] <;> nofun
    have hjob : r.jobId? = none := by rcases hphase with h | h <;> rw [Request.jobId?, h]
    obtain ⟨hentry, hlive⟩ := h.of_request_none hr hclaw hnot hjob
    refine h.moved phase hr hclaw hnot rfl rfl ?_
    change Conforms .away (s.clawStore.state claw) (liveFor claw s.jobs) _
    rw [hlive]
    rcases hnext with rfl | rfl
    · exact .requested hentry rfl
    · exact .rest hentry
  · exact h.moveTo_of_ne phase hr hclaw

theorem created {id : String} {now : ℕ} (hphase : r.phase = .creating) :
    Conforming claw
      { s.moveTo i r (.marking id) with
        jobs := .new id r.action.jobType r.claw "{}" now :: s.jobs
        issued := (id, r.claw) :: s.issued } := by
  by_cases hclaw : r.claw = claw
  · have hnot : r.phase ≠ .done := by rw [hphase]; nofun
    have hjob : r.jobId? = none := by rw [Request.jobId?, hphase]
    obtain ⟨hentry, hlive⟩ := h.of_request_none hr hclaw hnot hjob
    refine h.moved (.marking id) hr hclaw hnot rfl rfl ?_
    have hcons : liveFor claw (.new id r.action.jobType r.claw "{}" now :: s.jobs) =
        [.new id r.action.jobType r.claw "{}" now] := by
      unfold liveFor at hlive ⊢
      rw [List.filter_cons_of_pos, hlive]
      cases haction : r.action <;>
        simp [Job.new, hclaw, ClawStoreAction.jobType, Table.installTypes, Job.live]
    rw [hcons]
    exact .created hentry rfl rfl
  · refine (h.moveTo_of_ne (.marking id) hr hclaw).frame rfl rfl ?_ rfl
    exact List.filter_cons_of_neg (by simp [Job.new, hclaw])

theorem notCreated {id : String} (hphase : r.phase = .creating) :
    Conforming claw { s.moveTo i r .done with issued := (id, r.claw) :: s.issued } :=
  (h.counted hr (.inr hphase) (.inr rfl)).frame rfl rfl rfl rfl

theorem marked (hphase : r.phase = .marking jobId) :
    Conforming claw
      { s.moveTo i r .done with
        clawStore := s.clawStore.setState true r.claw (some (r.action.mark jobId)) } := by
  by_cases hclaw : r.claw = claw
  · have hjob : r.jobId? = some jobId := by rw [Request.jobId?, hphase]
    obtain ⟨hnot, hentry, job, rfl, htype, hlive⟩ := h.of_request_some hr hclaw hjob
    refine h.moved .done hr hclaw hnot rfl rfl ?_
    have hstate : (s.clawStore.setState true r.claw (some (r.action.mark job.id))).state claw =
        some (r.action.mark job.id) := by
      rw [← hclaw]
      exact Function.update_self ..
    change Conforms .away _ (liveFor claw s.jobs) []
    rw [hstate, hlive]
    refine .queued ?_
    cases haction : r.action with
    | install => exact .inl ⟨rfl, by rw [htype, haction]; rfl, rfl⟩
    | uninstall => exact .inr ⟨rfl, by rw [htype, haction]; rfl⟩
  · refine (h.moveTo_of_ne .done hr hclaw).frame rfl ?_ rfl rfl
    exact Function.update_of_ne (Ne.symm hclaw) ..

theorem notMarked (hphase : r.phase = .marking jobId) :
    Conforming claw (s.moveTo i r (.rollingBack jobId)) := by
  by_cases hclaw : r.claw = claw
  · have hjob : r.jobId? = some jobId := by rw [Request.jobId?, hphase]
    obtain ⟨hnot, hentry, job, rfl, htype, hlive⟩ := h.of_request_some hr hclaw hjob
    refine h.moved (.rollingBack job.id) hr hclaw hnot rfl rfl ?_
    change Conforms .away (s.clawStore.state claw) (liveFor claw s.jobs) _
    rw [hlive]
    exact .created hentry rfl htype
  · exact h.moveTo_of_ne _ hr hclaw

theorem rolledBack (htracked : Tracked s) (hphase : r.phase = .rollingBack jobId) :
    Conforming claw { s.moveTo i r .done with jobs := s.jobs.filter (·.id ≠ jobId) } := by
  have hjob : r.jobId? = some jobId := by rw [Request.jobId?, hphase]
  by_cases hclaw : r.claw = claw
  · obtain ⟨hnot, hentry, job, rfl, htype, hlive⟩ := h.of_request_some hr hclaw hjob
    refine h.moved .done hr hclaw hnot rfl rfl ?_
    rw [liveFor_delete, hlive, List.filter_cons_of_neg (by simp)]
    exact .rest hentry
  · refine (h.moveTo_of_ne .done hr hclaw).frame rfl rfl ?_ rfl
    have hissued := htracked.request r (List.mem_of_getElem? hr) jobId hjob
    have hne := htracked.ne_of_liveFor hissued hclaw
    rw [liveFor_delete]
    exact List.filter_eq_self.mpr fun row hrow => decide_eq_true (hne row hrow)

end Conforming

end Theyos.ClawInstall

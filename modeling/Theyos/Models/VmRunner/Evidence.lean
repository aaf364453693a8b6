import Theyos.Models.VmRunner.Reach

/-!
# The evidence of a teardown

A directory is the only record of the processes of a virtual machine, so it must not go while one
of them runs or while nobody can say which they are. `Keeps` says this of one step of a teardown;
a sweep and a drain are sequences of such steps.
-/

namespace Theyos.VmRunner

open World World

/-- The processes that a directory or the caller names are gone, and the state file, if there
is one, says which they are. -/
structure Cleared (callers : List Pid) (d : Dir) (w : World) : Prop where
  recorded : ∀ file, d.env.visible = some file →
    ∃ inst, file = .parsed inst ∧ ∀ pid ∈ inst.pids, ¬w.isPidRunning pid
  named : ∀ pid ∈ callers, ¬w.isPidRunning pid

/-- A directory that goes between two moments is one whose processes are gone. -/
def Keeps (callers : List Pid) (w w' : World) : Prop :=
  ∀ name d, w.dirs name = some d → w'.dirs name = none → Cleared callers d w'

/-- Every recorded process that runs is one that a cleanup goes after. -/
def Covers (w : World) (name : Name) (fc slirp : Option Pid) : Prop :=
  ∀ inst, w.loadUnchecked name = .ok inst → ∀ pid ∈ inst.pids, w.isPidRunning pid →
    pid ∈ fc.or inst.firecrackerPid ∨ pid ∈ slirp.or inst.slirpPid

/-- A cleanup that reports success leaves no recorded process behind. -/
def LeavesNone (w : World) (name : Name) (fc slirp : Option Pid) (o : CleanupOutcome) : Prop :=
  (w.doCleanup name fc slirp o).1 = true → ∀ inst, w.loadUnchecked name = .ok inst →
    ∀ pid ∈ inst.pids, ¬(w.doCleanup name fc slirp o).2.isPidRunning pid

/-- A process that a cleanup went after is still running. -/
def Unproven (w : World) (name : Name) (fc slirp : Option Pid) (o : CleanupOutcome) : Prop :=
  ∃ pid, (pid ∈ (w.cleanupTargets name fc slirp).1 ∨ pid ∈ (w.cleanupTargets name fc slirp).2.1) ∧
    (w.doCleanup name fc slirp o).2.isPidRunning pid = true

variable {name : Name} {w w' : World} {callers : List Pid}

theorem Keeps.of_spares (h : Spares name w w') : Keeps callers w w' := by
  intro other d hd hnone
  have := h.present other (hd ▸ rfl)
  rw [hnone] at this
  cases this

theorem Keeps.refl (w : World) : Keeps callers w w := .of_spares (.refl [] w)

/-- A step on one directory has to answer for that directory only. -/
theorem Keeps.of_acts (h : Acts name w w')
    (hname : ∀ d, w.dirs name = some d → w'.dirs name = none → Cleared callers d w') :
    Keeps callers w w' := by
  intro other d hd hnone
  by_cases hother : other = name
  · subst hother
    exact hname d hd hnone
  · rw [h.dirs other hother, hd] at hnone
    cases hnone

variable {d : Dir}

/-- A directory without a state file names no process. -/
theorem Cleared.of_no_env (h : d.env.visible = none) : Cleared [] d w := by
  refine ⟨fun file hfile => ?_, List.forall_mem_nil _⟩
  rw [h] at hfile
  cases hfile

variable {inst : InstanceEnv}

theorem readEnv_eq_ok : readEnv d = .ok inst ↔ d.env.visible = some (.parsed inst) := by
  unfold readEnv
  split <;> simp_all

theorem Cleared.of_parsed (h : readEnv d = .ok inst)
    (hgone : ∀ pid ∈ inst.pids, ¬w.isPidRunning pid)
    (hnamed : ∀ pid ∈ callers, ¬w.isPidRunning pid) : Cleared callers d w := by
  refine ⟨fun file hfile => ?_, hnamed⟩
  rw [readEnv_eq_ok, hfile, Option.some.injEq] at h
  exact ⟨inst, h, hgone⟩

theorem readEnv_eq_instanceNotFound (h : readEnv d = .error .instanceNotFound) :
    d.env.visible = none ∨ d.env.visible = some .unreadable := by
  unfold readEnv at h
  split at h
  · rename_i hnone
    exact .inl hnone
  · rename_i hunreadable
    exact .inr hunreadable
  · cases h
  · cases h

theorem readEnv_of_loadUnchecked (hd : w.dirs name = some d) (h : w.loadUnchecked name = .ok inst) :
    readEnv d = .ok inst := by
  rwa [loadUnchecked, hd] at h

theorem exists_dir (h : w.loadUnchecked name = .ok inst) :
    ∃ d, w.dirs name = some d ∧ readEnv d = .ok inst := by
  cases hd : w.dirs name with
  | none => simp [loadUnchecked, hd] at h
  | some d => exact ⟨d, rfl, readEnv_of_loadUnchecked hd h⟩

/-! ## Stopping and removing -/

/-- A stop removes no directory. -/
theorem Keeps.of_stop {o : StopOutcome} {result : Except VmError Unit} {w₁ : World}
    (hstop : w.stopVm name inst o = (result, w₁)) : Keeps callers w w₁ :=
  .of_spares (by simpa only [hstop] using Spares.stopVm w name inst o)

/-- A stop that succeeds allows the removal of the directory. -/
theorem keeps_of_stopVm {o : StopOutcome} {w₁ : World} (hload : w.loadUnchecked name = .ok inst)
    (hstop : w.stopVm name inst o = (.ok (), w₁)) (h : Acts name w₁ w') :
    Keeps [] w w' := by
  have hacts := (Spares.stopVm w name inst o).toActs
  have hgone := stopVm_ok (by rw [hstop] : (w.stopVm name inst o).1 = .ok ())
  rw [hstop] at hacts hgone
  refine .of_acts (hacts.trans h) fun d hd _ => ?_
  exact .of_parsed (readEnv_of_loadUnchecked hd hload)
    (fun pid hpid => h.not_running (hgone pid hpid)) (List.forall_mem_nil _)

theorem keeps_removeStale (w : World) (name : Name) (o : StopOutcome) (removal : Removal) :
    Keeps [] w (w.removeStale name o removal).2 := by
  unfold removeStale
  split
  · split
    · exact .refl w
    · rename_i inst hload
      split
      · rename_i hstop
        exact .of_stop hstop
      · rename_i w₁ hstop
        exact keeps_of_stopVm hload hstop (.removeDirAll w₁ name removal)
  · exact .refl w

theorem acts_removeExisting (w : World) (name : Name) (removal : Removal) :
    Acts name w (w.removeExisting name removal).2 := by
  unfold removeExisting
  split
  · exact .removeDirAll w name removal
  · exact .refl name w

theorem keeps_stopAndRemove (hload : w.loadUnchecked name = .ok inst) (o : StopOutcome)
    (removal : Removal) :
    Keeps [] w (w.stopAndRemove name inst o removal).2 := by
  unfold stopAndRemove
  split
  · rename_i hstop
    exact .of_stop hstop
  · rename_i w₁ hstop
    exact keeps_of_stopVm hload hstop (acts_removeExisting w₁ name removal)

theorem loadUnchecked_of_load (h : w.load name = .ok inst) : w.loadUnchecked name = .ok inst := by
  unfold load at h
  split at h
  · cases h
  · exact h

/-- A deletion removes a directory whose state file cannot be read, unless it is marked. -/
def DeletesUnread (w : World) (name : Name) (removal : Removal) : Prop :=
  ∃ d, w.dirs name = some d ∧ d.env.visible = some .unreadable ∧ d.marker.visible = false ∧
    removal = .gone

/-- Only the deletion of an unmarked directory whose state file cannot be read loses evidence. -/
theorem keeps_delete_iff {o : StopOutcome} {removal : Removal} :
    Keeps [] w (w.delete name o removal).2 ↔ ¬DeletesUnread w name removal := by
  constructor
  · rintro h ⟨d, hd, henv, hmarker, rfl⟩
    have hload : w.load name = .error .instanceNotFound := by
      simp [load, markerExists, loadUnchecked, readEnv, hd, henv, hmarker]
    have hgone : (w.delete name o .gone).2.dirs name = none := by
      simp [delete, hload, removeExisting, removeDirAll, hd]
    obtain ⟨inst, hinst, _⟩ := (h name d hd hgone).recorded _ henv
    cases hinst
  · intro hread
    unfold delete
    split
    · rename_i inst hload
      exact keeps_stopAndRemove (loadUnchecked_of_load hload) o removal
    · split
      · exact .refl w
      · rename_i inst hload
        exact keeps_stopAndRemove hload o removal
    · rename_i hload
      refine .of_acts (acts_removeExisting w name removal) fun d hd hnone => .of_no_env ?_
      simp only [load, markerExists, hd, Option.any_some] at hload
      split at hload
      · cases hload
      · rename_i hmarker
        rw [loadUnchecked, hd] at hload
        refine (readEnv_eq_instanceNotFound hload).resolve_right fun henv => hread
          ⟨d, hd, henv, Bool.eq_false_of_not_eq_true hmarker, ?_⟩
        rcases removal with _ | _
        · rfl
        · simp [removeExisting, removeDirAll, updateDir, hd] at hnone
    · exact .refl w

/-! ## The rollback of the guards -/

theorem dirs_persistMarker (w : World) (name : Name) (o : Write) :
    (w.persistMarker name o).2.dirs name =
      (w.dirs name).map fun d => { d with marker := (writeFile d.marker true o).2 } := by
  unfold persistMarker
  split
  · rename_i hnone
    rw [hnone]
    rfl
  · rename_i d hd
    rw [hd]
    exact Function.update_self name _ _

theorem dirs_afterSignals (w : World) (name : Name) (fc slirp : Option Pid) (o : CleanupOutcome) :
    (w.afterSignals name fc slirp o).dirs name =
      (w.dirs name).map fun d => { d with marker := (writeFile d.marker true o.marker).2 } := by
  rw [afterSignals, dirs_settle, (cleanupSignals_same ..).2, markForCleanup]
  split
  · exact dirs_persistMarker w name o.marker
  · rename_i hnone
    rw [Option.not_isSome_iff_eq_none.mp hnone]
    rfl

/-- A state file is in doubt only where there is a directory. -/
theorem isSome_of_doubt {fc slirp : Option Pid} (h : (w.cleanupTargets name fc slirp).2.2 = true) :
    (w.dirs name).isSome := by
  unfold cleanupTargets at h
  split at h
  · cases h
  · obtain ⟨d, hd, _⟩ := (Option.any_eq_true _ _).mp h
    rw [hd]
    rfl

/-- A cleanup saw its processes gone and the directory is gone, or the directory is still there, or
a process is and the directory was only marked. -/
theorem doCleanup_cases (w : World) (name : Name) (fc slirp : Option Pid) (o : CleanupOutcome) :
    ((w.doCleanup name fc slirp o).1 = true ∧ (w.doCleanup name fc slirp o).2.dirs name = none ∧
      (w.cleanupTargets name fc slirp).2.2 = false ∧ ¬Unproven w name fc slirp o) ∨
    ((w.doCleanup name fc slirp o).1 = false ∧
      ((w.doCleanup name fc slirp o).2.dirs name).isSome ∧ (w.dirs name).isSome ∧
      ¬Unproven w name fc slirp o) ∨
    (w.doCleanup name fc slirp o).1 = false ∧ (w.doCleanup name fc slirp o).2.dirs name =
      (w.dirs name).map (fun d => { d with marker := (writeFile d.marker true o.marker).2 }) ∧
      Unproven w name fc slirp o := by
  have hexists := @isSome_of_doubt name w fc slirp
  unfold Unproven doCleanup
  dsimp only
  generalize w.cleanupTargets name fc slirp = goals at hexists ⊢
  have hdirs := dirs_afterSignals w name goals.1 goals.2.1 o
  generalize w.afterSignals name goals.1 goals.2.1 o = w₁ at hdirs ⊢
  have hsome : (w₁.dirs name).isSome = (w.dirs name).isSome := by rw [hdirs, Option.isSome_map]
  have hsurvives : (w₁.survives goals.1 || w₁.survives goals.2.1) = true ↔
      ∃ pid, (pid ∈ goals.1 ∨ pid ∈ goals.2.1) ∧ w₁.isPidRunning pid = true := by
    simp only [survives, Bool.or_eq_true, Option.any_eq_true, Option.mem_def, or_and_right,
      exists_or]
  split
  · rename_i hsurvivor
    exact .inr (.inr ⟨rfl, hdirs, hsurvives.mp hsurvivor⟩)
  · rename_i hnone
    have hproven := mt hsurvives.mpr hnone
    split
    · rename_i hdoubt
      exact .inr (.inl ⟨rfl, hsome.trans (hexists hdoubt), hexists hdoubt, hproven⟩)
    · rename_i hdoubt
      rw [Bool.not_eq_true] at hdoubt
      split
      · rename_i hdir
        have hproven' : ¬∃ pid, (pid ∈ goals.1 ∨ pid ∈ goals.2.1) ∧
            (w₁.removeDirAll name o.removal).2.isPidRunning pid = true := by
          rintro ⟨pid, hpid, hruns⟩
          exact (Acts.removeDirAll w₁ name o.removal).not_running
            (fun h => hproven ⟨pid, hpid, h⟩) hruns
        rcases removeDirAll_eq o.removal hdir with ⟨hok, hgone⟩ | ⟨hfail, hkept⟩
        · exact .inl ⟨hok, hgone, hdoubt, hproven'⟩
        · exact .inr (.inl ⟨hfail, hkept, hsome ▸ hdir, hproven'⟩)
      · rename_i hdir
        exact .inl ⟨rfl, Option.not_isSome_iff_eq_none.mp hdir, hdoubt, hproven⟩

variable {fc slirp : Option Pid} {o : CleanupOutcome}

/-- A cleanup keeps the evidence exactly when it leaves no recorded process behind. -/
theorem keeps_doCleanup_iff :
    Keeps (fc.toList ++ slirp.toList) w (w.doCleanup name fc slirp o).2 ↔
      LeavesNone w name fc slirp o := by
  constructor
  · intro h htrue inst hload
    obtain ⟨d, hd, hread⟩ := exists_dir hload
    rcases doCleanup_cases w name fc slirp o with ⟨-, hgone, -⟩ | ⟨hfalse, -⟩ | ⟨hfalse, -⟩
    · obtain ⟨_, ⟨⟩, hpids⟩ := (h name d hd hgone).recorded _ (readEnv_eq_ok.mp hread)
      exact hpids
    all_goals
      rw [hfalse] at htrue
      cases htrue
  · refine fun h => .of_acts (Acts.doCleanup w name fc slirp o) fun d hd hnone => ?_
    rcases doCleanup_cases w name fc slirp o with
      ⟨htrue, -, hdoubt, hproven⟩ | ⟨-, hkept, -⟩ | ⟨-, hkept, -⟩
    · have hgone := fun pid hpid hruns => hproven ⟨pid, hpid, hruns⟩
      unfold cleanupTargets at hdoubt hgone
      have hnamed : ∀ pid ∈ fc.toList ++ slirp.toList,
          ¬(w.doCleanup name fc slirp o).2.isPidRunning pid := by
        intro pid hpid
        refine hgone pid ?_
        have hleft {a b : Option Pid} : pid ∈ a → pid ∈ a.or b := by
          rintro rfl
          rfl
        simp only [List.mem_append, Option.mem_toList] at hpid
        split
        · exact hpid.imp hleft hleft
        · exact hpid
      cases hload : w.loadUnchecked name with
      | ok inst =>
        exact .of_parsed (readEnv_of_loadUnchecked hd hload) (h htrue inst hload) hnamed
      | error e =>
        rw [hload] at hdoubt
        refine ⟨fun file hfile => ?_, hnamed⟩
        have : w.envExists name = true := by simp [envExists, hd, hfile]
        rw [this] at hdoubt
        cases hdoubt
    all_goals
      rw [hnone] at hkept
      simp [hd] at hkept

/-- Whatever the processes do, no recorded one is left behind exactly when the cleanup goes after
all of them that run. -/
theorem leavesNone_iff : (∀ o, LeavesNone w name fc slirp o) ↔ Covers w name fc slirp := by
  constructor
  · intro h inst hload pid hpid hruns
    by_contra hmissed
    -- only the missed process outlives the signals
    let o : CleanupOutcome := ⟨.failed, (· = pid), .gone⟩
    obtain ⟨d, hd, _⟩ := exists_dir hload
    obtain ⟨hfc, hslirp⟩ := not_or.mp hmissed
    have hprocs := procs_afterSignals w name (fc.or inst.firecrackerPid) (slirp.or inst.slirpPid) o
    have hdirs := dirs_afterSignals w name (fc.or inst.firecrackerPid) (slirp.or inst.slirpPid) o
    obtain ⟨htrue, hruns'⟩ : (w.doCleanup name fc slirp o).1 = true ∧
        (w.doCleanup name fc slirp o).2.isPidRunning pid = true := by
      simp only [doCleanup, cleanupTargets, hload]
      generalize w.afterSignals name _ _ o = w₁ at hprocs hdirs ⊢
      have hgone {target : Option Pid} (hne : pid ∉ target) : w₁.survives target = false := by
        refine not_survives_iff.mpr fun p hp => ?_
        rw [isPidRunning_iff, hprocs]
        rintro ⟨process, hprocess, rfl⟩
        exact hne (of_decide_eq_true (List.mem_filter.mp hprocess).2 ▸ hp)
      have hremoved : w₁.removeDirAll name o.removal =
          (true, { w₁ with dirs := Function.update w₁.dirs name none }) := by
        simp [removeDirAll, hdirs, hd, o]
      simp only [hgone hfc, hgone hslirp, hdirs, hd, Bool.or_self, Bool.false_eq_true, if_false,
        Option.map_some, Option.isSome_some, if_true, hremoved, true_and]
      obtain ⟨process, hprocess, heq⟩ := isPidRunning_iff.mp hruns
      rw [isPidRunning_iff]
      exact ⟨process, hprocs ▸ List.mem_filter.mpr ⟨hprocess, decide_eq_true heq⟩, heq⟩
    exact h o htrue inst hload pid hpid hruns'
  · intro h o htrue inst hload pid hpid hruns
    have hbefore : w.isPidRunning pid = true := by
      by_contra hgone
      exact (Acts.doCleanup w name fc slirp o).not_running hgone hruns
    rcases doCleanup_cases w name fc slirp o with ⟨-, -, -, hproven⟩ | ⟨hfalse, -⟩ | ⟨hfalse, -⟩
    · refine hproven ⟨pid, ?_, hruns⟩
      simpa only [cleanupTargets, hload] using h inst hload pid hpid hbefore
    all_goals
      rw [hfalse] at htrue
      cases htrue

/-! ## Sweeps and drains -/

/-- A directory without a state file may be removed. -/
theorem keeps_removeDirAll (henv : w.envExists name = false) (removal : Removal) :
    Keeps [] w (w.removeDirAll name removal).2 := by
  refine .of_acts (.removeDirAll w name removal) fun d hd _ => .of_no_env ?_
  rw [envExists, hd, Option.any_some] at henv
  exact Option.not_isSome_iff_eq_none.mp (by rw [henv]; exact Bool.false_ne_true)

theorem keeps_sweepWarmDir (w : World) (report : SweepReport) (name : Name) (o : SweepOutcome) :
    Keeps [] w (w.sweepWarmDir report name o).2 := by
  unfold sweepWarmDir
  split
  · split
    · rename_i inst hload
      split
      · rename_i hstop
        exact .of_stop hstop
      · rename_i w₁ hstop
        exact keeps_of_stopVm hload hstop (.removeDirAll w₁ name o.removal)
    · exact .of_spares (.persistMarker w name o.marker)
  · rename_i henv
    exact keeps_removeDirAll (Bool.not_eq_true _ ▸ henv) o.removal

theorem keeps_sweepInstanceDir (w : World) (report : SweepReport) (name : Name)
    (o : SweepOutcome) : Keeps [] w (w.sweepInstanceDir report name o).2 := by
  unfold sweepInstanceDir
  split
  · split
    · split
      · exact .refl w
      · split
        · rename_i hstop
          exact .of_stop hstop
        · rename_i hstop
          exact .of_stop hstop
    · exact .refl w
    · rename_i inst _
      split
      · exact .of_spares (.stopVm w name inst o.stop)
      · exact .refl w
  · rename_i henv
    exact keeps_removeDirAll (Bool.not_eq_true _ ▸ henv) o.removal

theorem keeps_sweepDir (state : SweepReport × World) (entry : Name × SweepOutcome) :
    Keeps [] state.2 (sweepDir state entry).2 := by
  unfold sweepDir
  split
  · split
    · exact keeps_sweepWarmDir state.2 state.1 entry.1 entry.2
    · exact keeps_sweepInstanceDir state.2 state.1 entry.1 entry.2
  · exact .refl state.2

theorem dirs_foldl_sweepClaw (claws : List (List Char × (Pid → Bool) × (Pid → Bool)))
    (state : ℕ × World) : (claws.foldl sweepClaw state).2.dirs = state.2.dirs :=
  List.foldlRecOn (motive := fun t : ℕ × World => t.2.dirs = state.2.dirs) claws _ rfl
    fun _ h _ _ => (dirs_killProcessesReferencingPath _ _ _ _).trans h

theorem Covers.of_recorded (h : w.loadUnchecked name = .ok inst) :
    Covers w name inst.firecrackerPid inst.slirpPid := by
  intro found hfound pid hpid _
  rw [h] at hfound
  cases hfound
  simpa only [InstanceEnv.pids, List.mem_append, Option.mem_toList, Option.mem_def,
    Option.or_self] using hpid

theorem keeps_drainDir (entries : List WarmEntry) (state : ℕ × World)
    (entry : Name × CleanupOutcome) : Keeps [] state.2 (drainDir entries state entry).2 := by
  unfold drainDir
  split
  · split
    · rename_i inst hload
      intro other d hd hnone
      have hnone := leavesNone_iff.mpr (.of_recorded hload) entry.2
      exact ⟨(keeps_doCleanup_iff.mpr hnone other d hd ‹_›).recorded, List.forall_mem_nil _⟩
    · split
      · rename_i hempty
        rw [Bool.and_eq_true, Bool.not_eq_true'] at hempty
        exact keeps_removeDirAll hempty.1 entry.2.removal
      · exact .of_spares (.persistMarker state.2 entry.1 entry.2.marker)
  · exact .refl state.2

end Theyos.VmRunner

import Theyos.Models.VmRunner.Teardown

/-!
# What a teardown reaches

A teardown of one directory starts no process and leaves the other directories alone. Each step of
it is of this kind, and so is a sequence of such steps.
-/

namespace Theyos.VmRunner

open World

/-! ## Signals -/

section

variable (w : World)

theorem terminate_same (inst : InstanceEnv) :
    (w.terminate inst).procs = w.procs ∧ (w.terminate inst).dirs = w.dirs := by
  unfold World.terminate
  repeat' split <;> try exact ⟨rfl, rfl⟩

theorem forceKill_same (inst : InstanceEnv) :
    (w.forceKill inst).procs = w.procs ∧ (w.forceKill inst).dirs = w.dirs := by
  unfold World.forceKill
  repeat' split <;> try exact ⟨rfl, rfl⟩

theorem dirs_stopProcesses (inst : InstanceEnv) (o : StopOutcome) :
    (w.stopProcesses inst o).dirs = w.dirs := by
  unfold World.stopProcesses
  split
  · simp [forceKill_same, terminate_same]
  · rfl

theorem procs_stopProcesses (inst : InstanceEnv) (o : StopOutcome) :
    (w.stopProcesses inst o).procs ⊆ w.procs := by
  unfold World.stopProcesses
  split
  · simp only [settle, forceKill_same, terminate_same]
    exact List.Subset.trans (List.filter_subset_self _) (List.filter_subset_self _)
  · exact List.Subset.refl _

theorem cleanupSignals_same (fc slirp : Option Pid) :
    (w.cleanupSignals fc slirp).procs = w.procs ∧ (w.cleanupSignals fc slirp).dirs = w.dirs := by
  cases fc <;> cases slirp <;> exact ⟨rfl, rfl⟩

theorem procs_afterSignals (name : Name) (fc slirp : Option Pid) (o : CleanupOutcome) :
    (w.afterSignals name fc slirp o).procs = w.procs.filter fun process => o.lives process.pid := by
  have hmark : (w.markForCleanup name o.marker).procs = w.procs := by
    unfold markForCleanup persistMarker
    repeat' split <;> try rfl
  rw [afterSignals, settle, (cleanupSignals_same _ fc slirp).1, hmark]

theorem dirs_killProcessesReferencingPath (fragment : Name) (afterTerm afterKill : Pid → Bool) :
    (w.killProcessesReferencingPath fragment afterTerm afterKill).2.dirs = w.dirs := by
  unfold World.killProcessesReferencingPath
  dsimp only
  split <;> rfl

end

/-! ## Steps on one directory -/

/-- From `w` to `w'`, no process was started and no directory but `name` was touched. -/
structure Acts (name : Name) (w w' : World) : Prop where
  procs : w'.procs ⊆ w.procs
  dirs : ∀ other, other ≠ name → w'.dirs other = w.dirs other

variable {name : Name} {w w' w'' : World}

namespace Acts

theorem refl (name : Name) (w : World) : Acts name w w := ⟨fun _ h => h, fun _ _ => rfl⟩

theorem trans (h : Acts name w w') (h' : Acts name w' w'') : Acts name w w'' := by
  refine ⟨fun _ hp => h.procs (h'.procs hp), fun other hne => ?_⟩
  rw [h'.dirs other hne, h.dirs other hne]

/-- A process that is gone stays gone. -/
theorem not_running (h : Acts name w w') {pid : Pid} (hpid : ¬w.isPidRunning pid) :
    ¬w'.isPidRunning pid := by
  rw [isPidRunning_iff] at hpid ⊢
  rintro ⟨process, hprocess, heq⟩
  exact hpid ⟨process, h.procs hprocess, heq⟩

theorem removeDirAll (w : World) (name : Name) (o : Removal) :
    Acts name w (w.removeDirAll name o).2 := by
  have hupdate (d : Option Dir) : Acts name w { w with dirs := Function.update w.dirs name d } :=
    ⟨fun _ h => h, fun _ hne => Function.update_of_ne hne _ _⟩
  unfold World.removeDirAll
  split
  · exact refl name w
  · split
    · exact hupdate none
    · exact hupdate (some _)

end Acts

/-- A step of a teardown that removes no directory. -/
structure Spares (name : Name) (w w' : World) : Prop extends Acts name w w' where
  present : ∀ other, (w.dirs other).isSome → (w'.dirs other).isSome

namespace Spares

theorem refl (name : Name) (w : World) : Spares name w w := ⟨.refl name w, fun _ => id⟩

theorem trans (h : Spares name w w') (h' : Spares name w' w'') : Spares name w w'' :=
  ⟨h.toActs.trans h'.toActs, fun other hother => h'.present other (h.present other hother)⟩

section

variable (w : World) (name : Name)

theorem updateDir (d : Dir) : Spares name w (w.updateDir name d) := by
  refine ⟨⟨fun _ h => h, fun _ hne => Function.update_of_ne hne _ _⟩, fun other hother => ?_⟩
  change (Function.update w.dirs name (some d) other).isSome
  by_cases h : other = name
  · subst h
    rw [Function.update_self]
    rfl
  · rwa [Function.update_of_ne h]

theorem persistMarker (o : Write) : Spares name w (w.persistMarker name o).2 := by
  unfold World.persistMarker
  split
  · exact refl name w
  · exact updateDir w name _

theorem save (inst : InstanceEnv) (o : Save) : Spares name w (w.save name inst o).2 := by
  cases o with
  | refused => exact refl name w
  | written o => exact updateDir w name _

theorem clearMarker (o : Unlink) : Spares name w (w.clearMarker name o).2 := by
  unfold World.clearMarker
  split
  · exact refl name w
  · split
    · split
      · exact refl name w
      · exact updateDir w name _
      · exact updateDir w name _
    · exact refl name w

theorem stopVm (inst : InstanceEnv) (o : StopOutcome) :
    Spares name w (w.stopVm name inst o).2 := by
  have hdirs := dirs_stopProcesses w inst o
  have hstop : Spares name w (w.stopProcesses inst o) :=
    ⟨⟨procs_stopProcesses w inst o, fun _ _ => hdirs ▸ rfl⟩, fun _ h => hdirs ▸ h⟩
  refine hstop.trans ?_
  unfold World.stopVm
  dsimp only
  split
  · exact (persistMarker _ name _).trans (save _ name _ _)
  · split
    · exact (save _ name _ _).trans (clearMarker _ name _)
    · exact save _ name _ _

end

end Spares

theorem Acts.doCleanup (w : World) (name : Name) (fc slirp : Option Pid) (o : CleanupOutcome) :
    Acts name w (w.doCleanup name fc slirp o).2 := by
  unfold World.doCleanup
  dsimp only
  generalize w.cleanupTargets name fc slirp = goals
  have hsignalled : Acts name w (w.afterSignals name goals.1 goals.2.1 o) := by
    refine ⟨procs_afterSignals w name _ _ o ▸ List.filter_subset_self _, fun other hne => ?_⟩
    rw [afterSignals, dirs_settle, (cleanupSignals_same ..).2, markForCleanup]
    split
    · exact (Spares.persistMarker w name o.marker).dirs other hne
    · rfl
  split
  · exact hsignalled
  · split
    · exact hsignalled
    · split
      · exact hsignalled.trans (removeDirAll _ name _)
      · exact hsignalled

/-! ## Verdicts -/

theorem not_survives_iff {pid : Option Pid} :
    w.survives pid = false ↔ ∀ p ∈ pid, ¬w.isPidRunning p := by
  cases pid with
  | none | some p => simp [survives]

theorem forall_mem_pids {inst : InstanceEnv} {P : Pid → Prop} :
    (∀ pid ∈ inst.pids, P pid) ↔
      (∀ pid ∈ inst.firecrackerPid, P pid) ∧ ∀ pid ∈ inst.slirpPid, P pid := by
  simp only [InstanceEnv.pids, List.forall_mem_append, Option.mem_toList, Option.mem_def]

/-- A stop that succeeds has seen the processes gone. -/
theorem stopVm_ok {inst : InstanceEnv} {o : StopOutcome} (h : (w.stopVm name inst o).1 = .ok ()) :
    ∀ pid ∈ inst.pids, ¬(w.stopVm name inst o).2.isPidRunning pid := by
  unfold World.stopVm at h ⊢
  dsimp only at h ⊢
  split at h
  · cases h
  · rename_i hsurvives
    rw [if_neg hsurvives]
    rw [Bool.not_eq_true, Bool.or_eq_false_iff, not_survives_iff, not_survives_iff] at hsurvives
    have hgone := forall_mem_pids.mpr hsurvives
    intro pid hpid
    split
    · exact ((Spares.save _ name _ _).trans (Spares.clearMarker _ name _)).not_running
        (hgone pid hpid)
    · exact (Spares.save _ name _ _).not_running (hgone pid hpid)

/-- The directory is gone exactly when its removal succeeds. -/
theorem removeDirAll_eq (removal : Removal) (hdir : (w.dirs name).isSome) :
    ((w.removeDirAll name removal).1 = true ∧ (w.removeDirAll name removal).2.dirs name = none) ∨
      (w.removeDirAll name removal).1 = false ∧
        ((w.removeDirAll name removal).2.dirs name).isSome := by
  obtain ⟨d, hd⟩ := Option.isSome_iff_exists.mp hdir
  unfold World.removeDirAll
  rw [hd]
  cases removal with
  | gone =>
    left
    exact ⟨rfl, Function.update_self name _ _⟩
  | failed envLeft markerLeft =>
    right
    refine ⟨rfl, ?_⟩
    change (Function.update w.dirs name (some _) name).isSome
    rw [Function.update_self]
    rfl

end Theyos.VmRunner

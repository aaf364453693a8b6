import Theyos.Models.VmRunner.Evidence

/-!
# Quarantine

While a teardown is in doubt, the quarantine marker keeps an instance from being loaded, also
after a crash if it was made to last. With this, all that a teardown has to leave behind is put
together.
-/

namespace Theyos.VmRunner

open World

/-- What a crash leaves of the directories. -/
def Crashed (w w' : World) : Prop :=
  ∀ name d', w'.dirs name = some d' → ∃ d, w.dirs name = some d ∧
    d'.env.visible ∈ d.env.survivors ∧ d'.marker.visible ∈ d.marker.survivors

/-- Every crash leaves the marker. -/
def Lasting (marker : Volatile Bool) : Prop := ∀ m ∈ marker.survivors, m = true

/-- No crash leaves a state file that can be parsed. -/
def Unparsed (env : Volatile (Option EnvFile)) : Prop :=
  ∀ inst, some (.parsed inst) ∉ env.survivors

/-- What keeps a directory from being loaded after a call that writes its marker and, unless
`kept`, its state file: a marker that lasts, or a state file that says nothing. -/
def Quarantines (marker : Write) (kept : Prop) : Option Dir → Prop
  | none => kept
  | some d => (marker = .done ∨ Lasting d.marker) ∨ kept ∧ Unparsed d.env

/-- No crash makes the directory loadable. -/
def Unloadable (w : World) (name : Name) : Prop :=
  ∀ after, Crashed w after → ∃ e, after.load name = .error e

variable {name : Name} {w : World}

/-- A directory stays unloadable exactly if its marker lasts or its state file says nothing. -/
theorem unloadable_iff :
    Unloadable w name ↔ ∀ d, w.dirs name = some d → Lasting d.marker ∨ Unparsed d.env := by
  constructor
  · intro h d hd
    by_contra hnone
    simp only [Lasting, Unparsed, not_or, not_forall, not_not] at hnone
    obtain ⟨⟨m, hm, hfalse⟩, inst, hinst⟩ := hnone
    have hcrash : Crashed w (w.updateDir name ⟨.settled (some (.parsed inst)), .settled m⟩) := by
      intro other d' hd'
      by_cases hother : other = name
      · subst hother
        cases (Function.update_self (f := w.dirs) ..).symm.trans hd'
        exact ⟨d, hd, hinst, hm⟩
      · have hsame := (Function.update_of_ne hother _ w.dirs).symm.trans hd'
        exact ⟨d', hsame, d'.env.visible_mem_survivors, d'.marker.visible_mem_survivors⟩
    obtain ⟨e, he⟩ := h _ hcrash
    simp [load, markerExists, loadUnchecked, readEnv, updateDir, Volatile.settled, hfalse] at he
  · intro h after hcrash
    cases hafter : after.dirs name with
    | none => simp [load, markerExists, loadUnchecked, hafter]
    | some d' =>
      obtain ⟨d, hd, henv, hmarker⟩ := hcrash name d' hafter
      simp only [load, markerExists, loadUnchecked, hafter, Option.any_some]
      split
      · exact ⟨_, rfl⟩
      · rename_i hunmarked
        cases hread : readEnv d' with
        | error e => exact ⟨e, rfl⟩
        | ok inst =>
          rw [readEnv_eq_ok] at hread
          rcases h d hd with hlasting | hunparsed
          · exact absurd (hlasting _ hmarker) hunmarked
          · exact absurd (hread ▸ henv) (hunparsed inst)

theorem lasting_writeFile {marker : Volatile Bool} {o : Write} :
    Lasting (writeFile marker true o).2 ↔ o = .done ∨ Lasting marker := by
  cases o <;> simp [writeFile, Lasting, Volatile.replace, Volatile.survivors, Volatile.settled]

theorem unparsed_writeFile {env : Volatile (Option EnvFile)} {inst : InstanceEnv} {o : Write} :
    Unparsed (writeFile env (some (.parsed inst)) o).2 ↔ o = .failed ∧ Unparsed env := by
  cases o with
  | failed => simp [writeFile]
  | unsynced | done =>
    exact ⟨fun h => absurd (Volatile.visible_mem_survivors _) (h inst), fun h => nomatch h.1⟩

/-- Nothing of an instance was written. -/
def World.Save.Leaves (o : Save) : Prop := o = .refused ∨ o = .written .failed

/-- A stop that could not see the processes gone leaves an unloadable directory exactly when the
directory is quarantined. -/
theorem unloadable_stopVm {inst : InstanceEnv} {o : StopOutcome} {fc slirp persisted : Bool}
    (h : (w.stopVm name inst o).1 = .error (.teardownUnproven fc slirp persisted)) :
    Unloadable (w.stopVm name inst o).2 name ↔
      Quarantines o.marker o.save.Leaves (w.dirs name) := by
  have hstopped : (w.stopVm name inst o).2 =
      (((w.stopProcesses inst o).persistMarker name o.marker).2.save name inst o.save).2 := by
    unfold World.stopVm at h ⊢
    dsimp only at h ⊢
    split at h
    · rename_i hsurvives
      rw [if_pos hsurvives]
    · split at h
      · split at h <;> cases h
      · cases h
  have hmarked := dirs_persistMarker (w.stopProcesses inst o) name o.marker
  rw [dirs_stopProcesses] at hmarked
  rw [hstopped, unloadable_iff]
  generalize ((w.stopProcesses inst o).persistMarker name o.marker).2 = w₁ at hmarked
  cases hd : w.dirs name <;> rcases hsave : o.save with _ | o' <;>
    simp [hd, Quarantines, Save.Leaves, World.save, updateDir, hmarked, lasting_writeFile,
      unparsed_writeFile]
  · simp [Lasting, Unparsed, Volatile.settled, Volatile.survivors]

/-- A cleanup that leaves a process behind leaves an unloadable directory exactly when the
directory is quarantined. -/
theorem unloadable_doCleanup {fc slirp : Option Pid} {o : CleanupOutcome}
    (h : Unproven w name fc slirp o) :
    Unloadable (w.doCleanup name fc slirp o).2 name ↔
      Quarantines o.marker True (w.dirs name) := by
  rcases doCleanup_cases w name fc slirp o with
    ⟨-, -, -, hproven⟩ | ⟨-, -, -, hproven⟩ | ⟨-, hdirs, -⟩
  · exact absurd h hproven
  · exact absurd h hproven
  · rw [unloadable_iff, hdirs]
    cases w.dirs name <;> simp [Quarantines, lasting_writeFile]

/-! ## The evidence is kept -/

/-- Every entry of a sweep keeps the evidence, and the signals at its end remove nothing. -/
def SweepKeeps (w : World) (listing : List (Name × SweepOutcome))
    (claws : List (List Char × (Pid → Bool) × (Pid → Bool))) : Prop :=
  (∀ before entry after, listing = before ++ entry :: after →
    Keeps [] (before.foldl sweepDir (⟨0, 0, []⟩, w)).2
      ((before ++ [entry]).foldl sweepDir (⟨0, 0, []⟩, w)).2) ∧
  (w.sweepOrphans listing claws).2.dirs = (listing.foldl sweepDir (⟨0, 0, []⟩, w)).2.dirs

/-- Every step of a drain keeps the evidence, and the signals at its end remove nothing. -/
def DrainKeeps (w : World) (entries : List (WarmEntry × CleanupOutcome))
    (listing : List (Name × CleanupOutcome))
    (claws : List (List Char × (Pid → Bool) × (Pid → Bool))) : Prop :=
  (∀ before entry after, entries = before ++ entry :: after →
    Keeps entry.1.inst.pids (before.foldl drainEntry (0, w)).2
      ((before ++ [entry]).foldl drainEntry (0, w)).2) ∧
  (∀ before entry after, listing = before ++ entry :: after →
    Keeps [] (before.foldl (drainDir (entries.map Prod.fst)) (entries.foldl drainEntry (0, w))).2
      ((before ++ [entry]).foldl (drainDir (entries.map Prod.fst))
        (entries.foldl drainEntry (0, w))).2) ∧
  (w.drainWarmPool entries listing claws).2.dirs =
    (listing.foldl (drainDir (entries.map Prod.fst)) (entries.foldl drainEntry (0, w))).2.dirs

theorem sweepKeeps (w : World) (listing : List (Name × SweepOutcome))
    (claws : List (List Char × (Pid → Bool) × (Pid → Bool))) : SweepKeeps w listing claws := by
  refine ⟨fun before entry after _ => ?_, dirs_foldl_sweepClaw claws _⟩
  rw [List.foldl_append]
  exact keeps_sweepDir _ entry

/-- A drain keeps the evidence exactly when none of its cleanups leaves a recorded process. -/
theorem drainKeeps_iff {entries : List (WarmEntry × CleanupOutcome)}
    {listing : List (Name × CleanupOutcome)}
    {claws : List (List Char × (Pid → Bool) × (Pid → Bool))} :
    DrainKeeps w entries listing claws ↔
      ∀ before entry after, entries = before ++ entry :: after →
        LeavesNone (before.foldl drainEntry (0, w)).2 entry.1.container
          entry.1.inst.firecrackerPid entry.1.inst.slirpPid entry.2 := by
  refine ⟨fun h before entry after hentries => ?_, fun h => ⟨fun before entry after hentries => ?_,
    fun before entry after _ => ?_, dirs_foldl_sweepClaw claws _⟩⟩
  · have hkeeps := h.1 before entry after hentries
    rw [List.foldl_append] at hkeeps
    exact keeps_doCleanup_iff.mp hkeeps
  · rw [List.foldl_append]
    exact keeps_doCleanup_iff.mpr (h before entry after hentries)
  · rw [List.foldl_append]
    exact keeps_drainDir _ _ entry

/-- A cleanup reports exactly whether the directory is gone, unless there was none and a process
is left. -/
theorem doCleanup_eq_true_iff {fc slirp : Option Pid} {o : CleanupOutcome} :
    ((w.doCleanup name fc slirp o).1 = true ↔ (w.doCleanup name fc slirp o).2.dirs name = none) ↔
      (w.dirs name).isSome ∨ ¬Unproven w name fc slirp o := by
  rcases doCleanup_cases w name fc slirp o with
    ⟨htrue, hnone, -, hproven⟩ | ⟨hfalse, hsome, hdir, -⟩ | ⟨hfalse, hdirs, hunproven⟩
  · simp [htrue, hnone, hproven]
  · simp [hfalse, hdir, Option.isSome_iff_ne_none.mp hsome]
  · cases hd : w.dirs name <;> simp [hfalse, hdirs, hd, hunproven]

/-- An instance whose machine is process 11. -/
def elevenInst : InstanceEnv where
  container := "a".toList
  customer := "a".toList
  clawType := "c".toList
  hostPort := 0
  sshPort := 1
  firecrackerPid := some ⟨11, by decide⟩
  slirpPid := none
  customerDir := []

/-- A host on which process 11 runs, with the directory of its instance or without. -/
def elevenWorld (dir : Bool) : World where
  procs := [⟨⟨11, by decide⟩, ⟨11, by decide⟩, ["a".toList]⟩]
  dirs name := if dir && name = "a".toList then
    some ⟨.settled (some (.parsed elevenInst)), .settled false⟩ else none
  signals := []

/-- Every file step succeeds and no process reacts to a signal. -/
def stubborn : CleanupOutcome := ⟨.done, fun _ => true, .gone⟩

/-- No process reacts to a signal and the marker cannot be written. -/
def unmarked : StopOutcome := ⟨fun _ => true, fun _ => true, .failed, .written .done, .done⟩

end Theyos.VmRunner

import Theyos.Models.VmRunner.World

/-!
# Tearing virtual machines down

`stop_vm` signals the processes of an instance and looks whether they are gone; only then does it
clear the state file and lift the quarantine. `do_cleanup` is the rollback of the guards: it marks
the directory first, signals, looks, and removes the directory.
-/

namespace Theyos.VmRunner

/-! ## Stopping -/

/-- What becomes of a call of `stop_vm`. -/
structure StopOutcome where
  afterTerm : Pid → Bool
  afterKill : Pid → Bool
  marker : World.Write
  save : World.Save
  clear : World.Unlink

namespace World

variable (w : World) (name : Name) (inst : InstanceEnv) (o : StopOutcome) (removal : Removal)

/-- A process that may be named is running. -/
def survives (pid : Option Pid) : Bool := pid.any w.isPidRunning

/-- Ask the processes of an instance to end; the network's comes first. -/
def terminate : World :=
  let w₁ := match inst.slirpPid with
    | some pid => if w.isPidRunning pid then w.killPid .sigterm pid else w
    | none => w
  match inst.firecrackerPid with
  | some pid => if w.isPidRunning pid then (w₁.killPgrp .sigterm pid).killPid .sigterm pid else w₁
  | none => w₁

/-- Kill the processes of an instance that are still there. -/
def forceKill : World :=
  let w₁ := match inst.firecrackerPid with
    | some pid => if w.isPidRunning pid then (w.killPgrp .sigkill pid).killPid .sigkill pid else w
    | none => w
  match inst.slirpPid with
  | some pid => if w.isPidRunning pid then w₁.killPid .sigkill pid else w₁
  | none => w₁

/-- Signal the processes of an instance, unless none of them is running. -/
def stopProcesses : World :=
  if w.survives inst.slirpPid || w.survives inst.firecrackerPid then
    (((w.terminate inst).settle o.afterTerm).forceKill inst).settle o.afterKill
  else w

/-- Stop a virtual machine; the quarantine is lifted only when its processes are gone. -/
def stopVm : Except VmError Unit × World :=
  let w₁ := w.stopProcesses inst o
  let firecrackerSurvives := w₁.survives inst.firecrackerPid
  let slirpSurvives := w₁.survives inst.slirpPid
  if firecrackerSurvives || slirpSurvives then
    let marked := w₁.persistMarker name o.marker
    let saved := marked.2.save name inst o.save
    (.error (.teardownUnproven firecrackerSurvives slirpSurvives (marked.1 && saved.1)), saved.2)
  else
    let saved := w₁.save name inst.stopped o.save
    if saved.1 then
      let cleared := saved.2.clearMarker name o.clear
      (if cleared.1 then .ok () else .error .io, cleared.2)
    else (.error .io, saved.2)

/-- Stop what is recorded in a directory of the pool and remove the directory, before the
slot is filled again. -/
def removeStale : Except VmError Unit × World :=
  if w.envExists name then
    match w.loadUnchecked name with
    | .error e => (.error e, w)
    | .ok inst =>
      match w.stopVm name inst o with
      | (.error e, w₁) => (.error e, w₁)
      | (.ok (), w₁) =>
        let removed := w₁.removeDirAll name removal
        (if removed.1 then .ok () else .error .io, removed.2)
  else (.ok (), w)

/-- Remove the directory of an instance, if it is there. -/
def removeExisting : Except VmError Unit × World :=
  if (w.dirs name).isSome then
    let removed := w.removeDirAll name removal
    (if removed.1 then .ok () else .error .io, removed.2)
  else (.ok (), w)

/-- Stop an instance and remove its directory once the stop has succeeded. -/
def stopAndRemove : Except VmError Unit × World :=
  match w.stopVm name inst o with
  | (.error e, w₁) => (.error e, w₁)
  | (.ok (), w₁) => w₁.removeExisting name removal

/-- Delete an instance. -/
def delete : Except VmError Unit × World :=
  match w.load name with
  | .ok inst => w.stopAndRemove name inst o removal
  | .error .quarantined =>
    match w.loadUnchecked name with
    | .error e => (.error e, w)
    | .ok inst => w.stopAndRemove name inst o removal
  | .error .instanceNotFound => w.removeExisting name removal
  | .error e => (.error e, w)

end World

/-! ## The rollback of the guards -/

/-- What becomes of a call of `do_cleanup`. -/
structure CleanupOutcome where
  marker : World.Write
  lives : Pid → Bool
  removal : World.Removal

namespace World

variable (w : World) (name : Name) (fc slirp : Option Pid)

/-- The processes that a cleanup goes after, and whether the state file is in doubt. -/
def cleanupTargets : Option Pid × Option Pid × Bool :=
  match w.loadUnchecked name with
  | .ok inst => (fc.or inst.firecrackerPid, slirp.or inst.slirpPid, false)
  | .error _ => (fc, slirp, w.envExists name)

/-- Signal the network's process, the group of the machine, and the network's process again. -/
def cleanupSignals : World :=
  let w₁ := slirp.elim w (w.killPid .sigterm)
  let w₂ := fc.elim w₁ fun pid =>
    (((w₁.killPgrp .sigterm pid).killPid .sigterm pid).killPgrp .sigkill pid).killPid .sigkill pid
  slirp.elim w₂ (w₂.killPid .sigkill)

/-- Mark a directory that is there. -/
def markForCleanup (o : Write) : World :=
  if (w.dirs name).isSome then (w.persistMarker name o).2 else w

/-- The host once the processes of a cleanup had their signals. -/
def afterSignals (o : CleanupOutcome) : World :=
  ((w.markForCleanup name o.marker).cleanupSignals fc slirp).settle o.lives

/-- Kill a virtual machine and remove its directory when its processes are seen to be gone. -/
def doCleanup (o : CleanupOutcome) : Bool × World :=
  let targets := w.cleanupTargets name fc slirp
  let w₁ := w.afterSignals name targets.1 targets.2.1 o
  if w₁.survives targets.1 || w₁.survives targets.2.1 then (false, w₁)
  else if targets.2.2 then (false, w₁)
  else if (w₁.dirs name).isSome then w₁.removeDirAll name o.removal
  else (true, w₁)

/-! ## Processes that name a directory of the pool -/

/-- The command line of a process names a directory whose name starts with the fragment. -/
def references (fragment : Name) (process : Process) : Bool :=
  process.argv.any fragment.isPrefixOf

/-- Signal every process whose command line names the fragment. -/
def killProcessesReferencingPath (fragment : Name) (afterTerm afterKill : Pid → Bool) : ℕ × World :=
  let pids := (w.procs.filter (references fragment)).map Process.pid
  if pids = [] then (0, w)
  else
    (pids.length, (((w.signal .sigterm (·.pid ∈ pids)).settle afterTerm).signal .sigkill
      (·.pid ∈ pids)).settle afterKill)

end World

/-- The start of the names of the pool's directories. -/
def warmPrefix : Name := "_warm-".toList

/-- The name of the pool's directory for a claw. -/
def warmContainer (claw : List Char) : Name := warmPrefix ++ claw ++ "-0".toList

/-- The directory is one of the pool's. -/
def isPoolContainer (name : Name) : Bool := warmPrefix.isPrefixOf name

/-! ## The sweep at startup -/

/-- What becomes of a directory that the sweep looks at. -/
structure SweepOutcome where
  stop : StopOutcome
  marker : World.Write
  removal : World.Removal

/-- What a sweep reports. -/
structure SweepReport where
  instancesCleaned : ℕ
  dirsRemoved : ℕ
  cleanedContainers : List Name
  deriving DecidableEq

namespace World

/-- Sweep one directory of the pool: all of them are stale. -/
def sweepWarmDir (w : World) (report : SweepReport) (name : Name) (o : SweepOutcome) :
    SweepReport × World :=
  if w.envExists name then
    match w.loadUnchecked name with
    | .ok inst =>
      match w.stopVm name inst o.stop with
      | (.error _, w₁) => (report, w₁)
      | (.ok (), w₁) =>
        let removed := w₁.removeDirAll name o.removal
        (if removed.1 then { report with instancesCleaned := report.instancesCleaned + 1 }
          else report, removed.2)
    | .error _ => (report, (w.persistMarker name o.marker).2)
  else
    ({ report with dirsRemoved := report.dirsRemoved + 1 }, (w.removeDirAll name o.removal).2)

/-- Sweep the directory of an instance. -/
def sweepInstanceDir (w : World) (report : SweepReport) (name : Name) (o : SweepOutcome) :
    SweepReport × World :=
  if w.envExists name then
    match w.load name with
    | .error .quarantined =>
      match w.loadUnchecked name with
      | .error _ => (report, w)
      | .ok inst =>
        match w.stopVm name inst o.stop with
        | (.error _, w₁) => (report, w₁)
        | (.ok (), w₁) => ({ report with instancesCleaned := report.instancesCleaned + 1 }, w₁)
    | .error _ => (report, w)
    | .ok inst =>
      if inst.firecrackerPid.any fun pid => !w.isPidRunning pid then
        ({ report with
            instancesCleaned := report.instancesCleaned + 1,
            cleanedContainers := report.cleanedContainers ++ [name] },
          (w.stopVm name inst o.stop).2)
      else (report, w)
  else
    ({ report with dirsRemoved := report.dirsRemoved + 1 }, (w.removeDirAll name o.removal).2)

/-- Sweep one entry of the state directory. -/
def sweepDir (state : SweepReport × World) (entry : Name × SweepOutcome) : SweepReport × World :=
  if (state.2.dirs entry.1).isSome then
    if isPoolContainer entry.1 then state.2.sweepWarmDir state.1 entry.1 entry.2
    else state.2.sweepInstanceDir state.1 entry.1 entry.2
  else state

/-- Signal the processes that name the pool's directory of a claw, and count them. -/
def sweepClaw (state : ℕ × World) (entry : List Char × (Pid → Bool) × (Pid → Bool)) : ℕ × World :=
  let killed := state.2.killProcessesReferencingPath (warmContainer entry.1) entry.2.1 entry.2.2
  (state.1 + killed.1, killed.2)

/-- Sweep the entries of the state directory, and the processes of the pool. -/
def sweepOrphans (w : World) (listing : List (Name × SweepOutcome))
    (claws : List (List Char × (Pid → Bool) × (Pid → Bool))) : SweepReport × World :=
  let swept := listing.foldl sweepDir (⟨0, 0, []⟩, w)
  let killed := claws.foldl sweepClaw (swept.1.instancesCleaned, swept.2)
  ({ swept.1 with instancesCleaned := killed.1 }, killed.2)

end World

/-! ## The drain of the pool -/

/-- A virtual machine of the pool, ready to be claimed. -/
structure WarmEntry where
  container : Name
  clawType : List Char
  inst : InstanceEnv
  binaryPresent : Bool
  deriving DecidableEq

namespace World

/-- Clean up after an entry of the pool. -/
def drainEntry (state : ℕ × World) (entry : WarmEntry × CleanupOutcome) : ℕ × World :=
  let cleaned := state.2.doCleanup entry.1.container entry.1.inst.firecrackerPid
    entry.1.inst.slirpPid entry.2
  (if cleaned.1 then state.1 + 1 else state.1, cleaned.2)

/-- Clean up a directory of the pool that no entry stands for. -/
def drainDir (entries : List WarmEntry) (state : ℕ × World) (entry : Name × CleanupOutcome) :
    ℕ × World :=
  if (state.2.dirs entry.1).isSome && isPoolContainer entry.1 &&
      !entries.any (fun e => e.container = entry.1) then
    match state.2.loadUnchecked entry.1 with
    | .ok inst =>
      let cleaned := state.2.doCleanup entry.1 inst.firecrackerPid inst.slirpPid entry.2
      (if cleaned.1 then state.1 + 1 else state.1, cleaned.2)
    | .error _ =>
      if !state.2.envExists entry.1 && !state.2.markerExists entry.1 then
        let removed := state.2.removeDirAll entry.1 entry.2.removal
        (if removed.1 then state.1 + 1 else state.1, removed.2)
      else (state.1, (state.2.persistMarker entry.1 entry.2.marker).2)
  else state

/-- Kill the machines of the pool: its entries, the directories left over, and every process
whose command line names the pool. -/
def drainWarmPool (w : World) (entries : List (WarmEntry × CleanupOutcome))
    (listing : List (Name × CleanupOutcome))
    (claws : List (List Char × (Pid → Bool) × (Pid → Bool))) : ℕ × World :=
  let cleaned := entries.foldl drainEntry (0, w)
  let swept := listing.foldl (drainDir (entries.map Prod.fst)) cleaned
  claws.foldl sweepClaw swept

end World

end Theyos.VmRunner

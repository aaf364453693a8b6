import Theyos.Core.Store.Volatile
import Theyos.Models.VmRunner.Env

/-!
# The host of the virtual machines

Every instance has a directory with its state file and, while its teardown is in doubt, a
quarantine marker. Every virtual machine is a group of processes led by the one that the state
file calls Firecracker's, and a process of its own for the network.
-/

namespace Theyos.VmRunner

/-- The name of an instance, and of its directory below the state directory. -/
abbrev Name := List Char

/-- What reading `instance.env` finds. -/
inductive EnvFile where
  | unreadable
  | malformed (fault : EnvFault)
  | parsed (inst : InstanceEnv)
  deriving DecidableEq

/-- What reading a text finds. -/
def EnvFile.ofText (text : List Char) : EnvFile :=
  match parse text with
  | .ok inst => .parsed inst
  | .error fault => .malformed fault

/-- An instance that was saved is found again. -/
theorem EnvFile.ofText_render {inst : InstanceEnv} {paths : Paths} (hinst : inst.Printable)
    (hpaths : paths.Printable) : EnvFile.ofText (inst.render paths) = .parsed inst := by
  rw [ofText, parse_render hinst hpaths]

theorem EnvFile.ofText_render_vm :
    EnvFile.ofText (InstanceEnv.render ⟨"vm".toList, [], [], 80, 22, some ⟨7, by decide⟩, none, []⟩
      ⟨[], [], [], [], []⟩) = .parsed ⟨"vm".toList, [], [], 80, 22, some ⟨7, by decide⟩, none, []⟩ :=
  ofText_render ⟨⟨by decide, by simp [Text.whiteSpace]⟩, .nil, .nil, .nil⟩
    (by simp [Paths.Printable, Printable.nil])

/-- The instance without its processes. -/
def InstanceEnv.stopped (inst : InstanceEnv) : InstanceEnv :=
  { inst with firecrackerPid := none, slirpPid := none }

/-- The processes that an instance names. -/
def InstanceEnv.pids (inst : InstanceEnv) : List Pid :=
  inst.firecrackerPid.toList ++ inst.slirpPid.toList

/-- An instance's directory: its state file and its quarantine marker. -/
structure Dir where
  env : Volatile (Option EnvFile)
  marker : Volatile Bool
  deriving DecidableEq

/-- A running process, its group, and the instance directories that its command line names. -/
structure Process where
  pid : Pid
  pgrp : Pid
  argv : List Name
  deriving DecidableEq

/-- The signals that are sent. -/
inductive Signal where
  | sigterm
  | sigkill
  deriving DecidableEq, Repr

/-- The running processes, the directories, and the signals that were delivered. -/
structure World where
  procs : List Process
  dirs : Name → Option Dir
  signals : List (Signal × Pid)

/-- Why a step on the host fails. -/
inductive VmError where
  | quarantined
  | teardownUnproven (firecrackerSurvives slirpSurvives persisted : Bool)
  | instanceNotFound
  | invalidEnvFile (fault : EnvFault)
  | io
  deriving DecidableEq, Repr

namespace World

/-! ## Processes -/

section

variable (w : World)

/-- A process with this identifier is running. -/
def isPidRunning (pid : Pid) : Bool := w.procs.any (·.pid = pid)

/-- Send a signal to the processes of a kind. -/
def signal (sig : Signal) (p : Process → Bool) : World :=
  { w with signals := w.signals ++ (w.procs.filter p).map fun process => (sig, process.pid) }

/-- Send a signal to one process. -/
def killPid (sig : Signal) (pid : Pid) : World := w.signal sig (·.pid = pid)

/-- Send a signal to a group of processes. -/
def killPgrp (sig : Signal) (pid : Pid) : World := w.signal sig (·.pgrp = pid)

/-- Let time pass; some processes are still there. -/
def settle (lives : Pid → Bool) : World :=
  { w with procs := w.procs.filter fun process => lives process.pid }

end

theorem isPidRunning_iff {w : World} {pid : Pid} :
    w.isPidRunning pid = true ↔ ∃ process ∈ w.procs, process.pid = pid := by
  simp [isPidRunning]

variable (w : World)

@[simp] theorem dirs_settle (lives : Pid → Bool) : (w.settle lives).dirs = w.dirs :=
  rfl

/-! ## Files -/

variable (name : Name)

/-- The state file is there. -/
def envExists : Bool :=
  (w.dirs name).any fun d => d.env.visible.isSome

/-- The quarantine marker is there. -/
def markerExists : Bool :=
  (w.dirs name).any fun d => d.marker.visible

/-- What the state file of a directory says. -/
def readEnv (d : Dir) : Except VmError InstanceEnv :=
  match d.env.visible with
  | none | some .unreadable => .error .instanceNotFound
  | some (.malformed fault) => .error (.invalidEnvFile fault)
  | some (.parsed inst) => .ok inst

/-- Load an instance, also a quarantined one. -/
def loadUnchecked : Except VmError InstanceEnv :=
  match w.dirs name with
  | none => .error .instanceNotFound
  | some d => readEnv d

/-- Load an instance that is not quarantined. -/
def load : Except VmError InstanceEnv :=
  if w.markerExists name then .error .quarantined else w.loadUnchecked name

/-- How far a write gets. -/
inductive Write where
  | failed
  | unsynced
  | done
  deriving DecidableEq, Repr

/-- What comes of saving an instance; its directory may not even be made. -/
inductive Save where
  | refused
  | written (o : Write)
  deriving DecidableEq, Repr

/-- What comes of the removal of a marker; without a sync the marker is written again. -/
inductive Unlink where
  | failed
  | unsynced (restore : Write)
  | done
  deriving DecidableEq, Repr

/-- What comes of the removal of a directory; a removal that fails may have removed files. -/
inductive Removal where
  | gone
  | failed (envLeft markerLeft : Bool)
  deriving DecidableEq, Repr

/-- Write to a file; the write counts only when it lasts. -/
def writeFile {α : Type} (file : Volatile α) (content : α) : Write → Bool × Volatile α
  | .failed => (false, file)
  | .unsynced => (false, file.replace content)
  | .done => (true, .settled content)

/-- Change a directory that is there. -/
def updateDir (d : Dir) : World :=
  { w with dirs := Function.update w.dirs name (some d) }

/-- Write the quarantine marker. -/
def persistMarker (o : Write) : Bool × World :=
  match w.dirs name with
  | none => (false, w)
  | some d =>
    ((writeFile d.marker true o).1, w.updateDir name { d with marker := (writeFile d.marker true o).2 })

/-- Save an instance; its directory is made when it is not there. -/
def save (inst : InstanceEnv) : Save → Bool × World
  | .refused => (false, w)
  | .written o =>
    let d := (w.dirs name).getD ⟨.settled none, .settled false⟩
    let written := writeFile d.env (some (.parsed inst)) o
    (written.1, w.updateDir name { d with env := written.2 })

/-- Remove the quarantine marker; an unconfirmed removal is taken back. -/
def clearMarker (o : Unlink) : Bool × World :=
  match w.dirs name with
  | none => (true, w)
  | some d =>
    if d.marker.visible then
      match o with
      | .failed => (false, w)
      | .unsynced restore =>
        let marker := (writeFile (d.marker.replace false) true restore).2
        (false, w.updateDir name { d with marker })
      | .done => (true, w.updateDir name { d with marker := .settled false })
    else (true, w)

/-- Remove a directory with what is in it. -/
def removeDirAll (o : Removal) : Bool × World :=
  match w.dirs name with
  | none => (false, w)
  | some d =>
    match o with
    | .gone => (true, { w with dirs := Function.update w.dirs name none })
    | .failed envLeft markerLeft =>
      (false, w.updateDir name
        { env := if envLeft then d.env else d.env.replace none,
          marker := if markerLeft then d.marker else d.marker.replace false })

end World

end Theyos.VmRunner

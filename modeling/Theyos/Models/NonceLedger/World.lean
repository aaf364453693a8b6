import Theyos.Models.NonceLedger.Protocol

/-!
# Processes that share a ledger

Any number of processes open the ledger of one household. A call is checked, passed to the worker
of its process and answered by it, unless the caller stops waiting first. The transactions of all
processes follow one another, since each runs under the ledger's lock.
-/

namespace Theyos.NonceLedger

open Household Machine

section

variable (hhId : HouseholdId)

/-- An attempt that passed the checks. -/
abbrev Accepted := Checked (WorkerRequest.check hhId)

/-- An attempt that its worker has not served yet. -/
structure Pending where
  request : Accepted hhId
  /-- Whether the caller still waits for the answer. -/
  waiting : Bool

/-- A process that has opened the ledger. -/
structure Process where
  config : MeshIntentNonceLedgerConfig
  queue : List (Pending hhId)

/-- What was called and answered. -/
inductive Event where
  | opened (result : Except MeshIntentNonceLedgerOpenError Unit)
  /-- A call that did not reach the worker. -/
  | refused (request : WorkerRequest) (reason : MeshIntentNonceUnavailable)
  /-- A caller is told that its attempt is in flight. -/
  | abandoned (request : Accepted hhId)
  /-- An attempt is over; whether its caller learns of it. -/
  | served (request : Accepted hhId) (outcome : MeshIntentNonceConsumeOutcome) (delivered : Bool)

/-- The files, the processes, and what happened. -/
structure World where
  disk : Disk
  processes : ℕ → Option (Process hhId)
  log : List (Event hhId)

end

/-- What can happen next. -/
inductive Op where
  | openLedger (process : ℕ) (config : MeshIntentNonceLedgerConfig) (env : OpenCircumstances)
  /-- A call; why it gives up before the worker takes it, if it does. -/
  | call (process : ℕ) (request : WorkerRequest) (abort : Option MeshIntentNonceUnavailable)
  /-- A caller stops waiting. -/
  | abandon (process : ℕ) (i : ℕ)
  /-- The worker serves the next attempt; whether the process lives to tell. -/
  | serve (process : ℕ) (env : Circumstances) (reaches : Bool)
  /-- A process ends. -/
  | kill (process : ℕ)
  | lose (left : Leftover)

namespace World

variable (F : Formats) {hhId : HouseholdId}

/-- Nothing has happened yet. -/
def start (hhId : HouseholdId) : World hhId := ⟨.blank, fun _ => none, []⟩

variable (world : World hhId)

/-- Record what happened. -/
def record (event : Event hhId) : World hhId :=
  { world with log := world.log ++ [event] }

/-- Set up the record, and start the worker of a process that has none. -/
def setUp (process : ℕ) (config : MeshIntentNonceLedgerConfig)
    (env : OpenCircumstances) : World hhId :=
  let (result, disk) := (initializeOrRecover F hhId config env).exec world.disk
  let world := { world with disk := disk }
  match result, world.processes process with
  | .error e, _ => world.record (.opened (.error e))
  | .ok (), some _ => world.record (.opened (.ok ()))
  | .ok (), none =>
    if env.spawnFails then
      world.record (.opened (.error .io))
    else
      { world with processes := Function.update world.processes process (some ⟨config, []⟩) }.record
        (.opened (.ok ()))

/-- Open the ledger in a process. -/
def openLedger (process : ℕ) (config : MeshIntentNonceLedgerConfig)
    (env : OpenCircumstances) : World hhId :=
  if isWellFormedId "hh_" hhId.asStr then
    match env.prepare with
    | some e => world.record (.opened (.error e))
    | none =>
      if (world.processes process).all fun p => p.config = config then
        world.setUp F process config env
      else
        world.record (.opened (.error .policyMismatch))
  else
    world.record (.opened (.error .invalidIdentity))

/-- Check a call, and pass it to the worker. -/
def consume (process : ℕ) (request : WorkerRequest)
    (abort : Option MeshIntentNonceUnavailable) : World hhId :=
  match world.processes process, validate (WorkerRequest.check hhId) request, abort with
  | none, _, _ => world
  | some _, .error reason, _ => world.record (.refused request reason)
  | some _, .ok _, some reason => world.record (.refused request reason)
  | some p, .ok accepted, none =>
    { world with
      processes := Function.update world.processes process
        (some { p with queue := p.queue ++ [⟨accepted, true⟩] }) }

/-- Stop waiting for an answer. -/
def abandon (process i : ℕ) : World hhId :=
  match world.processes process with
  | none => world
  | some p =>
    match p.queue[i]? with
    | some ⟨request, true⟩ =>
      { world with
        processes := Function.update world.processes process
          (some { p with queue := p.queue.set i ⟨request, false⟩ }) }.record (.abandoned request)
    | _ => world

/-- The outcome of a transaction. -/
def settle : Except MeshIntentNonceUnavailable MeshIntentNonceConsumeOutcome →
    MeshIntentNonceConsumeOutcome
  | .ok outcome => outcome
  | .error reason => .unavailable reason

/-- Serve the next attempt of a process. -/
def serve (process : ℕ) (env : Circumstances) (reaches : Bool) : World hhId :=
  match world.processes process with
  | none => world
  | some p =>
    match p.queue with
    | [] => world
    | pending :: queue =>
      let (result, disk) :=
        (consumeInWorker F hhId p.config env pending.request.1).exec world.disk
      { world with
        disk := disk
        processes :=
          Function.update world.processes process (some { p with queue := queue }) }.record
        (.served pending.request (settle result) (pending.waiting && reaches))

/-- Let one thing happen. -/
def step : Op → World hhId
  | .openLedger process config env => world.openLedger F process config env
  | .call process request abort => world.consume process request abort
  | .abandon process i => world.abandon process i
  | .serve process env reaches => world.serve F process env reaches
  | .kill process => { world with processes := Function.update world.processes process none }
  | .lose left => { world with disk := world.disk.lose left, processes := fun _ => none }

/-- Everything that happens to a ledger. -/
def run (hhId : HouseholdId) (ops : List Op) : World hhId := ops.foldl (step F) (start hhId)

end World

section

variable {F : Formats} {hhId : HouseholdId}

/-- What an event leaves of the files. -/
def EventLeaves (F : Formats) (disk : Disk) : Event hhId → Disk → Prop
  | .opened result, after => (∃ config, OpenLeaves F hhId config disk after) ∧
      (result = .ok () → ∃ bytes, after.Lasts F hhId bytes)
  | .refused _ _, after => disk.Within F hhId after
  | .abandoned _, after => disk.Within F hhId after
  | .served request outcome _, after => ConsumeLeaves F hhId disk request.1 outcome after

/-- A step that is not recorded adds nothing to the files, and one that is leaves what its event
says. -/
inductive World.Traced (F : Formats) (world after : World hhId) : Prop where
  | quiet (hlog : after.log = world.log) (hdisk : world.disk.Within F hhId after.disk)
  | logged (event : Event hhId) (hlog : after.log = world.log ++ [event])
      (hdisk : EventLeaves F world.disk event after.disk)

namespace World

variable {world : World hhId}

/-- An opening is recorded, and leaves what it says. -/
theorem openLedger_opened (hF : F.Lawful) (hsound : world.disk.Sound F hhId) (process : ℕ)
    (config : MeshIntentNonceLedgerConfig) (env : OpenCircumstances) :
    ∃ result, (world.openLedger F process config env).log = world.log ++ [.opened result] ∧
      EventLeaves F world.disk (.opened result : Event hhId)
        (world.openLedger F process config env).disk := by
  have herror (disk : Disk) (hdisk : OpenLeaves F hhId config world.disk disk)
      (e : MeshIntentNonceLedgerOpenError) :
      EventLeaves F world.disk (.opened (.error e) : Event hhId) disk :=
    ⟨⟨config, hdisk⟩, fun h => by cases h⟩
  have hrefused (e : MeshIntentNonceLedgerOpenError) := herror _ hsound.within.openLeaves e
  unfold openLedger
  split
  · rename_i hhhId
    split
    · exact ⟨_, rfl, hrefused _⟩
    · split
      · have hspec := @initializeOrRecover_spec F hhId _ config env hF hhhId hsound _ rfl
        unfold setUp
        rcases hexec : (initializeOrRecover F hhId config env).exec world.disk with ⟨e | _, disk⟩
        · rw [hexec] at hspec
          exact ⟨_, rfl, herror disk hspec e⟩
        · rw [hexec] at hspec
          have hok : EventLeaves F world.disk (.opened (.ok ()) : Event hhId) disk :=
            ⟨⟨config, hspec.1⟩, fun _ => hspec.2⟩
          dsimp only
          split
          · rename_i hresult
            cases hresult
          · exact ⟨_, rfl, hok⟩
          · split
            · exact ⟨_, rfl, herror disk hspec.1 _⟩
            · exact ⟨_, rfl, hok⟩
      · exact ⟨_, rfl, hrefused _⟩
  · exact ⟨_, rfl, hrefused _⟩

theorem consume_traced (hsound : world.disk.Sound F hhId) (process : ℕ) (request : WorkerRequest)
    (abort : Option MeshIntentNonceUnavailable) :
    world.Traced F (world.consume process request abort) := by
  unfold consume
  split
  · exact .quiet rfl hsound.within
  · exact .logged _ rfl hsound.within
  · exact .logged _ rfl hsound.within
  · exact .quiet rfl hsound.within

theorem abandon_traced (hsound : world.disk.Sound F hhId) (process i : ℕ) :
    world.Traced F (world.abandon process i) := by
  unfold abandon
  split
  · exact .quiet rfl hsound.within
  · split
    · exact .logged _ rfl hsound.within
    · exact .quiet rfl hsound.within

theorem serve_traced (hF : F.Lawful) (hsound : world.disk.Sound F hhId) (process : ℕ)
    (env : Circumstances) (reaches : Bool) :
    world.Traced F (world.serve F process env reaches) := by
  unfold serve
  split
  · exact .quiet rfl hsound.within
  · rename_i p _
    split
    · exact .quiet rfl hsound.within
    · rename_i pending queue _
      have hspec := @consumeInWorker_spec F hhId _ _ p.config env hF pending.request.2 hsound _ rfl
      rcases hexec :
        (consumeInWorker F hhId p.config env pending.request.1).exec world.disk with
        ⟨_ | _, disk⟩ <;>
      · rw [hexec] at hspec
        exact .logged _ rfl hspec

theorem lose_within {disk : Disk} (hsound : disk.Sound F hhId) (left : Leftover) :
    disk.Within F hhId (disk.lose left) where
  sound := hsound.shrink (fun _ => Volatile.mem_survivors_lose) Volatile.mem_survivors_lose
  record _ := Volatile.mem_survivors_lose

/-- Every step is traced by what it records. -/
theorem step_traced (hF : F.Lawful) (hsound : world.disk.Sound F hhId) (op : Op) :
    world.Traced F (world.step F op) := by
  cases op with
  | openLedger process config env =>
    obtain ⟨result, hlog, hdisk⟩ := openLedger_opened hF hsound process config env
    exact .logged _ hlog hdisk
  | call process request abort => exact consume_traced hsound process request abort
  | abandon process i => exact abandon_traced hsound process i
  | serve process env reaches => exact serve_traced hF hsound process env reaches
  | kill process => exact .quiet rfl hsound.within
  | lose left => exact .quiet rfl (lose_within hsound left)

end World

end

end Theyos.NonceLedger

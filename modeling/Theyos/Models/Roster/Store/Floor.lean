import Theyos.Core.Machine.History
import Theyos.Core.Machine.Program
import Theyos.Models.Roster.Store.Historical

/-!
# The floor of the clock

A household trusts its clock only above a floor that is written to disk before it is used. Every
process keeps in memory what it last verified and the highest floor it failed to write.
-/

namespace Theyos.Roster

open Household Machine

/-- Where reading and writing can fail. -/
inductive StoreIoStage where
  | readClock
  | readChain
  | statTmp
  | removeTmp
  | openTmp
  | statTmpMode
  | writePayload
  | flush
  | syncTmp
  | rename
  | openParent
  | syncParent
  | readback
  deriving DecidableEq, Repr

/-- Files of the store. -/
inductive StoreTarget where
  | clockFloor
  | acceptedChain
  | tmp
  deriving DecidableEq, Repr

/-- Why a call of the store fails. -/
inductive RosterStoreError where
  | io (stage : StoreIoStage)
  | unsafeFileType (target : StoreTarget)
  | tempAlreadyExists
  | modeMismatch
  | notInitialized
  | alreadyInitialized
  | inconsistentProvisioningState
  | readbackMismatch
  | integrity (e : ChainIntegrityError)
  | household (e : HouseholdError)
  deriving DecidableEq, Repr

/-- Why a file is not replaced. -/
inductive WriteFault where
  | io (stage : StoreIoStage)
  | unsafeTmp
  | tempAlreadyExists
  | modeMismatch
  deriving DecidableEq, Repr

/-- The error a failed write is reported with. -/
def WriteFault.toError : WriteFault → RosterStoreError
  | io stage => .io stage
  | unsafeTmp => .unsafeFileType .tmp
  | tempAlreadyExists => .tempAlreadyExists
  | modeMismatch => .modeMismatch

/-- How far the replacement of a file gets. -/
inductive WriteFate where
  /-- It fails before the rename. -/
  | refused (fault : WriteFault)
  /-- It fails after the rename. -/
  | interrupted (stage : StoreIoStage)
  | landed
  deriving DecidableEq, Repr

/-- Why a file is not read. -/
inductive ReadFault where
  | io
  | unsafeFileType
  deriving DecidableEq, Repr

/-- The error a failed read is reported with. -/
def ReadFault.toError (stage : StoreIoStage) (target : StoreTarget) : ReadFault → RosterStoreError
  | io => .io stage
  | unsafeFileType => .unsafeFileType target

/-- The process that makes a call, and what it meets. -/
structure Circumstances where
  process : ℕ
  /-- The reading of the clock, if there is one. -/
  clock : Option UInt64
  chainFault : Option ReadFault
  floorFault : Option ReadFault
  secondFloorFault : Option ReadFault
  floorFate : WriteFate
  secondFloorFate : WriteFate
  chainFate : WriteFate
  deriving DecidableEq, Repr

/-- Replace a file and read it back. -/
def strictAtomicReplace {σ : Type} (put : List UInt8 → σ → σ) (fate : WriteFate)
    (canonical : List UInt8) (validate : List UInt8 → Except RosterStoreError Unit) :
    Program RosterStoreError σ Unit :=
  match fate with
  | .refused fault => throw fault.toError
  | .interrupted stage => do
    modify (put canonical)
    throw (.io stage)
  | .landed => do
    modify (put canonical)
    Program.ofExcept (validate canonical)

/-- What a process remembers of the floor. -/
structure FloorLatch where
  lastVerified : Option UInt64
  failedTarget : Option UInt64
  failureLatched : Bool
  deriving DecidableEq, Repr

namespace FloorLatch

/-- Nothing is remembered at first. -/
def new : FloorLatch := ⟨none, none, false⟩

/-- The largest of a value and those remembered. -/
def peak (latch : FloorLatch) (value : UInt64) : UInt64 :=
  max value (max (latch.lastVerified.getD 0) (latch.failedTarget.getD 0))

/-- Remember a failure, and what it aimed at. -/
def recordFailure (latch : FloorLatch) (target : Option UInt64) : FloorLatch where
  lastVerified := latch.lastVerified
  failedTarget :=
    match target with
    | some t => some (latch.peak t)
    | none => latch.failedTarget
  failureLatched := true

/-- Remember a floor that was written. -/
def recordSuccess (_ : FloorLatch) (value : UInt64) : FloorLatch := ⟨some value, none, false⟩

end FloorLatch

/-- What happened to the floor. -/
inductive FloorEvent where
  /-- A floor came onto the disk. -/
  | wrote (floor : UInt64)
  /-- A process failed to write a floor. -/
  | failed (process : ℕ) (target : UInt64)
  /-- A process was told a floor after a reading of its clock. -/
  | returned (process : ℕ) (raw floor : UInt64)
  deriving DecidableEq, Repr

/-- The floor on disk, what each process remembers, and what happened. -/
structure ClockSide where
  floor : Option (List UInt8)
  latch : ℕ → FloorLatch
  events : List FloorEvent

/-- No trusted floor is available. -/
structure FloorUnavailable where
  deriving DecidableEq, Repr

/-- What to do when there is no floor on disk. -/
inductive MissingFloorPolicy where
  | initializeNoGenesis
  | rejectUnavailable
  deriving DecidableEq, Repr

/-- How far ahead of its reading the clock has to stay representable, in seconds. -/
def durableClockFutureSkewSecs : UInt64 := 60

namespace ClockSide

/-- Change what a process remembers. -/
def setLatch (s : ClockSide) (process : ℕ) (latch : FloorLatch) : ClockSide :=
  { s with latch := Function.update s.latch process latch }

/-- Record what happened. -/
def record (s : ClockSide) (e : FloorEvent) : ClockSide := { s with events := s.events ++ [e] }

end ClockSide

section

variable (F : Formats) (hhId : HouseholdId) (env : Circumstances)

/-- Read the floor on disk. -/
def readClockFloorInner (fault : Option ReadFault) (floor : Option (List UInt8)) :
    Except RosterStoreError (Option ClockFloorRecordV1) :=
  match fault, floor with
  | some fault, _ => .error (fault.toError .readClock .clockFloor)
  | none, none => .ok none
  | none, some bytes => do
    let rec' ← (decodeClockFloor F bytes hhId).mapError .integrity
    require (rec'.floorSecs ≠ 0) (.integrity .nonCanonicalRecord)
    return some rec'

/-- Refuse to give a floor, and remember why. -/
def unavailable {α : Type} (target : Option UInt64) : Program FloorUnavailable ClockSide α := do
  modify fun s => s.setLatch env.process ((s.latch env.process).recordFailure target)
  throw ⟨⟩

/-- Put a floor on disk and remember it. -/
def writeFloor (fate : WriteFate) (newFloor : UInt64) :
    Program FloorUnavailable ClockSide UInt64 := do
  let write : Program RosterStoreError ClockSide Unit := do
    let canonical ← Program.ofExcept ((F.writeClockFloor ⟨1, hhId, newFloor⟩).mapError .household)
    strictAtomicReplace (fun bytes s => { s with floor := some bytes }.record (.wrote newFloor)) fate
      canonical fun readback => do
        let decoded ← (decodeClockFloor F readback hhId).mapError .integrity
        require (decoded = ⟨1, hhId, newFloor⟩) .readbackMismatch
  (write.onError fun s => (s.setLatch env.process
    ((s.latch env.process).recordFailure (some newFloor))).record
      (.failed env.process newFloor)).adapt fun _ => ⟨⟩
  modify fun s => s.setLatch env.process ((s.latch env.process).recordSuccess newFloor)
  return newFloor

/-- The floor on disk, or none if a floor cannot be had. -/
def durableFloor (policy : MissingFloorPolicy) (floor : Option (List UInt8)) : Option UInt64 :=
  match readClockFloorInner F hhId env.floorFault floor with
  | .ok (some rec') => some rec'.floorSecs
  | .ok none =>
    match policy with
    | .initializeNoGenesis => some 0
    | .rejectUnavailable => none
  | .error _ => none

/-- The new floor after a reading of the clock. -/
def observeWallFloor (policy : MissingFloorPolicy) : Program FloorUnavailable ClockSide UInt64 :=
  match env.clock with
  | none => unavailable env none
  | some raw =>
    if raw = 0 then unavailable env none
    else if checkedAdd raw durableClockFutureSkewSecs = none then unavailable env (some raw)
    else do
      let s ← get
      let latch := s.latch env.process
      match durableFloor F hhId env policy s.floor with
      | none => unavailable env (some raw)
      | some durable =>
        if 0 < durable ∧ raw < durable then unavailable env (some (latch.peak (max durable raw)))
        else if raw < latch.lastVerified.getD 0 then unavailable env (some (latch.peak raw))
        else do
          let floor ← writeFloor F hhId env env.floorFate (latch.peak (max durable raw))
          modify fun s => s.record (.returned env.process raw floor)
          return floor

/-- Raise the floor to at least a target. -/
def advanceFloorTo (target : UInt64) : Program FloorUnavailable ClockSide UInt64 :=
  if target = 0 then unavailable env none
  else do
    let s ← get
    match readClockFloorInner F hhId env.secondFloorFault s.floor with
    | .ok (some rec') =>
      writeFloor F hhId env env.secondFloorFate
        ((s.latch env.process).peak (max rec'.floorSecs target))
    | _ => unavailable env (some target)

end

end Theyos.Roster

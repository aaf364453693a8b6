import Theyos.Core.Machine.Program
import Theyos.Core.Store.Torn
import Theyos.Core.Word.Checked
import Theyos.Models.OwnerEvents.Event

/-!
# The owner-event log

Every call takes the log's lock, so calls of different processes follow one another. An append
first cuts off a torn end, then numbers the event after the last one it finds, writes its record
and syncs the file and its directory.
-/

namespace Theyos.OwnerEvents

open Machine

/-- The step whose acknowledgement was lost. -/
inductive EventDurabilityStage where
  | write
  | fileSync
  | parentSync
  deriving DecidableEq, Repr

/-- Why a call fails. -/
inductive EventError where
  | storage
  | cbor (message : String)
  | signing
  | clockSkew
  | payloadTypeMismatch
  | machineJoinedConflict
  | lifecycle
  | staleLifecycleBinding
  | mayHaveTakenEffect (stage : EventDurabilityStage)
  deriving DecidableEq, Repr

/-- The file of the log. -/
abbrev LogFile := TornFile UInt8

/-- The largest log that is read. -/
def maxLogBytes : ℕ := maxRecordBytes * 1000000

/-- Which of the two syncs fail. -/
structure SyncFaults where
  file : Bool
  parent : Bool

/-- What comes of cutting off the end of the log. -/
inductive SetLenFate where
  | done
  /-- It fails, and may have cut the end off. -/
  | failed (cut : Bool)

/-- What goes wrong while the log is scanned and repaired. -/
structure RepairFaults where
  read : Option EventError
  opened : Option EventError
  setLen : SetLenFate
  sync : SyncFaults

/-- What goes wrong while a record is appended. -/
structure AppendFaults where
  opened : Option EventError
  /-- The write fails after so many bytes. -/
  cutAfter : Option ℕ
  sync : SyncFaults

/-- What goes wrong when a record that was found is synced again. -/
structure StabilizeFaults where
  opened : Option EventError
  sync : SyncFaults

/-- What a call meets. -/
structure Circumstances where
  /-- Why the binding or the lock is refused. -/
  binding : Option EventError
  repair : RepairFaults
  /-- Why the second read fails. -/
  reread : Option EventError
  /-- The time, unless the clock is before the epoch. -/
  now : Option UInt64
  /-- The signature of the canonical bytes, or why there is none. -/
  signature : Except EventError (List UInt8)
  append : AppendFaults
  stabilize : StabilizeFaults

/-- Fail with an error, if there is one. -/
def failWith (error : Option EventError) : Program EventError LogFile Unit :=
  match error with
  | some e => throw e
  | none => pure ()

/-- Sync the log and its directory. -/
def syncAll (faults : SyncFaults) : Program EventError LogFile Unit := do
  Program.require (¬ faults.file) (.mayHaveTakenEffect .fileSync)
  Program.require (¬ faults.parent) (.mayHaveTakenEffect .parentSync)
  modify TornFile.sync

/-- The bytes of the log. -/
def readLogBytes (fault : Option EventError) : Program EventError LogFile (List UInt8) := do
  failWith fault
  let bytes := (← get).visible
  Program.require (bytes.length ≤ maxLogBytes) (.cbor "owner-event log exceeds safety cap")
  return bytes

/-- Cut off the end of the log. -/
def setLen (fate : SetLenFate) (n : ℕ) : Program EventError LogFile Unit :=
  match fate with
  | .done => modify (·.truncate n)
  | .failed cut => do
    if cut then
      modify (·.truncate n)
    throw (.mayHaveTakenEffect .write)

/-- Write the record of an encoded event. -/
def appendLengthPrefixedRecord (faults : AppendFaults) (payload : List UInt8) :
    Program EventError LogFile Unit := do
  failWith faults.opened
  match faults.cutAfter with
  | some k =>
    modify (·.append ((lengthPrefixed payload).take k))
    throw (.mayHaveTakenEffect .write)
  | none =>
    modify (·.append (lengthPrefixed payload))
    syncAll faults.sync

/-- Sync a log in which a record was found. -/
def stabilizeLog (faults : StabilizeFaults) : Program EventError LogFile Unit := do
  failWith faults.opened
  syncAll faults.sync

/-- What a call of append gives. -/
structure AppendRequest where
  issuerMId : String
  eventType : OwnerEventType
  payload : OwnerEventPayload

section

variable (codec : EventCodec)

/-- The events of a log. -/
def storedEvents (bytes : List UInt8) : List OwnerEvent := (recordReader codec).records bytes

/-- The number of bytes that the events of a log take. -/
def storedLength (bytes : List UInt8) : ℕ := (recordReader codec).validLen bytes

/-- Find the last cursor, and cut off a torn end. -/
def scanAndRepair (faults : RepairFaults) : Program EventError LogFile UInt64 := do
  let bytes ← readLogBytes faults.read
  let head := (storedEvents codec bytes).getLast?.elim 0 (·.cursor)
  if storedLength codec bytes < bytes.length then
    failWith faults.opened
    setLen faults.setLen (storedLength codec bytes)
    syncAll faults.sync
  return head

variable (env : Circumstances)

/-- Number, sign and write an event. -/
def appendNewLocked (head : UInt64) (request : AppendRequest) :
    Program EventError LogFile OwnerEvent := do
  let cursor ← Program.ofExcept (okOr (checkedAdd head 1) (.cbor "cursor overflow"))
  let ts ← Program.ofExcept (okOr env.now .clockSkew)
  let signature ← Program.ofExcept env.signature
  let event : OwnerEvent :=
    ⟨ownerEventVersion, cursor, ts, request.eventType, request.payload, request.issuerMId,
      signature⟩
  let eventBytes ← Program.ofExcept
    ((codec.encode event).mapError fun e => .cbor s!"encode signed event: {e}")
  Program.require (eventBytes.length ≤ maxRecordBytes)
    (.cbor s!"owner-event record too large: {eventBytes.length} bytes (max {maxRecordBytes})")
  appendLengthPrefixedRecord env.append eventBytes
  return event

/-- Append an event. -/
def append (request : AppendRequest) :
    Program EventError LogFile OwnerEvent := do
  Program.require (request.payload.matchesType request.eventType) .payloadTypeMismatch
  failWith env.binding
  let head ← scanAndRepair codec env.repair
  appendNewLocked codec env head request

/-- Append the event that a machine joined, or find it. -/
def appendMachineJoinedExactlyOnce (issuerMId : String)
    (payload : MachineJoinedPayload) : Program EventError LogFile OwnerEvent := do
  failWith env.binding
  let head ← scanAndRepair codec env.repair
  let bytes ← readLogBytes env.reread
  Program.require (storedLength codec bytes = bytes.length) (.mayHaveTakenEffect .write)
  match (storedEvents codec bytes).find? (·.joinedMachine = some payload.mId) with
  | some event =>
    Program.require (event.payload = .machineJoined payload ∧ event.issuerMId = issuerMId)
      .machineJoinedConflict
    stabilizeLog env.stabilize
    return event
  | none => appendNewLocked codec env head ⟨issuerMId, .machineJoined, .machineJoined payload⟩

/-- Read every event above a cursor. -/
def readSince (since : UInt64) :
    Program EventError LogFile (List OwnerEvent) := do
  failWith env.binding
  let bytes ← readLogBytes env.reread
  return (storedEvents codec bytes).filter (since < ·.cursor)

/-- Repair the log, as it is opened or reloaded. -/
def repair : Program EventError LogFile UInt64 := do
  failWith env.binding
  scanAndRepair codec env.repair

end

end Theyos.OwnerEvents

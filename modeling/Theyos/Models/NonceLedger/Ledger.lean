import Theyos.Models.NonceLedger.Disk
import Theyos.Models.Roster.Store.Coordinator

/-!
# Transactions of the ledger

A nonce is consumed under the ledger's lock: the record is read when its marker says that it
lasts, and otherwise written once more first; the entries that expired below the floor are
dropped, and the key is added unless it is there.
-/

namespace Theyos.NonceLedger

open Household Machine
open Roster (TrustedWallFloor)

/-- What became of an attempt to consume a nonce. -/
inductive MeshIntentNonceConsumeOutcome where
  | committed (generation : UInt64)
  | alreadyConsumed (evidence : MeshIntentNonceEvidence)
  | mayHaveTakenEffect (stage : MeshIntentNonceCommitStage)
  | unavailable (reason : MeshIntentNonceUnavailable)
  deriving DecidableEq

/-- Why a ledger is not opened. -/
inductive MeshIntentNonceLedgerOpenError where
  | invalidIdentity
  | authorityConflict
  | unsafePath
  | unsupportedFilesystem
  | lockTimeout
  | lockPoisoned
  | io
  | corrupt
  | policyMismatch
  | recordTooLarge
  | recoveryRequired
  deriving DecidableEq, Repr

/-- How a failure inside the ledger is reported when it is opened. -/
def mapUnavailableToOpen : MeshIntentNonceUnavailable → MeshIntentNonceLedgerOpenError
  | .lockTimeout => .lockTimeout
  | .lockPoisoned => .lockPoisoned
  | .unsafePath => .unsafePath
  | .unsupportedFilesystem => .unsupportedFilesystem
  | .corruptRecord => .corrupt
  | .policyMismatch => .policyMismatch
  | .recordTooLarge => .recordTooLarge
  | .recoveryRequired => .recoveryRequired
  | .wrongHousehold | .wrongTrustedFloorHousehold | .evidenceExpired | .capacityExhausted
  | .generationExhausted | .deadlineExceeded | .cancelled | .io | .writeFailed _ => .io

/-- An attempt to consume a nonce. -/
structure WorkerRequest where
  key : MeshIntentNonceKey
  evidence : MeshIntentNonceEvidence
  trustedFloor : TrustedWallFloor
  deriving DecidableEq

/-- What is checked before an attempt is passed to the worker. -/
def WorkerRequest.check (hhId : HouseholdId) (request : WorkerRequest) :
    Except MeshIntentNonceUnavailable Unit := do
  require (request.key.hhId = hhId) .wrongHousehold
  require (request.trustedFloor.hhId = hhId) .wrongTrustedFloorHousehold
  require (request.trustedFloor.unixSeconds < request.evidence.notAfter) .evidenceExpired

/-- What a transaction meets on its way. -/
structure Circumstances where
  /-- Why the locks are not taken, if they are not. -/
  acquire : Option MeshIntentNonceUnavailable
  markerFault : Bool
  recoverFault : Option ReadFault
  recoverReplace : ReplaceFaults
  recoverMarker : MarkerFate
  recordFault : Option ReadFault
  dirtyMarker : MarkerFate
  replace : ReplaceFaults
  cleanMarker : MarkerFate
  /-- Whether the household was replaced after the commit. -/
  bindingLost : Bool

/-- What the opening of a ledger meets on its way. -/
structure OpenCircumstances where
  /-- Why the directories and the lock are not found in order, if they are not. -/
  prepare : Option MeshIntentNonceLedgerOpenError
  acquire : Option MeshIntentNonceUnavailable
  markerFault : Bool
  recordFault : Option ReadFault
  initializingMarker : MarkerFate
  replace : ReplaceFaults
  cleanMarker : MarkerFate
  /-- Whether the worker cannot be started. -/
  spawnFails : Bool

/-- Fail when there is a reason to. -/
def failWith {ε : Type} (reason : Option ε) : Program ε Disk Unit :=
  match reason with
  | some e => throw e
  | none => pure ()

section

variable (F : Formats) (hhId : HouseholdId) (config : MeshIntentNonceLedgerConfig)

section

variable (env : Circumstances)

/-- Read the record and check it. -/
def readAndValidateRecord (fault : Option ReadFault) :
    Program MeshIntentNonceUnavailable Disk LedgerRecordV1 := do
  let bytes ← readRecordBytes fault
  Program.ofExcept (decodeAndValidate F hhId config bytes)

/-- Write the record that is seen once more, and mark it as lasting. -/
def recoverVisibleForConsume : Program MeshIntentNonceUnavailable Disk Unit := do
  let bytes ← readRecordBytes env.recoverFault
  let _ ← Program.ofExcept (decodeAndValidate F hhId config bytes)
  (atomicReplace env.recoverReplace bytes).adapt fun _ =>
    .recoveryRequired
  (writeMarkerRaw env.recoverMarker markerClean).adapt fun _ =>
    .recoveryRequired

/-- Read a record that lasts. -/
def loadCleanRecord : Program MeshIntentNonceUnavailable Disk LedgerRecordV1 := do
  let marker ← (readMarker env.markerFault).adapt fun _ => .io
  if marker = some markerClean then
    readAndValidateRecord F hhId config env.recordFault
  else do
    recoverVisibleForConsume F hhId config env
    readAndValidateRecord F hhId config env.recordFault

/-- Replace the record between its two markers. -/
def commitSemantic (canonical : List UInt8) (generation : UInt64) :
    Program MeshIntentNonceUnavailable Disk MeshIntentNonceConsumeOutcome := do
  (writeMarkerStaged env.dirtyMarker markerDirty .dirtyMarkerWrite .dirtyMarkerSync).adapt
    .writeFailed
  match ← (atomicReplace env.replace canonical).attempt with
  | .error (.notCommitted stage) => throw (.writeFailed stage)
  | .error (.uncertain stage) => return .mayHaveTakenEffect stage
  | .ok () =>
    match ← (writeMarkerStaged env.cleanMarker markerClean .cleanMarkerWrite
        .cleanMarkerSync).attempt with
    | .error stage => return .mayHaveTakenEffect stage
    | .ok () =>
      if env.bindingLost then
        return .mayHaveTakenEffect .postCommitBinding
      else
        return .committed generation

/-- Add a key that a record does not hold, and commit it. -/
def insertAndCommit (request : WorkerRequest) (record : LedgerRecordV1) (entryId : String) :
    Program MeshIntentNonceUnavailable Disk MeshIntentNonceConsumeOutcome := do
  Program.require (record.entries.size < config.capacity) .capacityExhausted
  let nextGeneration ← Program.ofExcept (okOr (checkedAdd record.generation 1) .generationExhausted)
  let canonical ← Program.ofExcept (okOr
    (F.writeRecord (record.insert nextGeneration entryId (.of request.key request.evidence)))
    .corruptRecord)
  Program.require (canonical.length ≤ maxRecordBytes) .recordTooLarge
  commitSemantic env canonical nextGeneration

/-- Consume a nonce under the lock. -/
def consumeInWorker (request : WorkerRequest) :
    Program MeshIntentNonceUnavailable Disk MeshIntentNonceConsumeOutcome := do
  failWith env.acquire
  let loaded ← loadCleanRecord F hhId config env
  let record := loaded.prune request.trustedFloor.unixSeconds
  let entryId ← Program.ofExcept (okOr (F.entryId (StoredKeyV1.from request.key)) .corruptRecord)
  match record.entries[entryId]? with
  | some existing =>
    Program.require (existing.key = StoredKeyV1.from request.key) .corruptRecord
    return .alreadyConsumed existing.evidence
  | none => insertAndCommit F config env request record entryId

end

section

variable (env : OpenCircumstances)

/-- Set up an empty record. -/
def initializeFreshUnderLock : Program MeshIntentNonceLedgerOpenError Disk Unit := do
  (writeMarkerRaw env.initializingMarker markerInitializing).adapt fun _ =>
    .io
  let bytes ← Program.ofExcept (okOr (F.writeRecord (.empty hhId config)) .corrupt)
  (atomicReplace env.replace bytes).adapt fun _ => .recoveryRequired
  (writeMarkerRaw env.cleanMarker markerClean).adapt fun _ => .io

/-- Write the record that is seen once more, and mark it as lasting. -/
def stabilizeVisibleUnderLock (bytes : List UInt8) :
    Program MeshIntentNonceLedgerOpenError Disk Unit := do
  let _ ← Program.ofExcept ((decodeAndValidate F hhId config bytes).mapError mapUnavailableToOpen)
  (atomicReplace env.replace bytes).adapt fun _ => .recoveryRequired
  (writeMarkerRaw env.cleanMarker markerClean).adapt fun _ => .io

/-- Bring the record into a state in which it lasts. -/
def initializeOrRecover : Program MeshIntentNonceLedgerOpenError Disk Unit := do
  (failWith env.acquire).adapt mapUnavailableToOpen
  let marker ← (readMarker env.markerFault).adapt fun _ => .io
  let visibleRecord ← (readOptionalRecord env.recordFault).adapt mapUnavailableToOpen
  match visibleRecord, marker with
  | some bytes, marker =>
    if marker = some markerClean then
      let _ ← Program.ofExcept
        ((decodeAndValidate F hhId config bytes).mapError mapUnavailableToOpen)
    else
      stabilizeVisibleUnderLock F hhId config env bytes
  | none, none => initializeFreshUnderLock F hhId config env
  | none, some marker =>
    if marker.isPrefixOf markerInitializing then
      initializeFreshUnderLock F hhId config env
    else
      throw .corrupt

end

end

end Theyos.NonceLedger

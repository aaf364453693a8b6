import Theyos.Models.Roster.Store.Floor

/-!
# The coordinator of a roster

A coordinator serves one household from one directory, under a lock that all processes share, so
that calls happen one after the other. Each call reads the stored record, takes a floor from the
clock and derives the state again.
-/

namespace Theyos.Roster

open Household Machine

/-- What happened to the chain. -/
inductive ChainEvent where
  /-- A checkpoint led to another state. -/
  | changed (checkpoint : MachineRosterCheckpointV1) (state : AcceptedRosterChainState)
  /-- The record of a state came onto the disk. -/
  | committed (state : AcceptedRosterChainState)
  /-- A call failed. -/
  | raised (e : RosterStoreError)
  deriving DecidableEq, Repr

/-- The chain record on disk, and what happened. -/
structure ChainSide where
  file : Option (List UInt8)
  events : List ChainEvent
  deriving DecidableEq, Repr

/-- Record what happened. -/
def ChainSide.record (s : ChainSide) (e : ChainEvent) : ChainSide :=
  { s with events := s.events ++ [e] }

/-- The directory of a roster. -/
structure Directory where
  clock : ClockSide
  roster : ChainSide

/-- A directory in which nothing happened. -/
def Directory.empty : Directory := ⟨⟨none, fun _ => .new, []⟩, ⟨none, []⟩⟩

/-- Work on the clock. -/
def onClock {ε α : Type} (x : Program ε ClockSide α) : Program ε Directory α :=
  x.zoom Directory.clock fun clock d => { d with clock := clock }

/-- Work on the chain. -/
def onRoster {ε α : Type} (x : Program ε ChainSide α) : Program ε Directory α :=
  x.zoom Directory.roster fun roster d => { d with roster := roster }

/-- A coordinator of a household; its owner's certificate was valid when it was issued. -/
structure Coordinator (L : Library) (hhId : HouseholdId) where
  hhPub : P256PublicKey
  owner : HistoricalOwnerBinding
  ownerCertBytes : List UInt8
  issuedAt : UInt64
  derived : deriveOwnerBindingFromCert L ownerCertBytes hhId hhPub issuedAt = .ok owner

/-- What is shown of a member. -/
structure RosterMemberView where
  mId : MachineId
  mPub : P256PublicKey
  machineCertFingerprint : Digest
  deriving DecidableEq, Repr

/-- What is shown of an accepted state. -/
structure RosterSnapshotView where
  hhId : HouseholdId
  checkpointHash : Digest
  checkpointSequence : UInt64
  checkpointEventHead : Digest
  notAfter : UInt64
  active : List RosterMemberView
  revokedMIds : List MachineId
  deriving DecidableEq, Repr

/-- Show an accepted state. -/
def RosterSnapshotView.project (hhId : HouseholdId) (data : AcceptedRosterData) :
    RosterSnapshotView where
  hhId := hhId
  checkpointHash := data.checkpointHash
  checkpointSequence := data.checkpointSequence
  checkpointEventHead := data.eventHeadHash
  notAfter := data.notAfter
  active := data.active.map fun m => ⟨m.mId, m.mPub, m.machineCertFingerprint⟩
  revokedMIds := data.tombstones.map (·.mId)

/-- A floor that only a coordinator gives out. -/
structure TrustedWallFloor where
  hhId : HouseholdId
  unixSeconds : UInt64
  deriving DecidableEq, Repr

/-- What became of a request for evidence. -/
inductive RosterEvidenceOutcome where
  | available
  | unavailableClockState
  | unavailableOwnerAuthority
  | unavailableCheckpointStale
  deriving DecidableEq, Repr

/-- The stored record and the floor it was read under. -/
structure RosterEvidenceSnapshot where
  record : AcceptedChainRecordV1
  floorSecs : UInt64
  deriving DecidableEq, Repr

/-- The outcome of a request for evidence; forks and an empty chain are evidence too. -/
def RosterEvidenceOutcome.ofCurrency : MachineCurrencyResult → RosterEvidenceOutcome
  | .unavailable .clockStateUnavailable => .unavailableClockState
  | .unavailable .ownerAuthorityUnavailable => .unavailableOwnerAuthority
  | .unavailable .checkpointStale => .unavailableCheckpointStale
  | .unavailable .noGenesis | .unavailable .checkpointForkConflict
  | .unavailable .eventForkConflict | .active _ | .revoked _ | .notListed => .available

namespace Coordinator

variable {L : Library} (F : Formats) {hhId : HouseholdId} (k : Coordinator L hhId)
  (env : Circumstances)

/-- The household of the coordinator. -/
def household : HistoricalHouseholdContext := ⟨hhId, k.hhPub⟩

/-- The fingerprint of the owner's certificate, if it is in force and the one known. -/
def currentOwnerBinding (expectedHistoricalFp : Option Digest) (effectiveNow : UInt64) :
    Option Digest :=
  match deriveOwnerBindingFromCert L k.ownerCertBytes hhId k.hhPub effectiveNow with
  | .error _ => none
  | .ok derived =>
    if derived.pId = k.owner.pId ∧ derived.pPub = k.owner.pPub ∧
        derived.certFingerprint = k.owner.certFingerprint ∧
        ∀ histFp ∈ expectedHistoricalFp, derived.certFingerprint = histFp then
      some derived.certFingerprint
    else none

/-- The context in which a call judges the state. -/
def context (bound : Option Digest) (floor : UInt64) : AdmissionContext where
  authority := ⟨k.hhPub, hhId, k.owner.pId, k.owner.pPub, floor⟩
  clockAvailable := true
  boundOwnerCertFingerprint := bound

/-- Read the chain record. -/
def readChainRecordInner (hhId : HouseholdId) (env : Circumstances) (file : Option (List UInt8)) :
    Except RosterStoreError (Option AcceptedChainRecordV1) :=
  match env.chainFault, file with
  | some fault, _ => .error (fault.toError .readChain .acceptedChain)
  | none, none => .ok none
  | none, some bytes => (decodeAcceptedChain F bytes hhId).map some |>.mapError .integrity

/-- Check a record that was read back. -/
def validateReadback (record : AcceptedChainRecordV1) (expected : AcceptedRosterChainState)
    (readback : List UInt8) : Except RosterStoreError Unit := do
  let decoded ← (decodeAcceptedChain F readback hhId).mapError .integrity
  require (decoded = record) .readbackMismatch
  match decoded.stateKind with
  | .noGenesis => require (expected = .noGenesis) .readbackMismatch
  | .accepted => do
    let genesis ← okOr decoded.genesisCheckpoint .readbackMismatch
    let accepted ← okOr decoded.acceptedCheckpoint .readbackMismatch
    let (rederived, _) ← (rederiveAccepted L F genesis accepted decoded.predecessorCheckpoint
      k.household).mapError .integrity
    require (rederived = expected) .readbackMismatch
  | .checkpointForkConflict | .eventForkConflict => do
    let genesis ← okOr decoded.genesisCheckpoint .readbackMismatch
    let accepted ← okOr decoded.acceptedCheckpoint .readbackMismatch
    let conflicting ← okOr decoded.conflictingCheckpoint .readbackMismatch
    let (rederived, _) ← (rederiveFork L F genesis accepted decoded.predecessorCheckpoint
      conflicting decoded.stateKind k.household).mapError .integrity
    require (rederived = expected) .readbackMismatch

/-- Replace the chain record. -/
def commitChainRecord (record : AcceptedChainRecordV1) (expected : AcceptedRosterChainState) :
    Program RosterStoreError ChainSide Unit := do
  let canonical ← Program.ofExcept ((F.writeChainRecord record).mapError .household)
  strictAtomicReplace (fun bytes s => { s with file := some bytes }.record (.committed expected))
    env.chainFate canonical (k.validateReadback F record expected)

/-- A record without checkpoints. -/
def noGenesisRecord (hhId : HouseholdId) : AcceptedChainRecordV1 :=
  ⟨1, hhId, .noGenesis, none, none, none, none⟩

/-- Set up an empty roster. -/
def provisionNoGenesis : Program RosterStoreError Directory Unit := do
  let d ← get
  let chain ← Program.ofExcept (readChainRecordInner F hhId env d.roster.file)
  Program.require (chain = none) .alreadyInitialized
  match env.floorFault, d.clock.floor with
  | some .io, _ => throw (.io .readClock)
  | some .unsafeFileType, _ => throw .inconsistentProvisioningState
  | none, some _ => throw .inconsistentProvisioningState
  | none, none =>
    onRoster (k.commitChainRecord F env (noGenesisRecord hhId) .noGenesis)

/-- The record after a change of state. -/
def buildChainRecord (hhId : HouseholdId) (old : AcceptedChainRecordV1) (newState : AcceptedRosterChainState)
    (candidateBytes : List UInt8) : AcceptedChainRecordV1 :=
  match newState with
  | .accepted _ =>
    { v := 1, hhId := hhId, stateKind := .accepted
      genesisCheckpoint := old.genesisCheckpoint.or
        (if old.stateKind = .noGenesis then some candidateBytes else none)
      acceptedCheckpoint := some candidateBytes
      predecessorCheckpoint := old.acceptedCheckpoint
      conflictingCheckpoint := none }
  | .checkpointForkConflict .. =>
    { old with
      v := 1, hhId := hhId, stateKind := .checkpointForkConflict
      conflictingCheckpoint := some candidateBytes }
  | .eventForkConflict .. =>
    { old with
      v := 1, hhId := hhId, stateKind := .eventForkConflict
      conflictingCheckpoint := some candidateBytes }
  | .noGenesis => noGenesisRecord hhId

/-- Whether the floor may be started. -/
def missingFloorPolicy (r : AcceptedChainRecordV1) (latch : FloorLatch) : MissingFloorPolicy :=
  if r.stateKind = .noGenesis ∧ latch.failureLatched = false ∧ latch.failedTarget = none then
    .initializeNoGenesis
  else .rejectUnavailable

/-- What every call but the first looks up. -/
structure Observation where
  record : AcceptedChainRecordV1
  floor : UInt64
  state : AcceptedRosterChainState
  bound : Option Digest

/-- Read the record, take a floor and derive the state; nothing if no floor is available. -/
def observe : Program RosterStoreError Directory (Option Observation) := do
  let d ← get
  let chain ← Program.ofExcept (readChainRecordInner F hhId env d.roster.file)
  let chainRec ← Program.ofExcept (okOr chain .notInitialized)
  let policy := missingFloorPolicy chainRec (d.clock.latch env.process)
  let observed ← (onClock (observeWallFloor F hhId env policy)).attempt
  match observed with
  | .error _ => return none
  | .ok floor => do
    let (state, historicalFp) ←
      Program.ofExcept ((rederiveCurrentState L F chainRec k.household).mapError .integrity)
    return some ⟨chainRec, floor, state, k.currentOwnerBinding historicalFp floor⟩

/-- Whether an admission changes the stored state. -/
def isMutating (current returned : AcceptedRosterChainState) (result : CheckpointAdmissionResult) :
    Bool :=
  decide (returned ≠ current) &&
    match result with
    | .accepted | .checkpointForkConflictRecorded | .eventForkConflictRecorded => true
    | _ => false

/-- Raise the floor and replace the record. -/
def store (seen : Observation) (checkpointBytes : List UInt8) (candidate : CanonicalCheckpoint)
    (outcome : AdmissionOutcome) :
    Program RosterStoreError Directory CheckpointAdmissionResult := do
  onRoster (modify fun s => s.record (.changed candidate.inner outcome.1))
  let advanced ← (onClock (advanceFloorTo F hhId env (max seen.floor candidate.inner.issuedAt))).attempt
  match advanced with
  | .error _ => return .rejectedTemporal
  | .ok _ => do
    let newRecord := buildChainRecord hhId seen.record outcome.1 checkpointBytes
    onRoster (k.commitChainRecord F env newRecord outcome.1)
    return outcome.2

/-- Offer a checkpoint to the roster. -/
def admitCheckpoint (checkpointBytes : List UInt8) :
    Program RosterStoreError Directory CheckpointAdmissionResult := do
  let observed ← k.observe F env
  match observed with
  | none => return .rejectedTemporal
  | some seen =>
    if seen.state = .noGenesis ∧ seen.bound = none then return .rejectedOwner
    else
      match CanonicalCheckpoint.fromRaw F checkpointBytes with
      | .error _ => return .rejectedMalformed
      | .ok candidate =>
        let outcome := Roster.admitCheckpoint L candidate seen.state (k.context seen.bound seen.floor)
        if isMutating seen.state outcome.1 outcome.2 then
          k.store F env seen checkpointBytes candidate outcome
        else return outcome.2

/-- Ask whether a machine belongs to the household. -/
def queryMachineCurrency (mId : MachineId) :
    Program RosterStoreError Directory MachineCurrencyResult := do
  let observed ← k.observe F env
  match observed with
  | none => return .unavailable .clockStateUnavailable
  | some seen => return deriveMachineCurrency seen.state mId (k.context seen.bound seen.floor)

/-- Ask for the stored record as evidence. -/
def queryRosterEvidence (signerMId : MachineId) : Program RosterStoreError Directory
    (RosterEvidenceOutcome × Option RosterEvidenceSnapshot) := do
  let observed ← k.observe F env
  match observed with
  | none => return (.unavailableClockState, none)
  | some seen =>
    let result := deriveMachineCurrency seen.state signerMId (k.context seen.bound seen.floor)
    match RosterEvidenceOutcome.ofCurrency result with
    | .available => return (.available, some ⟨seen.record, seen.floor⟩)
    | outcome => return (outcome, none)

/-- Ask for the accepted state and the floor it was read under. -/
def currentSnapshotWithTrustedWallFloor : Program RosterStoreError Directory
    (Except UnavailableReason (RosterSnapshotView × TrustedWallFloor)) := do
  let observed ← k.observe F env
  match observed with
  | none => return .error .clockStateUnavailable
  | some seen =>
    return (admitCurrentAcceptedData seen.state (k.context seen.bound seen.floor)).map fun data =>
      (.project hhId data, ⟨hhId, seen.floor⟩)

end Coordinator

/-- Calls of a coordinator. -/
inductive Call where
  | provision
  | offer (checkpointBytes : List UInt8)
  | currency (mId : MachineId)
  | evidence (signerMId : MachineId)
  | snapshot
  deriving DecidableEq, Repr

section

variable {L : Library} (F : Formats) {hhId : HouseholdId} (ks : ℕ → Coordinator L hhId)

/-- Make a call; only its errors are looked at. -/
def Call.perform (k : Coordinator L hhId) (env : Circumstances) :
    Call → Program RosterStoreError Directory Unit
  | provision => k.provisionNoGenesis F env
  | offer bytes => do let _ ← k.admitCheckpoint F env bytes
  | currency mId => do let _ ← k.queryMachineCurrency F env mId
  | evidence mId => do let _ ← k.queryRosterEvidence F env mId
  | snapshot => do let _ ← k.currentSnapshotWithTrustedWallFloor F env

/-- Make a call in the directory, and record its error. -/
def Directory.step (d : Directory) (op : Circumstances × Call) : Directory :=
  match (op.2.perform F (ks op.1.process) op.1).exec d with
  | (.ok _, d') => d'
  | (.error e, d') => { d' with roster := d'.roster.record (.raised e) }

/-- Make calls one after the other, from an empty directory. -/
def Directory.run (ops : List (Circumstances × Call)) : Directory :=
  ops.foldl (Directory.step F ks) .empty

end

end Theyos.Roster

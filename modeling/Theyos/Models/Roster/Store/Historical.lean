import Theyos.Models.Roster.Store.Record

/-!
# Deriving a stored state again

The state of a chain is not stored; it is derived again from the stored checkpoints, each judged
at the time it was issued.
-/

namespace Theyos.Roster

open Household Machine

/-- Why a checkpoint cannot be applied again. -/
inductive HistoricalBridgeError where
  | crypto (e : RosterCryptoError)
  | projection (e : ProjectionError)
  | admission (result : CheckpointAdmissionResult)
  | temporal
  deriving DecidableEq, Repr

/-- The household a stored chain belongs to. -/
structure HistoricalHouseholdContext where
  hhId : HouseholdId
  hhPub : P256PublicKey
  deriving DecidableEq, Repr

/-- The owner a stored chain belongs to. -/
structure HistoricalOwnerBinding where
  pId : PersonId
  pPub : P256PublicKey
  certFingerprint : Digest
  deriving DecidableEq, Repr

section

/-- What a failed check of a signed object says about the store. -/
def mapCrypto : RosterCryptoError → ChainIntegrityError
  | .cborEncode | .cborDecode | .schemaInvalid => .checkpointDecode
  | .certDecode | .certNotCanonical | .ownerCertInvalid | .weakProvenance
  | .missingCaveatAddMachine | .missingCaveatRevoke => .ownerCertificate
  | .signatureRejected => .checkpointSignature
  | .householdMismatch => .householdMismatch
  | .ownerIdMismatch | .ownerPubMismatch | .fingerprintMismatch => .ownerContinuity
  | .machineCertInvalid | .machineCertNotCanonical | .machineIdMismatch | .machinePubMismatch
  | .machineFingerprintMismatch | .machineHouseholdMismatch => .projection

/-- What a failed admission says about the store. -/
def admitResultToIntegrity : CheckpointAdmissionResult → ChainIntegrityError
  | .rejectedMalformed => .checkpointDecode
  | .rejectedSignature => .checkpointSignature
  | .rejectedOwner => .ownerContinuity
  | .rejectedCaveat => .ownerCertificate
  | .rejectedProjection => .projection
  | .rejectedGap | .rejectedReplay | .rejectedRollback => .sequenceRelation
  | .rejectedTemporal => .temporal
  | .epochMigrationRequired => .epochRelation
  | .accepted | .idempotentDuplicate | .checkpointForkConflictRecorded
  | .eventForkConflictRecorded => .forkReapplyMismatch

/-- What a failed projection says about the store. -/
def mapProjection : ProjectionError → ChainIntegrityError
  | .revocationValidation result => admitResultToIntegrity result
  | _ => .projection

/-- What a checkpoint that cannot be applied again says about the store. -/
def mapBridge : HistoricalBridgeError → ChainIntegrityError
  | .crypto e => mapCrypto e
  | .projection e => mapProjection e
  | .admission result => admitResultToIntegrity result
  | .temporal => .temporal

end

section

variable (L : Library)

/-- The owner named by a certificate in force at a time. -/
def deriveOwnerBindingFromCert (certBytes : List UInt8) (expectedHhId : HouseholdId)
    (hhPub : P256PublicKey) (atTime : UInt64) :
    Except RosterCryptoError HistoricalOwnerBinding := do
  let cert ← decodeOwnerCert L certBytes
  (L.verifyRootedIdentity cert expectedHhId hhPub atTime).mapError fun _ => .ownerCertInvalid
  require (cert.hasStrongOwnerProvenance = true) .weakProvenance
  require (∀ caveat ∈ ownerCaveats, permits cert.caveats caveat.op = true) .ownerCertInvalid
  let fp ← ownerCertFingerprint L cert
  return ⟨cert.pId, cert.pPub, fp⟩

/-- Check a stored checkpoint and every revocation in it. -/
def verifyCheckpointFullHistorical (c : MachineRosterCheckpointV1)
    (ctx : RosterAuthorityContext) : Except RosterCryptoError Unit := do
  verifyCheckpointAuthority L c ctx
  c.revocations.forM fun rev => do
    checkRevocationSchema rev
    require (rev.epoch = c.epoch) .schemaInvalid
    require (rev.hhId = ctx.expectedHhId) .householdMismatch
    verifyRevocationAuthority L rev ctx

/-- Check the times of a stored checkpoint. -/
def checkEnvelope (c : MachineRosterCheckpointV1) : Except HistoricalBridgeError Unit := do
  require ((checkedAdd c.issuedAt maxFutureSkewSecs).isSome = true) .temporal
  require (c.issuedAt ≤ c.notAfter) .temporal
  require (c.notAfter.toNat - c.issuedAt.toNat ≤ maxCheckpointLifetimeSecs) .temporal

/-- Apply the accepted checkpoint on top of its stored predecessor. -/
def historicalReapplyNext (current : CanonicalCheckpoint)
    (predecessorCp : MachineRosterCheckpointV1) (genesisBasis : VerifiedGenesisRoster)
    (predCtx currCtx : AdmissionContext) :
    Except HistoricalBridgeError AcceptedRosterChainState := do
  let currentCp := current.inner
  require (predCtx.authority.effectiveNow = predecessorCp.issuedAt) .temporal
  require (currCtx.authority.effectiveNow = currentCp.issuedAt) .temporal
  require (predCtx.clockAvailable = true ∧ currCtx.clockAvailable = true) .temporal
  require (predCtx.authority.expectedHhId = currCtx.authority.expectedHhId)
    (.crypto .householdMismatch)
  require (predCtx.authority.hhPub = currCtx.authority.hhPub) (.crypto .householdMismatch)
  require (predCtx.authority.expectedPId = currCtx.authority.expectedPId) (.crypto .ownerIdMismatch)
  require (predCtx.authority.expectedPPub = currCtx.authority.expectedPPub)
    (.crypto .ownerPubMismatch)
  let predFp ← okOr predCtx.boundOwnerCertFingerprint (.crypto .fingerprintMismatch)
  let currFp ← okOr currCtx.boundOwnerCertFingerprint (.crypto .fingerprintMismatch)
  require (predFp = currFp) (.crypto .fingerprintMismatch)
  require (predecessorCp.ownerCertFingerprint = predFp) (.crypto .fingerprintMismatch)
  require (currentCp.ownerCertFingerprint = currFp) (.crypto .fingerprintMismatch)
  checkEnvelope predecessorCp
  checkEnvelope currentCp
  require (predecessorCp.epoch = genesisBasis.epoch) (.admission .epochMigrationRequired)
  require (currentCp.epoch = predecessorCp.epoch) (.admission .epochMigrationRequired)
  (verifyCheckpointFullHistorical L predecessorCp predCtx.authority).mapError .crypto
  (verifyCheckpointFullHistorical L currentCp currCtx.authority).mapError .crypto
  let currHash ← (checkpointHash L currentCp).mapError .crypto
  let (_, predTombstones) ←
    (projectFromState L predecessorCp genesisBasis predCtx).mapError .projection
  let predHash ← (checkpointHash L predecessorCp).mapError .crypto
  let input : NextSeqInput := {
    epoch := predecessorCp.epoch
    checkpointSequence := predecessorCp.checkpointSequence
    checkpointHash := predHash
    eventSequence := predecessorCp.eventSequence
    eventHeadHash := predecessorCp.eventHeadHash
    issuedAt := predecessorCp.issuedAt
    genesisBasis := genesisBasis
    tombstones := predTombstones }
  let (state, result) ← (evaluateNextSeq L currentCp currHash input currCtx).mapError .admission
  require (result = .accepted) (.admission result)
  return state

variable (F : Formats)

/-- The context in which a stored checkpoint is judged. -/
def histAdmission (hhCtx : HistoricalHouseholdContext) (binding : HistoricalOwnerBinding)
    (effectiveNow : UInt64) : AdmissionContext where
  authority := ⟨hhCtx.hhPub, hhCtx.hhId, binding.pId, binding.pPub, effectiveNow⟩
  clockAvailable := true
  boundOwnerCertFingerprint := some binding.certFingerprint

/-- Read a stored checkpoint. -/
def readStored (raw : List UInt8) : Except ChainIntegrityError CanonicalCheckpoint :=
  (CanonicalCheckpoint.fromRaw F raw).mapError admitResultToIntegrity

/-- Derive the accepted state from its stored checkpoints. -/
def rederiveAccepted (genesisBytes acceptedBytes : List UInt8)
    (predecessorBytes : Option (List UInt8)) (hhCtx : HistoricalHouseholdContext) :
    Except ChainIntegrityError (AcceptedRosterChainState × HistoricalOwnerBinding) := do
  let genesis ← readStored F genesisBytes
  let binding ← (deriveOwnerBindingFromCert L genesis.inner.ownerPersonCert hhCtx.hhId hhCtx.hhPub
    genesis.inner.issuedAt).mapError mapCrypto
  require (genesis.inner.ownerPId = binding.pId) .ownerContinuity
  require (genesis.inner.ownerCertFingerprint = binding.certFingerprint) .ownerContinuity
  let (genesisState, genesisResult) := admitCheckpoint L genesis .noGenesis
    (histAdmission hhCtx binding genesis.inner.issuedAt)
  require (genesisResult = .accepted) (admitResultToIntegrity genesisResult)
  let accepted ← readStored F acceptedBytes
  if accepted.inner.checkpointSequence = 1 then do
    require (predecessorBytes = none) .invalidStateKeySet
    require (acceptedBytes = genesisBytes) .hashRelation
    return (genesisState, binding)
  else do
    let predBytes ← okOr predecessorBytes .invalidStateKeySet
    let pred ← readStored F predBytes
    let expectedPredSeq ← okOr (checkedSub accepted.inner.checkpointSequence 1) .sequenceRelation
    require (pred.inner.checkpointSequence = expectedPredSeq) .sequenceRelation
    match genesisState with
    | .accepted genesisData =>
      let currCtx := histAdmission hhCtx binding accepted.inner.issuedAt
      if pred.inner.checkpointSequence = 1 then do
        require (predBytes = genesisBytes) .hashRelation
        (verifyCheckpointFullHistorical L accepted.inner currCtx.authority).mapError mapCrypto
        let (finalState, result) := admitCheckpoint L accepted (.accepted genesisData) currCtx
        require (result = .accepted) (admitResultToIntegrity result)
        return (finalState, binding)
      else do
        let predCtx := histAdmission hhCtx binding pred.inner.issuedAt
        let finalState ← (historicalReapplyNext L accepted pred.inner genesisData.genesisBasis
          predCtx currCtx).mapError mapBridge
        return (finalState, binding)
    | _ => .error .checkpointDecode

/-- Whether a fork state is of the kind stored. -/
def forkMatches : ChainStateKind → AdmissionOutcome → Bool
  | .checkpointForkConflict, (.checkpointForkConflict .., .checkpointForkConflictRecorded) => true
  | .eventForkConflict, (.eventForkConflict .., .eventForkConflictRecorded) => true
  | _, _ => false

/-- Derive a fork from the accepted state and the conflicting checkpoint. -/
def rederiveFork (genesisBytes acceptedBytes : List UInt8)
    (predecessorBytes : Option (List UInt8)) (conflictingBytes : List UInt8)
    (expectedKind : ChainStateKind) (hhCtx : HistoricalHouseholdContext) :
    Except ChainIntegrityError (AcceptedRosterChainState × HistoricalOwnerBinding) := do
  require (expectedKind = .checkpointForkConflict ∨ expectedKind = .eventForkConflict)
    .invalidStateKeySet
  let (acceptedState, binding) ← rederiveAccepted L F genesisBytes acceptedBytes predecessorBytes
    hhCtx
  let conflicting ← readStored F conflictingBytes
  let currCtx := histAdmission hhCtx binding conflicting.inner.issuedAt
  (verifyCheckpointFullHistorical L conflicting.inner currCtx.authority).mapError mapCrypto
  let outcome := admitCheckpoint L conflicting acceptedState currCtx
  require (forkMatches expectedKind outcome = true) .forkReapplyMismatch
  return (outcome.1, binding)

/-- Derive the state of a stored record, and the fingerprint of its owner's certificate. -/
def rederiveCurrentState (r : AcceptedChainRecordV1) (hhCtx : HistoricalHouseholdContext) :
    Except ChainIntegrityError (AcceptedRosterChainState × Option Digest) :=
  match r.stateKind with
  | .noGenesis => .ok (.noGenesis, none)
  | .accepted => do
    let genesis ← okOr r.genesisCheckpoint .checkpointDecode
    let accepted ← okOr r.acceptedCheckpoint .checkpointDecode
    let (state, binding) ← rederiveAccepted L F genesis accepted r.predecessorCheckpoint hhCtx
    return (state, some binding.certFingerprint)
  | .checkpointForkConflict | .eventForkConflict => do
    let genesis ← okOr r.genesisCheckpoint .checkpointDecode
    let accepted ← okOr r.acceptedCheckpoint .checkpointDecode
    let conflicting ← okOr r.conflictingCheckpoint .checkpointDecode
    let (state, binding) ← rederiveFork L F genesis accepted r.predecessorCheckpoint conflicting
      r.stateKind hhCtx
    return (state, some binding.certFingerprint)

end

end Theyos.Roster

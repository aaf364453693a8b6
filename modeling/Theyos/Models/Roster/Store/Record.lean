import Theyos.Models.Roster.Admission

/-!
# Roster files

The two files of a household's roster: the floor of its clock, and the record of its accepted
chain, which holds the checkpoints themselves as evidence. Both are written canonically and read
back strictly.
-/

namespace Theyos.Roster

open Household Machine

/-- Why a roster file is refused. -/
inductive ChainIntegrityError where
  | nonCanonicalRecord
  | duplicateKey
  | unknownField
  | nullField
  | versionMismatch
  | householdMismatch
  | invalidStateKeySet
  | checkpointDecode
  | checkpointSignature
  | ownerCertificate
  | ownerContinuity
  | sequenceRelation
  | hashRelation
  | projection
  | forkReapplyMismatch
  | temporal
  | epochRelation
  deriving DecidableEq, Repr

/-- What a stored chain record says the state is. -/
inductive ChainStateKind where
  | noGenesis
  | accepted
  | checkpointForkConflict
  | eventForkConflict
  deriving DecidableEq, Repr

/-- The stored floor of the clock. -/
structure ClockFloorRecordV1 where
  v : UInt8
  hhId : HouseholdId
  floorSecs : UInt64
  deriving DecidableEq, Repr

/-- The stored evidence of a chain. -/
structure AcceptedChainRecordV1 where
  v : UInt8
  hhId : HouseholdId
  stateKind : ChainStateKind
  genesisCheckpoint : Option (List UInt8)
  acceptedCheckpoint : Option (List UInt8)
  predecessorCheckpoint : Option (List UInt8)
  conflictingCheckpoint : Option (List UInt8)
  deriving DecidableEq, Repr

/-- The readers and writers of the roster's files and checkpoints. -/
structure Formats where
  /-- The lenient reader of a checkpoint. -/
  readCheckpoint : List UInt8 → Except HouseholdError MachineRosterCheckpointV1
  writeClockFloor : ClockFloorRecordV1 → Except HouseholdError (List UInt8)
  /-- The check of the closed map and the derived reader. -/
  readClockFloor : List UInt8 → Except ChainIntegrityError ClockFloorRecordV1
  writeChainRecord : AcceptedChainRecordV1 → Except HouseholdError (List UInt8)
  /-- The check of the closed map and the derived reader. -/
  readChainRecord : List UInt8 → Except ChainIntegrityError AcceptedChainRecordV1

section

variable (F : Formats)

/-- Read a checkpoint from its canonical bytes. -/
def CanonicalCheckpoint.fromRaw (raw : List UInt8) :
    Except CheckpointAdmissionResult CanonicalCheckpoint := do
  let decoded ← (F.readCheckpoint raw).mapError fun _ => .rejectedMalformed
  let reencoded ← okOr (Schema.checkpoint.toCanonicalVec decoded) .rejectedMalformed
  require (reencoded = raw) .rejectedMalformed
  if schema : decoded.v = 1 ∧ decoded.kind = checkpointKind then
    .ok ⟨decoded, schema⟩
  else .error .rejectedMalformed

/-- Read the floor of a household's clock. -/
def decodeClockFloor (bytes : List UInt8) (expectedHhId : HouseholdId) :
    Except ChainIntegrityError ClockFloorRecordV1 := do
  let rec' ← F.readClockFloor bytes
  let reencoded ← (F.writeClockFloor rec').mapError fun _ => .nonCanonicalRecord
  require (reencoded = bytes) .nonCanonicalRecord
  require (rec'.v = 1) .versionMismatch
  require (rec'.hhId = expectedHhId) .householdMismatch
  return rec'

/-- The number of the checkpoint stored as some bytes. -/
def storedSequence (bytes : Option (List UInt8)) : Except ChainIntegrityError UInt64 := do
  let raw ← okOr bytes .checkpointDecode
  let checkpoint ← (F.readCheckpoint raw).mapError fun _ => .checkpointDecode
  return checkpoint.checkpointSequence

/-- A predecessor is stored exactly for a checkpoint after the first. -/
def checkPredecessor (sequence : UInt64) (predecessor : Option (List UInt8)) :
    Except ChainIntegrityError Unit := do
  require (1 < sequence → predecessor.isSome = true) .invalidStateKeySet
  require (sequence = 1 → predecessor = none) .invalidStateKeySet

/-- Check that a record holds the checkpoints its kind needs. -/
def checkKeySet (r : AcceptedChainRecordV1) : Except ChainIntegrityError Unit :=
  match r.stateKind with
  | .noGenesis =>
    require (r.genesisCheckpoint = none ∧ r.acceptedCheckpoint = none ∧
      r.predecessorCheckpoint = none ∧ r.conflictingCheckpoint = none) .invalidStateKeySet
  | .accepted => do
    require (r.genesisCheckpoint.isSome = true ∧ r.acceptedCheckpoint.isSome = true)
      .invalidStateKeySet
    require (r.conflictingCheckpoint = none) .invalidStateKeySet
    let sequence ← storedSequence F r.acceptedCheckpoint
    checkPredecessor sequence r.predecessorCheckpoint
  | .checkpointForkConflict => do
    require (r.genesisCheckpoint.isSome = true ∧ r.acceptedCheckpoint.isSome = true ∧
      r.conflictingCheckpoint.isSome = true) .invalidStateKeySet
    let sequence ← storedSequence F r.acceptedCheckpoint
    let conflicting ← storedSequence F r.conflictingCheckpoint
    require (sequence = conflicting) .sequenceRelation
    checkPredecessor sequence r.predecessorCheckpoint
  | .eventForkConflict => do
    require (r.genesisCheckpoint.isSome = true ∧ r.acceptedCheckpoint.isSome = true ∧
      r.conflictingCheckpoint.isSome = true) .invalidStateKeySet
    let sequence ← storedSequence F r.acceptedCheckpoint
    checkPredecessor sequence r.predecessorCheckpoint

/-- What a household wrote is read back, a chain record if it holds what its kind needs, and no
two chain records are written alike. -/
structure Formats.Lawful (hhId : HouseholdId) : Prop where
  clockFloor : ∀ {r bytes}, r.hhId = hhId → F.writeClockFloor r = .ok bytes →
    F.readClockFloor bytes = .ok r
  chainRecord : ∀ {r bytes}, r.hhId = hhId → r.v = 1 → checkKeySet F r = .ok () →
    F.writeChainRecord r = .ok bytes → F.readChainRecord bytes = .ok r
  chainRecord_inj : ∀ {r r' bytes}, r.hhId = hhId → r'.hhId = hhId →
    F.writeChainRecord r = .ok bytes → F.writeChainRecord r' = .ok bytes → r = r'

/-- Read the chain record of a household. -/
def decodeAcceptedChain (bytes : List UInt8) (expectedHhId : HouseholdId) :
    Except ChainIntegrityError AcceptedChainRecordV1 := do
  let rec' ← F.readChainRecord bytes
  require (rec'.v = 1) .versionMismatch
  checkKeySet F rec'
  let reencoded ← (F.writeChainRecord rec').mapError fun _ => .nonCanonicalRecord
  require (reencoded = bytes) .nonCanonicalRecord
  require (rec'.hhId = expectedHhId) .householdMismatch
  return rec'

end

variable {F : Formats}

/-- Bytes are read as a chain record only if they are its canonical bytes. -/
theorem decodeAcceptedChain_eq_ok {bytes : List UInt8} {hhId : HouseholdId}
    {r : AcceptedChainRecordV1} (h : decodeAcceptedChain F bytes hhId = .ok r) :
    F.writeChainRecord r = .ok bytes ∧ r.hhId = hhId := by
  simp only [decodeAcceptedChain, eq_ok_iff] at h
  obtain ⟨_, -, -, -, _, hwrite, rfl, hhh, rfl⟩ := h
  exact ⟨hwrite, hhh⟩

/-- A checkpoint read from canonical bytes is the one the lenient reader sees. -/
theorem CanonicalCheckpoint.fromRaw_eq_ok {raw : List UInt8} {c : CanonicalCheckpoint}
    (h : fromRaw F raw = .ok c) : F.readCheckpoint raw = .ok c.inner := by
  simp only [fromRaw, eq_ok_iff] at h
  obtain ⟨decoded, hdecoded, _, -, -, hc⟩ := h
  split at hc
  · cases hc
    exact hdecoded
  · cases hc

end Theyos.Roster

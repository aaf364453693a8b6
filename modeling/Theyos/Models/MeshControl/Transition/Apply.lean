import Theyos.Core.Machine.Guard
import Theyos.Models.MeshControl.Record.Invariant

/-!
# Record transitions

The typed transitions of the control record. Every arm reads the old record, exits
at its first failing guard, and bumps the revision last. `apply` first answers
replays of recorded terminal requests, then runs the arm, then checks what every
transition must respect.
-/

namespace Theyos.MeshControl

open Machine MeshSignerControlRecordV1

/-- Why a transition was refused. -/
inductive TransitionError where
  | revisionExhausted
  | epochExhausted
  | generationExhausted
  | pendingAlreadyExists
  | noPendingOp
  | wrongPhase
  | missingBinding
  | notRevoked
  | noSuchGcEntry
  | gcNotResolved
  | identityPurposeChanged
  | retainedGenerationMutated
  | removesCurrent
  | highWaterDecreased
  | epochHighWaterDecreased
  | staleWorkerToken
  | capExceeded
  | terminal (cause : TerminalPushError)
  | noSuchGeneration
  | generationNotExpired
  | noSuchTerminalResult
  | duplicateGcSlot
  | invalidIntentForAuthority
  | terminalTxnReused
  | bindingSlotMismatch
  | slotCollidesWithPendingGc
  deriving DecidableEq, Repr

/-- The record after a transition, or why it was refused. -/
abbrev TransitionResult : Type := Except TransitionError MeshSignerControlRecordV1

/-- Which live generations a transition may drop. -/
inductive AllowedRemoval where
  | none
  | one (generation : NonZeroU64)
  | allLive
  deriving DecidableEq, Repr

/-- What a worker states about the operation it believes to be in flight. -/
structure WorkerToken where
  expectedTxnId : TxnId
  expectedKind : PendingOpKind
  expectedGeneration : NonZeroU64
  expectedEpoch : NonZeroU64
  expectedPurpose : PurposeId
  expectedSlotId : String
  expectedRevision : UInt64
  deriving DecidableEq, Repr

/-- The token of a worker that read the operation `p`. -/
def PendingOp.token (H : Hashes) (p : PendingOp) (revision : UInt64) : WorkerToken where
  expectedTxnId := p.txnId
  expectedKind := p.kind
  expectedGeneration := p.generation
  expectedEpoch := p.epoch
  expectedPurpose := p.purpose
  expectedSlotId := p.canonicalSlot.canonicalId H
  expectedRevision := revision

/-- The typed transitions. -/
inductive RecordTransition where
  | intentRecorded (txnId : TxnId) (kind : PendingOpKind) (backend : BackendKind)
  | keyObserved (token : WorkerToken) (binding : ExactBinding)
  | activateFromKeyObserved (token : WorkerToken) (delegation : Delegation)
  | revokeUrgent (reason : RevocationReason) (txnId : TxnId)
  | reactivateFromRevoked (txnId nextTxnId : TxnId) (backend : BackendKind)
  | generationExpired (generation : NonZeroU64)
  | gcInspected (slotId : String) (found : Option ExactBinding)
  | gcInspectionConflict (slotId : String)
  | gcResolved (slotId : String) (residualZero quarantine : Bool)
  | gcRemoval (slotId : String) (txnId : TxnId)
  | terminalAcked (txnId : TxnId)
  | stabilizationRewrite
  deriving DecidableEq, Repr

/-- Only urgent revocation and expiry may drop live generations. -/
def RecordTransition.allowedRemoval : RecordTransition → AllowedRemoval
  | .revokeUrgent _ _ => .allLive
  | .generationExpired generation => .one generation
  | _ => .none

/-- The transaction and request under which a terminal transition is recorded. -/
def RecordTransition.terminalRequest :
    RecordTransition → Option (TxnId × TerminalRequestFingerprint)
  | .revokeUrgent reason txnId => some (txnId, .revoke reason)
  | .reactivateFromRevoked txnId nextTxnId backend => some (txnId, .reactivate nextTxnId backend)
  | .activateFromKeyObserved token delegation =>
    some (token.expectedTxnId, .activate token.expectedGeneration delegation)
  | _ => none

section

variable (H : Hashes) (old : MeshSignerControlRecordV1)

variable (t : RecordTransition) (slotId : String) (new : MeshSignerControlRecordV1)
    (allowed : AllowedRemoval)

/-- Advance the revision by exactly one. -/
def bumpRevision : TransitionResult := do
  let revision ← okOr (checkedAdd old.revision 1) .revisionExhausted
  pure { new with revision := revision }

/-- The next generation: the first one of a pristine record, otherwise above the high-water mark. -/
def deriveNextGeneration : Except TransitionError NonZeroU64 :=
  match old.authority with
  | .empty => .ok .one
  | _ => okOr (old.generationHighWater.checkedAdd 1) .generationExhausted

/-- Whether a slot shares its name with an entry that is not resolved yet. -/
def slotCollidesWithUnresolvedGc (slot : SlotId) : Bool :=
  old.gcPending.any fun e =>
    e.slot.canonicalId H == slot.canonicalId H && !e.observationCompleteAndResidualZero

/-- Whether the operation in flight is the one the token names. -/
def pendingMatchesToken (p : PendingOp) (token : WorkerToken) : Bool :=
  p.txnId == token.expectedTxnId && p.kind == token.expectedKind &&
    p.generation == token.expectedGeneration && p.epoch == token.expectedEpoch &&
    p.purpose == token.expectedPurpose && p.canonicalSlot.canonicalId H == token.expectedSlotId

/-- A new operation at the derived slot of its generation. -/
def newPendingOp (txnId : TxnId) (kind : PendingOpKind) (generation epoch : NonZeroU64)
    (backend : BackendKind) : PendingOp where
  txnId := txnId
  kind := kind
  generation := generation
  epoch := epoch
  purpose := old.purpose
  backend := backend
  canonicalSlot := old.derivedSlot H generation txnId backend
  phase := .intent
  binding := none

/-- A new result, not yet acknowledged. -/
def unackedResult (txnId : TxnId) (outcome : TerminalOutcome) (request : TerminalRequestFingerprint)
    (now : UInt64) : TerminalResult where
  txnId := txnId
  outcome := outcome
  request := request
  recordedAt := now
  acked := false

/-- The generation an activation adds. -/
def activatedGeneration (p : PendingOp) (delegation : Delegation) (binding : ExactBinding) :
    GenerationRecord where
  generation := p.generation
  delegation := delegation
  binding := binding
  notAfter := delegation.notAfter

/-- The two pairs under which an intent may be recorded. -/
def validIntent : Authority → PendingOpKind → Bool
  | .empty, .create => true
  | .active, .routineRotate => true
  | _, _ => false

/-- Whether the authority is revoked, for whatever reason. -/
def Authority.isRevoked : Authority → Bool
  | .revoked _ => true
  | _ => false

/-- Record the intent to create or rotate a key. -/
def applyIntentRecorded (txnId : TxnId) (kind : PendingOpKind) (backend : BackendKind) :
    TransitionResult := do
  require (old.pendingOp.isNone = true) .pendingAlreadyExists
  require (∀ r ∈ old.recentTerminalResults, r.txnId ≠ txnId) .terminalTxnReused
  require (validIntent old.authority kind = true) .invalidIntentForAuthority
  let generation ← deriveNextGeneration old
  require (slotCollidesWithUnresolvedGc H old (old.derivedSlot H generation txnId backend) = false)
    .slotCollidesWithPendingGc
  bumpRevision old { old with
    generationHighWater := generation
    pendingOp := some (newPendingOp H old txnId kind generation old.epochHighWater backend) }

/-- Record the binding of the key observed at the slot of the operation in flight. -/
def applyKeyObserved (token : WorkerToken) (binding : ExactBinding) : TransitionResult := do
  require (old.revision = token.expectedRevision) .staleWorkerToken
  let p ← okOr old.pendingOp .noPendingOp
  require (p.phase = .intent) .wrongPhase
  require (pendingMatchesToken H p token = true) .staleWorkerToken
  require (binding.slot = p.canonicalSlot) .bindingSlotMismatch
  bumpRevision old { old with
    pendingOp := some { p with phase := .keyObserved, binding := some binding } }

/-- Activate the generation of the operation in flight. -/
def applyActivateFromKeyObserved (token : WorkerToken) (delegation : Delegation) (now : UInt64) :
    TransitionResult := do
  require (old.revision = token.expectedRevision) .staleWorkerToken
  let p ← okOr old.pendingOp .noPendingOp
  require (p.phase = .keyObserved) .wrongPhase
  require (pendingMatchesToken H p token = true) .staleWorkerToken
  let binding ← okOr p.binding .missingBinding
  let results ← (pushBoundedTerminal old.recentTerminalResults (unackedResult p.txnId
    (.activated p.generation) (.activate p.generation delegation) now)).mapError .terminal
  bumpRevision old { old with
    liveGenerations := old.liveGenerations ++ [activatedGeneration p delegation binding]
    currentGeneration := some p.generation
    authority := .active
    pendingOp := none
    recentTerminalResults := results
    generationHighWater :=
      if old.generationHighWater < p.generation then p.generation else old.generationHighWater }

/-- The entry under which the operation in flight is retired. -/
def PendingOp.gcEntry (p : PendingOp) : GcEntry :=
  match p.binding with
  | none => .awaitingInspection p.canonicalSlot p.txnId
  | some b => .bound p.canonicalSlot p.txnId b .pending

/-- The entry under which a live generation is retired. -/
def GenerationRecord.gcEntry (g : GenerationRecord) : GcEntry :=
  .bound g.binding.slot g.binding.slot.txnId g.binding .pending

/-- Revoke at once: everything in use or in flight is queued for collection. -/
def applyRevokeUrgent (reason : RevocationReason) (txnId : TxnId) (now : UInt64) :
    TransitionResult := do
  let epoch ← okOr (old.epochHighWater.checkedAdd 1) .epochExhausted
  let results ← (pushBoundedTerminalUrgent old.recentTerminalResults
    (unackedResult txnId (.revoked epoch) (.revoke reason) now)).mapError .terminal
  bumpRevision old { old with
    epochHighWater := epoch
    authority := .revoked reason
    gcPending := old.gcPending ++ old.pendingOp.toList.map PendingOp.gcEntry ++
      old.liveGenerations.map GenerationRecord.gcEntry
    pendingOp := none
    liveGenerations := []
    currentGeneration := none
    recentTerminalResults := results }

/-- Start over from a revoked record, under a new epoch and generation. -/
def applyReactivateFromRevoked (txnId nextTxnId : TxnId) (backend : BackendKind) (now : UInt64) :
    TransitionResult := do
  require (old.authority.isRevoked = true) .notRevoked
  require (old.pendingOp.isNone = true) .pendingAlreadyExists
  require (∀ r ∈ old.recentTerminalResults, r.txnId ≠ nextTxnId) .terminalTxnReused
  let epoch ← okOr (old.epochHighWater.checkedAdd 1) .epochExhausted
  let generation ← deriveNextGeneration old
  require
    (slotCollidesWithUnresolvedGc H old (old.derivedSlot H generation nextTxnId backend) = false)
    .slotCollidesWithPendingGc
  let results ← (pushBoundedTerminal old.recentTerminalResults (unackedResult txnId
    (.reactivated epoch) (.reactivate nextTxnId backend) now)).mapError .terminal
  bumpRevision old { old with
    epochHighWater := epoch
    generationHighWater := generation
    pendingOp := some (newPendingOp H old nextTxnId .reactivate generation epoch backend)
    recentTerminalResults := results }

/-- Retire a live generation that has reached its end and is not current. -/
def applyGenerationExpired (generation : NonZeroU64) (now : UInt64) : TransitionResult := do
  require (old.currentGeneration ≠ some generation) .removesCurrent
  let g ← okOr (old.liveGenerations.find? (·.generation == generation)) .noSuchGeneration
  require (¬ now < g.notAfter) .generationNotExpired
  bumpRevision old { old with
    gcPending := old.gcPending ++ [g.gcEntry]
    liveGenerations := old.liveGenerations.filter (·.generation ≠ generation) }

/-- What an inspection makes of an entry that has no binding yet. -/
def GcEntry.inspected (found : Option ExactBinding) : GcEntry → Except TransitionError GcEntry
  | .awaitingInspection slot txnId =>
    match found with
    | none => .ok (.absentUnconfirmed slot txnId)
    | some b => .ok (.bound slot txnId b .pending)
  | .absentUnconfirmed slot txnId =>
    match found with
    | none => .ok (.absent slot txnId)
    | some b => .ok (.bound slot txnId b .pending)
  | .bound _ _ _ _ | .absent _ _ | .inspectionConflict _ _ => .error .wrongPhase

/-- An inspection that could not identify what is at the slot. -/
def GcEntry.conflicted : GcEntry → Except TransitionError GcEntry
  | .awaitingInspection slot txnId | .absentUnconfirmed slot txnId =>
    .ok (.inspectionConflict slot txnId)
  | .bound _ _ _ _ | .absent _ _ | .inspectionConflict _ _ => .error .wrongPhase

/-- What a destruction attempt makes of a bound entry that is not quarantined. -/
def GcEntry.resolved (residualZero quarantine : Bool) : GcEntry → Except TransitionError GcEntry
  | .bound _ _ _ .quarantine => .error .wrongPhase
  | .bound slot txnId binding _ =>
    .ok (.bound slot txnId binding
      (if quarantine then .quarantine else if residualZero then .done else .pending))
  | .awaitingInspection _ _ | .absentUnconfirmed _ _ | .absent _ _ | .inspectionConflict _ _ =>
    .error .wrongPhase

/-- Rewrite the first entry with the given slot name. -/
def applyToGcEntry (f : GcEntry → Except TransitionError GcEntry) : TransitionResult := do
  let entries ← updateFirst (·.slot.canonicalId H == slotId) f .noSuchGcEntry old.gcPending
  bumpRevision old { old with gcPending := entries }

/-- Record the outcome of an inspection. -/
def applyGcInspected (found : Option ExactBinding) : TransitionResult :=
  applyToGcEntry H old slotId (GcEntry.inspected found)

/-- Record an inconclusive inspection. -/
def applyGcInspectionConflict : TransitionResult :=
  applyToGcEntry H old slotId GcEntry.conflicted

/-- Record the outcome of a destruction attempt. -/
def applyGcResolved (residualZero quarantine : Bool) : TransitionResult :=
  applyToGcEntry H old slotId (GcEntry.resolved residualZero quarantine)

/-- Whether an entry is the one a removal names. -/
def GcEntry.isNamed (txnId : TxnId) (e : GcEntry) : Bool :=
  e.slot.canonicalId H == slotId && e.txnId == txnId

/-- Drop a resolved entry. -/
def applyGcRemoval (txnId : TxnId) : TransitionResult := do
  let entry ← okOr (old.gcPending.find? (GcEntry.isNamed H slotId txnId)) .noSuchGcEntry
  require (entry.observationCompleteAndResidualZero = true) .gcNotResolved
  bumpRevision old { old with
    gcPending := old.gcPending.filter fun e => !e.isNamed H slotId txnId }

/-- Acknowledge a recorded terminal result. -/
def applyTerminalAcked (txnId : TxnId) : TransitionResult := do
  require (∃ r ∈ old.recentTerminalResults, r.txnId = txnId) .noSuchTerminalResult
  bumpRevision old { old with
    recentTerminalResults := ackTerminal old.recentTerminalResults txnId }

/-- The record a transition constructs, before the shared checks. -/
def applyArm (now : UInt64) : TransitionResult :=
  match t with
  | .stabilizationRewrite => .ok old
  | .intentRecorded txnId kind backend => applyIntentRecorded H old txnId kind backend
  | .keyObserved token binding => applyKeyObserved H old token binding
  | .activateFromKeyObserved token delegation =>
    applyActivateFromKeyObserved H old token delegation now
  | .revokeUrgent reason txnId => applyRevokeUrgent old reason txnId now
  | .reactivateFromRevoked txnId nextTxnId backend =>
    applyReactivateFromRevoked H old txnId nextTxnId backend now
  | .generationExpired generation => applyGenerationExpired old generation now
  | .gcInspected slotId found => applyGcInspected H old slotId found
  | .gcInspectionConflict slotId => applyGcInspectionConflict H old slotId
  | .gcResolved slotId residualZero quarantine =>
    applyGcResolved H old slotId residualZero quarantine
  | .gcRemoval slotId txnId => applyGcRemoval H old slotId txnId
  | .terminalAcked txnId => applyTerminalAcked old txnId

/-- The answer to a terminal request that was recorded before, if it was. -/
def idempotentReplay :
    Option TransitionResult := do
  let (txnId, candidate) ← t.terminalRequest
  let existing ← old.recentTerminalResults.find? (·.txnId == txnId)
  if existing.request = candidate then pure (.ok old) else pure (.error .terminalTxnReused)

/-- Whether a transition may drop a generation of this number. -/
def AllowedRemoval.permits : AllowedRemoval → NonZeroU64 → Bool
  | .none, _ => false
  | .one allowed, generation => allowed == generation
  | .allLive, _ => true

/-- Whether a live generation is kept unchanged or dropped by permission. -/
def retainedOrPermitted (g : GenerationRecord) : Bool :=
  if new.liveGenerations.contains g then true
  else if new.liveGenerations.any (·.generation == g.generation) then false
  else allowed.permits g.generation

/-- Whether the current generation is still live or was revoked with all others. -/
def currentRetained : Bool :=
  match old.currentGeneration with
  | none => true
  | some cur =>
    if new.liveGenerations.any (·.generation == cur) then true
    else decide (allowed = .allLive) && new.currentGeneration.isNone

/-- What every transition must respect, checked on the record it constructed. -/
def validateSharedInvariants
    (maxCap : ℕ) : Except TransitionError Unit := do
  require (new.identity = old.identity ∧ new.purpose = old.purpose) .identityPurposeChanged
  require (∀ g ∈ old.liveGenerations, retainedOrPermitted new allowed g = true)
    .retainedGenerationMutated
  require (currentRetained old new allowed = true) .removesCurrent
  require (¬ new.generationHighWater < old.generationHighWater) .highWaterDecreased
  require (¬ new.epochHighWater < old.epochHighWater) .epochHighWaterDecreased
  require (new.gcPending.map (·.slot.canonicalId H)).Nodup .duplicateGcSlot
  require (¬ (maxCap < new.capOccupancy ∧ old.capOccupancy < new.capOccupancy)) .capExceeded

/-- Apply a transition at time `now` under an injected occupancy cap. -/
def apply (now : UInt64) (maxCap : ℕ) : TransitionResult :=
  match idempotentReplay old t with
  | some result => result
  | none => do
    let new ← applyArm H old t now
    validateSharedInvariants H old new t.allowedRemoval maxCap
    pure new

end

end Theyos.MeshControl

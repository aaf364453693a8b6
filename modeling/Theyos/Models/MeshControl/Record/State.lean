import Theyos.Core.Word.Checked

/-!
# The signer control record

The single record of one `(identity, purpose)` pair: its counters, its authority, the live
generations with their delegations and bindings, the operation in flight, the slots awaiting
garbage collection, and the bounded list of recent terminal results.
-/

namespace Theyos.MeshControl

/-- Release channel of an identity. -/
inductive Channel where
  | dev
  | release
  deriving DecidableEq, Repr

/-- What a record's keys are for. -/
inductive PurposeId where
  | meshSession
  | rosterSync
  deriving DecidableEq, Repr

/-- The physical backend holding a key. -/
inductive BackendKind where
  | secureEnclave
  | tpmSealedSoftware
  | file
  deriving DecidableEq, Repr

/-- Why an urgent revocation was requested. -/
inductive RevocationReason where
  | compromised
  | lost
  | ownerAction
  | machineRevoked
  deriving DecidableEq, Repr

/-- Whether the record may sign. -/
inductive Authority where
  | empty
  | active
  | revoked (reason : RevocationReason)
  deriving DecidableEq, Repr

/-- Progress of the operation in flight. -/
inductive PendingPhase where
  | intent
  | keyObserved
  deriving DecidableEq, Repr

/-- How the operation in flight was started. -/
inductive PendingOpKind where
  | create
  | routineRotate
  | reactivate
  deriving DecidableEq, Repr

/-- Destruction progress of a bound garbage-collection entry. -/
inductive GcState where
  | pending
  | done
  | residual
  | quarantine
  deriving DecidableEq, Repr

/-- A 256-bit digest. -/
abbrev Digest := Vector UInt8 32

/-- A 128-bit transaction identifier. -/
abbrev TxnId := Vector UInt8 16

/-- The household machine whose keys a record controls. -/
structure ControlIdentity where
  hhId : String
  machineId : String
  channel : Channel
  deriving DecidableEq, Repr

/-- The coordinates of one physical key. -/
structure SlotId where
  identityDigest : Digest
  purpose : PurposeId
  generation : NonZeroU64
  txnId : TxnId
  backendInstance : BackendKind
  deriving DecidableEq, Repr

/-- The public half of the key observed at a slot. -/
structure ExactBinding where
  slot : SlotId
  publicKey : List UInt8
  attributes : List UInt8
  deriving DecidableEq, Repr

/-- The operation in flight. -/
structure PendingOp where
  txnId : TxnId
  kind : PendingOpKind
  generation : NonZeroU64
  /-- The epoch at which the operation was created. -/
  epoch : NonZeroU64
  purpose : PurposeId
  backend : BackendKind
  canonicalSlot : SlotId
  phase : PendingPhase
  /-- Present once the key has been observed. -/
  binding : Option ExactBinding
  deriving DecidableEq, Repr

/-- The delegation under which a generation signs. -/
structure Delegation where
  version : UInt64
  kind : String
  domain : String
  hhId : String
  delegatorMId : String
  delegatorCertFingerprint : Digest
  delegatedPub : List UInt8
  delegatedKeyId : String
  profile : String
  transcriptKinds : List String
  roles : List String
  channel : Channel
  serial : UInt64
  notBefore : UInt64
  notAfter : UInt64
  sig : List UInt8
  deriving DecidableEq, Repr

/-- A generation that may sign until its `notAfter`. -/
structure GenerationRecord where
  generation : NonZeroU64
  delegation : Delegation
  binding : ExactBinding
  notAfter : UInt64
  deriving DecidableEq, Repr

/-- A slot awaiting garbage collection. -/
inductive GcEntry where
  | awaitingInspection (slot : SlotId) (txnId : TxnId)
  | absentUnconfirmed (slot : SlotId) (txnId : TxnId)
  | bound (slot : SlotId) (txnId : TxnId) (binding : ExactBinding) (state : GcState)
  | absent (slot : SlotId) (txnId : TxnId)
  | inspectionConflict (slot : SlotId) (txnId : TxnId)
  deriving DecidableEq, Repr

/-- Only completed destruction leaves nothing behind. -/
def GcState.observationCompleteAndResidualZero : GcState → Bool
  | .done => true
  | .pending | .residual | .quarantine => false

namespace GcEntry

/-- The slot an entry tracks. -/
def slot : GcEntry → SlotId
  | .awaitingInspection slot _ | .absentUnconfirmed slot _ | .bound slot _ _ _
  | .absent slot _ | .inspectionConflict slot _ => slot

/-- The transaction an entry was queued for. -/
def txnId : GcEntry → TxnId
  | .awaitingInspection _ txnId | .absentUnconfirmed _ txnId | .bound _ txnId _ _
  | .absent _ txnId | .inspectionConflict _ txnId => txnId

/-- An entry is resolved when its slot is confirmed absent or its key destroyed. -/
def observationCompleteAndResidualZero : GcEntry → Bool
  | .awaitingInspection _ _ | .absentUnconfirmed _ _ => false
  | .bound _ _ _ state => state.observationCompleteAndResidualZero
  | .absent _ _ => true
  | .inspectionConflict _ _ => false

/-- Resolved entries are exactly the confirmed absences and the finished destructions. -/
theorem observationCompleteAndResidualZero_iff {e : GcEntry} :
    e.observationCompleteAndResidualZero = true ↔
      (∃ slot txnId, e = .absent slot txnId) ∨
        ∃ slot txnId binding, e = .bound slot txnId binding .done := by
  cases e with
  | bound slot txnId binding state =>
    cases state <;>
      simp [observationCompleteAndResidualZero, GcState.observationCompleteAndResidualZero]
  | _ => simp [observationCompleteAndResidualZero]

end GcEntry

/-- What a terminal transition achieved. -/
inductive TerminalOutcome where
  | activated (generation : NonZeroU64)
  | revoked (epoch : NonZeroU64)
  | reactivated (epoch : NonZeroU64)
  deriving DecidableEq, Repr

/-- The exact request behind a terminal result. -/
inductive TerminalRequestFingerprint where
  | revoke (reason : RevocationReason)
  | reactivate (nextTxnId : TxnId) (backend : BackendKind)
  | activate (generation : NonZeroU64) (delegation : Delegation)
  deriving DecidableEq, Repr

/-- A recorded terminal result, kept for replays until it is acknowledged. -/
structure TerminalResult where
  txnId : TxnId
  outcome : TerminalOutcome
  request : TerminalRequestFingerprint
  recordedAt : UInt64
  acked : Bool
  deriving DecidableEq, Repr

/-- The single control record of one `(identity, purpose)` pair. -/
structure MeshSignerControlRecordV1 where
  identity : ControlIdentity
  purpose : PurposeId
  revision : UInt64
  epochHighWater : NonZeroU64
  generationHighWater : NonZeroU64
  authority : Authority
  currentGeneration : Option NonZeroU64
  liveGenerations : List GenerationRecord
  pendingOp : Option PendingOp
  gcPending : List GcEntry
  recentTerminalResults : List TerminalResult
  deriving DecidableEq, Repr

/-- The revision of the first record ever stored. -/
def initialRevision : UInt64 := 0

/-- Retention bound of the terminal results. -/
def maxRecentTerminalResults : Nat := 8

namespace MeshSignerControlRecordV1

/-- The pristine record of an identity and purpose. -/
def bootstrap (identity : ControlIdentity) (purpose : PurposeId) : MeshSignerControlRecordV1 where
  identity := identity
  purpose := purpose
  revision := initialRevision
  epochHighWater := .one
  generationHighWater := .one
  authority := .empty
  currentGeneration := none
  liveGenerations := []
  pendingOp := none
  gcPending := []
  recentTerminalResults := []

/-- Occupied slots: live generations, the operation in flight and unresolved entries. -/
def capOccupancy (r : MeshSignerControlRecordV1) : Nat :=
  r.liveGenerations.length + r.pendingOp.isSome.toNat +
    r.gcPending.countP fun e => !e.observationCompleteAndResidualZero

end MeshSignerControlRecordV1

end Theyos.MeshControl

import Theyos.Models.MeshControl.Cell.Commit
import Theyos.Models.MeshControl.Cell.Validator

/-!
# Activation of an observed key

Activation reads a snapshot without holding any guard, confirms the physical key, validates the
generation it is about to create, leases the roster at the revision sampled before the validation,
and only then commits against a fresh reading.
-/

namespace Theyos.MeshControl

open Machine

/-- What the backend holds under an expected key. -/
inductive LoadExactOutcome where
  | ready (binding : ExactBinding)
  | missing
  | cardinalityConflict
  | publicKeyMismatch
  | unavailable
  deriving DecidableEq, Repr

/-- Why an activation failed. -/
inductive ActivateError where
  | nothingToActivate
  | physicalKeyNotConfirmed
  | validation (error : ValidationError)
  | commit (error : CommitTransitionError)
  deriving DecidableEq, Repr

/-- What is asked to be activated. -/
structure ActivateRequest where
  purpose : PurposeMarker
  policy : DelegationPolicy
  expectedTxnId : TxnId
  delegation : Delegation
  now : UInt64
  maxCap : ℕ

/-- The environment's answers to one activation. -/
structure ActivateAnswers where
  /-- The snapshot reading succeeded. -/
  readable : Bool
  loadExact : SlotId → List UInt8 → LoadExactOutcome
  currencyRevision : String → UInt64
  queryMachineCurrency : String → RosterCurrency
  verify : SignatureVerifier
  /-- The roster granted the lease at a revision. -/
  leaseGranted : String → UInt64 → Bool
  commit : CommitAnswers

/-- The unguarded part, from the snapshot: nothing left to do for an exact replay, or the operation
to complete with the validated generation. -/
def activateSnapshot (H : Hashes) (q : ActivateRequest) (a : ActivateAnswers)
    (base : MeshSignerControlRecordV1) :
    Except ActivateError (Option (PendingOp × GenerationRecord)) := do
  require (base.purpose = q.purpose.purposeId) (.validation .purposeMismatch)
  match base.recentTerminalResults.find? (·.txnId = q.expectedTxnId) with
  | some existing =>
    match existing.request with
    | .activate _ delegation => do
      require (delegation = q.delegation) (.commit (.transition .terminalTxnReused))
      return none
    | _ => .error (.commit (.transition .terminalTxnReused))
  | none => do
    let p ← okOr (base.pendingOp.filter (·.txnId = q.expectedTxnId)) .nothingToActivate
    require (p.phase = .keyObserved) .nothingToActivate
    let binding ← okOr p.binding .nothingToActivate
    require (a.loadExact p.canonicalSlot binding.publicKey = .ready binding)
      .physicalKeyNotConfirmed
    let g : GenerationRecord :=
      { generation := p.generation, delegation := q.delegation, binding,
        notAfter := q.delegation.notAfter }
    let rosterRevisionBefore := a.currencyRevision q.delegation.delegatorMId
    (validateFullBinding H q.purpose g (.fromIdentity base.identity) q.policy
      a.queryMachineCurrency a.verify q.now).mapError .validation
    require (a.leaseGranted q.delegation.delegatorMId rosterRevisionBefore)
      (.validation .rosterChangedDuringActivation)
    return some (p, g)

/-- The transition committed for an operation, naming the revision of the fresh reading. -/
def activateTransition (H : Hashes) (q : ActivateRequest) (p : PendingOp)
    (fresh : MeshSignerControlRecordV1) : RecordTransition :=
  .activateFromKeyObserved
    { p.token H fresh.revision with expectedTxnId := q.expectedTxnId } q.delegation

/-- The rest of an activation, after the snapshot reading. -/
def activateFrom (st : FileBackedStore) (q : ActivateRequest) (a : ActivateAnswers)
    (base : MeshSignerControlRecordV1) :
    Program ActivateError Cell MeshSignerControlRecordV1 := do
  match activateSnapshot st.hashes q a base with
  | .error e => throw e
  | .ok none => return base
  | .ok (some (p, _)) =>
    let new ← (commitBuiltPrivileged st (fun fresh => some (activateTransition st.hashes q p fresh))
      q.now q.maxCap a.commit).adapt .commit
    return new.getD base

/-- Activate the operation in flight. -/
def activateFromKeyObserved (st : FileBackedStore) (q : ActivateRequest) (a : ActivateAnswers) :
    Program ActivateError Cell MeshSignerControlRecordV1 := do
  let base ← (loadRecord st a.readable).adapt .commit
  activateFrom st q a base

/-- Activation keeps the cell durable where its transition keeps `I`. -/
theorem meets_activateFromKeyObserved {st : FileBackedStore}
    {I : MeshSignerControlRecordV1 → Prop} (hD : st.Derived)
    (hloads : ∀ disk r, I r → st.Holds disk r → st.loadCanonical disk true = .exact r)
    {q : ActivateRequest}
    (hkeeps : ∀ r p new, I r →
      apply st.hashes r (activateTransition st.hashes q p r) q.now q.maxCap = .ok new → I new)
    (a : ActivateAnswers) :
    Meets (Durable st I) (activateFromKeyObserved st q a) (fun _ => Durable st I)
      (Durable st I) := by
  refine .of_exists (fun _ h => h.holdsRecord) fun r => ?_
  refine .bind ((meets_loadRecord hD r a.readable).adapt _) fun base => .assume ?_
  rintro rfl
  unfold activateFrom
  rcases activateSnapshot st.hashes q a base with e | _ | ⟨p, g⟩
  · exact .throw fun _ h => h.1
  · exact .pure fun _ h => h.1
  · refine .bind (.adapt ?_ _) fun new => .pure fun _ h => h
    refine meets_commitBuiltPrivileged hD hloads ?_ a.commit
    rintro _ new ⟨⟩ hr happly
    exact hkeeps base p new hr happly

/-- A delegation that passes the full validation for the first slot. -/
def sessionDelegation : Delegation where
  version := delegationSchemaVersion
  kind := meshSessionPurpose.delegationKind
  domain := meshSessionPurpose.delegationDomain
  hhId := "h"
  delegatorMId := "m"
  delegatorCertFingerprint := Vector.replicate 32 0
  delegatedPub := [4]
  delegatedKeyId := (firstSlot (repeatedTxn 1)).canonicalId fieldHashes
  profile := meshSessionPurpose.profile
  transcriptKinds := ["activate-ack", "activate", "final-confirm"]
  roles := ["responder", "initiator"]
  channel := .dev
  serial := 1
  notBefore := 0
  notAfter := 9
  sig := []

end Theyos.MeshControl

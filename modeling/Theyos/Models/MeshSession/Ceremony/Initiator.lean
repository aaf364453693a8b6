import Theyos.Models.MeshSession.Ceremony.Responder

/-!
# The initiator's side of a ceremony

The initiator starts from an intent it signed before, which names the responder to reach and is
bound to the identity, delegation, signer and checkpoint it was built for.
-/

namespace Theyos.MeshSession

open Machine Dialogue

/-- A signed intent with what it was built for. -/
structure PendingIntent where
  intent : SignedMeshConnectionIntent
  channel : ExpectedChannel
  signerPub : List UInt8
  delegationDigest : Vector UInt8 32
  checkpointSequence : UInt64
  checkpointEventHead : List UInt8
  checkpointNotAfter : UInt64

/-- The machine a pending intent is for. -/
def PendingIntent.expectedResponder (p : PendingIntent) : ExpectedResponder :=
  ⟨p.intent.1.hhId, p.intent.1.targetMId, p.intent.1.targetCertFingerprint⟩

/-- What the initiator holds once the responder passed every check. -/
structure AcceptedResponder (Key : Type) (isPoint : List UInt8 → Bool) where
  proofR : ProofR isPoint
  /-- The key the responder's delegation names. -/
  verifier : Key
  expiresAt : UInt64

section

variable {Key : Type} (c : Crypto Key) (F : Formats c.isPoint) (inputs : CeremonyInputs c.isPoint)
  (pendingIntent : PendingIntent)

/-- The pending intent was built for this signer, identity, delegation and checkpoint. -/
def verifyBindsTo : AuthCeremony c Unit := do
  let self := inputs.localIdentity
  let intent := pendingIntent.intent.1
  let key : Key ← request .publicKey
  require (c.toEncodedPoint key = pendingIntent.signerPub) (.intent .signerKeyMismatchPendingIntent)
  require (intent.hhId = self.hhId ∧ intent.initiatorMId = self.mId ∧
    intent.initiatorCertFingerprint = self.certFingerprint ∧
    intent.delegatedKeyId = self.delegation.1.delegatedKeyId ∧
    pendingIntent.channel = inputs.expectedChannel) (.intent .identityMismatch)
  let digestNow ← delegationDigest c F self.delegation
  require (digestNow = pendingIntent.delegationDigest) (.intent .pendingIntentDelegationMismatch)
  require (intent.notAfter ≤ self.delegation.1.notAfter) (.intent .ttlInvalid)
  require (intent.checkpointHash = inputs.checkpoint.hash ∧
    pendingIntent.checkpointSequence = inputs.checkpoint.sequence ∧
    pendingIntent.checkpointEventHead = inputs.checkpoint.eventHead ∧
    pendingIntent.checkpointNotAfter = inputs.checkpoint.notAfter)
    (.intent .pendingIntentCheckpointMismatch)

variable (hFinal : List UInt8)

/-- Receive the responder's proof, and verify it under the key its delegation names. -/
def awaitProofR : AuthCeremony c (ProofR c.isPoint × Key) := do
  let expected := pendingIntent.expectedResponder
  match ← recvFrame c F with
  | .proofR proofR => do
    checkHFinal c proofR.1.hFinal hFinal
    require (proofR.1.hhId = expected.hhId ∧ proofR.1.selfMId = expected.mId ∧
      proofR.1.selfCertFingerprint = expected.certFingerprint) .expectedPeerMismatch
    checkCheckpoint c proofR.1.checkpointHash proofR.1.checkpointSequence
      proofR.1.checkpointEventHead proofR.1.checkpointNotAfter inputs.checkpoint
    passDelegationGate c proofR.1.delegation inputs.policy
      ⟨proofR.1.hhId, inputs.localIdentity.hhId, proofR.1.selfMId, proofR.1.selfCertFingerprint⟩
      inputs.expectedChannel
    let verifier ← verifierFromDelegatedPub c proofR.1.delegation.1.delegatedPub
    verifyFrame c F (.proofR proofR) proofR.1.sig verifier
    return (proofR, verifier)
  | _ => fail .roleOrKindMismatch

/-- Receive the responder's proof, and check that everything is still valid. -/
def acceptResponder : AuthCeremony c (AcceptedResponder Key c.isPoint) := do
  let (proofR, verifier) ← awaitProofR c F inputs pendingIntent hFinal
  let now ← clockNow c
  let expiresAt := effectiveExpiresAt inputs.checkpoint.notAfter
    inputs.localIdentity.delegation.1.notAfter proofR.1.delegation.1.notAfter
    inputs.leaseExpiresAt inputs.ingressEvidence.ingressExpiry pendingIntent.intent.1.notAfter
  checkEffectiveExpiry c now expiresAt
  return ⟨proofR, verifier, expiresAt⟩

/-- Send the intent, and the initiator's proof that names its digest. -/
def sendIntentAndProofI : AuthCeremony c Unit := do
  let self := inputs.localIdentity
  let expected := pendingIntent.expectedResponder
  let checkpoint := inputs.checkpoint
  sendIntentRecord c F pendingIntent.intent
  let connectionIntentDigest ← intentDigest c F pendingIntent.intent
  checkCeremonyDeadline c
  let proofI ← lift (ProofI.new hFinal self.hhId self.mId expected.mId self.certFingerprint
    expected.certFingerprint checkpoint.hash checkpoint.sequence checkpoint.eventHead
    checkpoint.notAfter self.delegation connectionIntentDigest placeholderSig)
  let signature ← signFrame c F (.proofI proofI)
  sendFrame c F (.proofI (proofI.withSig signature))
  checkCeremonyDeadline c

/-- Receive the responder's confirmation. -/
def awaitFinalConfirm (verifier : Key) : AuthCeremony c FinalConfirm := do
  let self := inputs.localIdentity
  match ← recvFrame c F with
  | .finalConfirm finalConfirm => do
    checkHFinal c finalConfirm.1.hFinal hFinal
    require (finalConfirm.1.initiatorMId = self.mId ∧
      finalConfirm.1.initiatorCertFingerprint = self.certFingerprint ∧
      finalConfirm.1.responderMId = pendingIntent.expectedResponder.mId) .expectedPeerMismatch
    verifyFrame c F (.finalConfirm finalConfirm) finalConfirm.1.sig verifier
    checkCeremonyDeadline c
    return finalConfirm
  | _ => fail .roleOrKindMismatch

/-- Build and sign the activation, and read the clock once more. -/
def prepareActivate (finalConfirm : FinalConfirm) (expiresAt : UInt64) :
    AuthCeremony c Activate := do
  let finalConfirmDigest ← frameDigest c F (.finalConfirm finalConfirm)
  let activate ← lift (Activate.new hFinal pendingIntent.expectedResponder.mId
    finalConfirmDigest.toList placeholderSig)
  let signature ← signFrame c F (.activate activate)
  let now ← clockNow c
  checkEffectiveExpiry c now expiresAt
  return activate.withSig signature

/-- Send the activation, and verify the acknowledgement that names its digest. -/
def exchangeAck (activate : Activate) (verifier : Key) : AuthCeremony c Unit := do
  sendFrame c F (.activate activate)
  match ← recvFrame c F with
  | .activateAck activateAck => do
    checkHFinal c activateAck.1.hFinal hFinal
    require (activateAck.1.responderMId = pendingIntent.expectedResponder.mId) .expectedPeerMismatch
    let expectedActivateDigest ← frameDigest c F (.activate activate)
    require (activateAck.1.activateDigest = expectedActivateDigest.toList) .digestMismatch
    verifyFrame c F (.activateAck activateAck) activateAck.1.sig verifier
  | _ => fail .roleOrKindMismatch

/-- Everything before the admission is reserved. -/
def meetResponder : AuthCeremony c
      (Handshaken × AcceptedResponder Key c.isPoint × Activate) := do
  checkSignerMatchesDelegation c inputs.localIdentity.delegation
  checkLocalDelegationChannel c inputs.localIdentity.delegation inputs.expectedChannel
  verifyBindsTo c F inputs pendingIntent
  let handshaken ← openCeremony c inputs .initiator
  let accepted ← acceptResponder c F inputs pendingIntent handshaken.hFinal
  sendIntentAndProofI c F inputs pendingIntent handshaken.hFinal
  let finalConfirm ← awaitFinalConfirm c F inputs pendingIntent handshaken.hFinal accepted.verifier
  let activate ← prepareActivate c F pendingIntent handshaken.hFinal finalConfirm accepted.expiresAt
  return (handshaken, accepted, activate)

/-- The session the initiator holds with the responder of its intent. -/
def initiatorSession (handshaken : Handshaken) (accepted : AcceptedResponder Key c.isPoint) :
    ActiveMeshSession where
  transport := ⟨0, 0⟩
  rekey := handshaken.rekey
  peerHhId := pendingIntent.expectedResponder.hhId
  peerMId := pendingIntent.expectedResponder.mId
  peerCertFingerprint := pendingIntent.expectedResponder.certFingerprint
  ingressEvidence := inputs.ingressEvidence
  hFinal := handshaken.hFinal
  expiresAt := accepted.expiresAt
  closed := false

/-- The membership the initiator asks an admission for. -/
def initiatorMembershipKey (handshaken : Handshaken) : D1MembershipKey :=
  ⟨handshaken.hFinal, inputs.localIdentity.hhId, pendingIntent.expectedResponder.mId,
    pendingIntent.expectedResponder.certFingerprint, inputs.checkpoint.hash,
    inputs.checkpoint.sequence⟩

/-- Drive the initiator side to an active session. -/
def runInitiatorHandshake : AuthCeremony c ActiveMeshSession := do
  let (handshaken, accepted, activate) ← meetResponder c F inputs pendingIntent
  admitAround c (initiatorMembershipKey c inputs pendingIntent handshaken)
    (exchangeAck c F pendingIntent handshaken.hFinal activate accepted.verifier)
  return initiatorSession c inputs pendingIntent handshaken accepted

end

end Theyos.MeshSession

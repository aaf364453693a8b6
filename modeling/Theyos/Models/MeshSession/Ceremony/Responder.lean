import Theyos.Models.MeshSession.Ceremony.Check

/-!
# The responder's side of a ceremony

From an admitted stream to an active session: the Noise handshake and the responder's proof; the
initiator's intent and proof with every check on them; the nonce; the confirmation and the
initiator's activation; and the acknowledgement between a reserved and a committed admission.
-/

namespace Theyos.MeshSession

open Machine Dialogue

/-- The values a handshake function is called with. -/
structure CeremonyInputs (isPoint : List UInt8 → Bool) where
  ingressEvidence : IngressEvidence
  localIdentity : LocalIdentity isPoint
  checkpoint : LocalCheckpoint
  expectedChannel : ExpectedChannel
  policy : DelegationPolicy
  leaseExpiresAt : UInt64
  rekeyThreshold : RekeyThreshold

/-- The counters and the transcript hash behind a finished Noise handshake. -/
structure Handshaken where
  rekey : SessionRekeyState
  hFinal : List UInt8

/-- What the responder holds once the initiator passed every check. -/
structure AcceptedInitiator (Key : Type) (isPoint : List UInt8 → Bool) where
  intent : SignedMeshConnectionIntent
  intentDigest : Vector UInt8 32
  proofI : ProofI isPoint
  /-- The key the resolver returned. -/
  verifier : Key
  nonceKey : IntentNonceKey
  expiresAt : UInt64

section

variable {Key : Type} (c : Crypto Key) (F : Formats c.isPoint) (inputs : CeremonyInputs c.isPoint)

/-- Everything up to the end of the Noise handshake. -/
def openCeremony (role : Role) : AuthCeremony c Handshaken := do
  checkCeremonyDeadline c
  let rekey ← newSessionRekeyState c inputs.rekeyThreshold
  let hFinal ← (runXxHandshake role).adapt .noise
  checkCeremonyDeadline c
  return ⟨rekey, hFinal⟩

variable (hFinal : List UInt8)

/-- Build, sign and send the responder's proof. -/
def sendProofR : AuthCeremony c Unit := do
  let self := inputs.localIdentity
  let checkpoint := inputs.checkpoint
  let proofR ← lift (ProofR.new hFinal self.hhId self.mId self.certFingerprint checkpoint.hash
    checkpoint.sequence checkpoint.eventHead checkpoint.notAfter self.delegation placeholderSig)
  let signature ← signFrame c F (.proofR proofR)
  sendFrame c F (.proofR (proofR.withSig signature))

/-- Receive the initiator's intent. -/
def awaitIntent : AuthCeremony c (SignedMeshConnectionIntent × Vector UInt8 32) := do
  let intent ← recvIntentRecord c F
  let received ← intentDigest c F intent
  checkCeremonyDeadline c
  return (intent, received)

/-- Receive the initiator's proof, and verify it under the key the resolver returns. -/
def awaitProofI : AuthCeremony c (ProofI c.isPoint × Key) := do
  let self := inputs.localIdentity
  match ← recvFrame c F with
  | .proofI proofI => do
    checkHFinal c proofI.1.hFinal hFinal
    require (proofI.1.expectedPeerMId = self.mId ∧
      proofI.1.expectedPeerCertFingerprint = self.certFingerprint) .expectedPeerMismatch
    checkCheckpoint c proofI.1.checkpointHash proofI.1.checkpointSequence
      proofI.1.checkpointEventHead proofI.1.checkpointNotAfter inputs.checkpoint
    passDelegationGate c proofI.1.delegation inputs.policy
      ⟨proofI.1.hhId, self.hhId, proofI.1.selfMId, proofI.1.selfCertFingerprint⟩
      inputs.expectedChannel
    checkCeremonyDeadline c
    let resolved : Except IntentError ResolvedSignerAuthority ← request
      (.resolve proofI.1.hhId proofI.1.selfMId inputs.expectedChannel
        proofI.1.delegation.1.delegatedKeyId)
    let resolved ← lift (resolved.mapError .intent)
    require (resolved.notAfter = proofI.1.delegation.1.notAfter)
      (.intent .resolvedGenerationNotAfterMismatch)
    let verifier ← verifierFromDelegatedPub c resolved.delegatedPub
    verifyFrame c F (.proofI proofI) proofI.1.sig verifier
    return (proofI, verifier)
  | _ => fail .roleOrKindMismatch

/-- The nonce of an intent as an array of fixed size. -/
def nonceArray (nonce : List UInt8) : Option (Vector UInt8 32) :=
  if h : nonce.length = 32 then some ⟨⟨nonce⟩, h⟩ else none

/-- The checks that tie the intent to the initiator's proof and to this machine. -/
def runCombinedIntentCheck (intent : SignedMeshConnectionIntent)
    (receivedIntentDigest : Vector UInt8 32) (proofI : ProofI c.isPoint) (verifier : Key)
    (now : UInt64) : AuthCeremony c (IntentNonceKey × UInt64) := do
  let self := inputs.localIdentity
  verifyIntentRecord c F intent verifier
  require (intent.1.delegatedKeyId = proofI.1.delegation.1.delegatedKeyId) (.intent .keyIdMismatch)
  require (proofI.1.connectionIntentDigest = receivedIntentDigest) (.intent .digestMismatch)
  require (intent.1.hhId = proofI.1.hhId ∧ intent.1.initiatorMId = proofI.1.selfMId ∧
    intent.1.initiatorCertFingerprint = proofI.1.selfCertFingerprint ∧
    intent.1.targetMId = self.mId ∧ intent.1.targetCertFingerprint = self.certFingerprint)
    (.intent .identityMismatch)
  require (intent.1.notAfter ≤ proofI.1.delegation.1.notAfter) (.intent .ttlInvalid)
  let expiresAt := effectiveExpiresAt inputs.checkpoint.notAfter self.delegation.1.notAfter
    proofI.1.delegation.1.notAfter inputs.leaseExpiresAt inputs.ingressEvidence.ingressExpiry
    intent.1.notAfter
  checkEffectiveExpiry c now expiresAt
  let nonce ← lift (okOr (nonceArray intent.1.nonce) (.intent .shapeMismatch))
  return (⟨intent.1.hhId, intent.1.initiatorMId, intent.1.delegatedKeyId, nonce⟩, expiresAt)

/-- Receive the intent and the initiator's proof, and run every check on them. -/
def acceptInitiator : AuthCeremony c (AcceptedInitiator Key c.isPoint) := do
  let (intent, received) ← awaitIntent c F
  let (proofI, verifier) ← awaitProofI c F inputs hFinal
  let now ← clockNow c
  let (nonceKey, expiresAt) ← runCombinedIntentCheck c F inputs intent received proofI verifier now
  checkCeremonyDeadline c
  return ⟨intent, received, proofI, verifier, nonceKey, expiresAt⟩

/-- Everything before the nonce is consumed. -/
def meetInitiator : AuthCeremony c (Handshaken × AcceptedInitiator Key c.isPoint) := do
  checkSignerMatchesDelegation c inputs.localIdentity.delegation
  checkLocalDelegationChannel c inputs.localIdentity.delegation inputs.expectedChannel
  let handshaken ← openCeremony c inputs .responder
  sendProofR c F inputs handshaken.hFinal
  let accepted ← acceptInitiator c F inputs handshaken.hFinal
  return (handshaken, accepted)

/-- Only a committed consumption lets the ceremony go on. -/
def nonceConsumed : Except IntentError NonceConsumeOutcome → Except AuthFrameError Unit
  | .ok .committed => .ok ()
  | .ok .alreadyConsumed => .error (.intent .nonceAlreadyConsumed)
  | .ok .mayHaveTakenEffect => .error (.intent .nonceCommitAmbiguous)
  | .ok .unavailable => .error (.intent .nonceLedgerUnavailable)
  | .error e => .error (.intent e)

/-- Send the confirmation, and receive the activation that names its digest. -/
def confirmInitiator (accepted : AcceptedInitiator Key c.isPoint) :
    AuthCeremony c (FinalConfirm × Activate) := do
  let self := inputs.localIdentity
  checkCeremonyDeadline c
  let finalConfirm ← lift (FinalConfirm.new hFinal accepted.proofI.1.selfMId
    accepted.proofI.1.selfCertFingerprint self.mId placeholderSig)
  let signature ← signFrame c F (.finalConfirm finalConfirm)
  let finalConfirm := finalConfirm.withSig signature
  sendFrame c F (.finalConfirm finalConfirm)
  checkCeremonyDeadline c
  match ← recvFrame c F with
  | .activate activate => do
    checkHFinal c activate.1.hFinal hFinal
    require (activate.1.responderMId = self.mId) .expectedPeerMismatch
    let expectedFinalConfirmDigest ← frameDigest c F (.finalConfirm finalConfirm)
    require (activate.1.finalConfirmDigest = expectedFinalConfirmDigest.toList) .digestMismatch
    verifyFrame c F (.activate activate) activate.1.sig accepted.verifier
    checkCeremonyDeadline c
    return (finalConfirm, activate)
  | _ => fail .roleOrKindMismatch

/-- Build and sign the acknowledgement, and read the clock once more. -/
def prepareAck (activate : Activate) (expiresAt : UInt64) : AuthCeremony c ActivateAck := do
  let activateDigest ← frameDigest c F (.activate activate)
  let activateAck ← lift (ActivateAck.new hFinal inputs.localIdentity.mId activateDigest.toList
    placeholderSig)
  let signature ← signFrame c F (.activateAck activateAck)
  let now ← clockNow c
  checkEffectiveExpiry c now expiresAt
  return activateAck.withSig signature

/-- Run an exchange between reserving an admission and settling it: a failed exchange cancels the
reserved permit and a completed one commits it. -/
def admitAround (key : D1MembershipKey) (exchange : AuthCeremony c Unit) : AuthCeremony c Unit := do
  let pending : Except IntentError ℕ ← request (.reservePending key)
  let permit ← lift (pending.mapError .intent)
  match ← exchange.attempt with
  | .ok () => do
    let _ ← request (.commitAfterAck permit)
    return
  | .error e => do
    let cancelOutcome : D1CancelOutcome ← request (.cancelBeforeAck permit)
    fail (.ackExchangeFailedWithCancelOutcome e cancelOutcome)

section

variable (handshaken : Handshaken) (accepted : AcceptedInitiator Key c.isPoint)

/-- The session the responder holds with an accepted initiator. -/
def responderSession : ActiveMeshSession where
  transport := ⟨0, 0⟩
  rekey := handshaken.rekey
  peerHhId := accepted.proofI.1.hhId
  peerMId := accepted.proofI.1.selfMId
  peerCertFingerprint := accepted.proofI.1.selfCertFingerprint
  ingressEvidence := inputs.ingressEvidence
  hFinal := handshaken.hFinal
  expiresAt := accepted.expiresAt
  closed := false

/-- The membership the responder asks an admission for. -/
def responderMembershipKey : D1MembershipKey :=
  ⟨handshaken.hFinal, accepted.proofI.1.hhId, accepted.proofI.1.selfMId,
    accepted.proofI.1.selfCertFingerprint, inputs.checkpoint.hash, inputs.checkpoint.sequence⟩

/-- Everything after the nonce was consumed. -/
def completeResponder : AuthCeremony c ActiveMeshSession := do
  let (_, activate) ← confirmInitiator c F inputs handshaken.hFinal accepted
  let activateAck ← prepareAck c F inputs handshaken.hFinal activate accepted.expiresAt
  admitAround c (responderMembershipKey c inputs handshaken accepted)
    (sendFrame c F (.activateAck activateAck))
  return responderSession c inputs handshaken accepted

end

/-- Drive the responder side to an active session. -/
def runResponderHandshake : AuthCeremony c ActiveMeshSession := do
  let (handshaken, accepted) ← meetInitiator c F inputs
  let outcome : Except IntentError NonceConsumeOutcome ← request
    (.consume accepted.nonceKey accepted.intent.1.notAfter accepted.intentDigest
      inputs.expectedChannel)
  lift (nonceConsumed outcome)
  completeResponder c F inputs handshaken accepted

end

end Theyos.MeshSession

import Mathlib.Data.String.Basic
import Theyos.Models.MeshSession.Ceremony.Effect

/-!
# What a peer went through when it was accepted

The checks of a ceremony, read off its transcript: which plaintexts were received and
what they decode to, which signatures were verified under which key, what the
delegation verifier and the resolver answered, and which equalities hold between the
frames, the intent, the local identity and the checkpoint.
-/

namespace Theyos.MeshSession

open Machine Dialogue

section

variable {Key : Type} {c : Crypto Key} {F : Formats c.isPoint}
  {w : c.Transcript}

section

variable (w : c.Transcript)

/-- A record was received and decrypted to the plaintext. -/
def Received (plaintext : List UInt8) : Prop :=
  ∃ ciphertext, ⟨.readMessage ciphertext, some plaintext⟩ ∈ w

variable (F) in
/-- A record with the frame was received. -/
abbrev ReceivedFrame (frame : AuthFrame c.isPoint) : Prop :=
  ∃ plaintext, Received w plaintext ∧ decodeAuthFrame F plaintext = .ok frame

variable (c F) in
/-- A signature over the body was verified under the key. -/
def Verified (key : Key) (body : SignedBody c.isPoint) : Prop :=
  ∃ message signature, body.preimage F = .ok message ∧
    ⟨.verify key message signature, ()⟩ ∈ w ∧ c.verify key message signature = true

variable (c) in
/-- The digest of the input was computed. -/
def Digested (input : List UInt8) (d : Vector UInt8 32) : Prop :=
  ⟨.sha256 input, ()⟩ ∈ w ∧ d = c.sha256 input

end

theorem receivePlaintext_ok {plaintext : List UInt8}
    (h : Ran (receivePlaintext : Ceremony Key c.isPoint _ _) plaintext w) :
    Received w plaintext := by
  obtain ⟨ciphertext, _, h⟩ := h.bind
  obtain ⟨answer, hmem, h⟩ := h.query_bind
  cases answer with
  | none => exact h.not_fail.elim
  | some plaintext =>
    cases h.pure_eq
    exact ⟨ciphertext, hmem⟩

variable {frame : AuthFrame c.isPoint}

theorem recvFrame_ok (h : Ran (recvFrame c F) frame w) : ReceivedFrame F w frame := by
  obtain ⟨plaintext, hreceived, h⟩ := h.bind
  exact ⟨plaintext, receivePlaintext_ok hreceived, h.lift_eq⟩

variable {intent : SignedMeshConnectionIntent}

variable {key : Key} {u : Unit}

theorem verifySignature_ok {message : List UInt8} {signature : SignatureBytes}
    {e : AuthFrameError} (h : Ran (verifySignature c key message signature e) u w) :
    ⟨.verify key message signature, ()⟩ ∈ w ∧ c.verify key message signature = true := by
  obtain ⟨_, hmem, h⟩ := h.query_bind
  exact ⟨hmem, (yields_require.mp h.choose_spec.1).1⟩

theorem verifyFrame_ok {sig : List UInt8} (h : Ran (verifyFrame c F frame sig key) u w) :
    Verified c F w key (.frame frame) := by
  obtain ⟨signature, _, h⟩ := h.lift_bind
  obtain ⟨message, hmessage, h⟩ := h.lift_bind
  obtain ⟨_, _, h⟩ := h.lift_bind
  exact ⟨message, signature, mapError_eq_ok.mp hmessage, verifySignature_ok h⟩

theorem verifyIntentRecord_ok (h : Ran (verifyIntentRecord c F intent key) u w) :
    Verified c F w key (.intent intent) := by
  obtain ⟨message, hmessage, h⟩ := h.lift_bind
  obtain ⟨signature, _, h⟩ := h.lift_bind
  obtain ⟨_, _, h⟩ := h.lift_bind
  exact ⟨message, signature, mapError_eq_ok.mp hmessage, verifySignature_ok h⟩

variable {d : Vector UInt8 32}

theorem digest_ok {input : List UInt8} (h : Ran (digest c input) d w) : Digested c w input d := by
  obtain ⟨_, hmem, h⟩ := h.query_bind
  exact ⟨hmem, h.pure_eq⟩

theorem frameDigest_ok (h : Ran (frameDigest c F frame) d w) :
    ∃ input, frame.digestInput F = .ok input ∧ Digested c w input d :=
  h.lift_bind.imp fun _ h => ⟨mapError_eq_ok.mp h.1, digest_ok h.2⟩

theorem intentDigest_ok (h : Ran (intentDigest c F intent) d w) :
    ∃ input, intentDigestInput F intent = .ok input ∧ Digested c w input d :=
  h.lift_bind.imp fun _ h => ⟨mapError_eq_ok.mp h.1, digest_ok h.2⟩

theorem clockNow_ok {now : UInt64} (h : Ran (clockNow c) now w) : ⟨.now, .ok now⟩ ∈ w := by
  obtain ⟨answer, hmem, h⟩ := h.query_bind
  rwa [mapError_eq_ok.mp h.lift_eq] at hmem

end

/-- The comparison is up to order. -/
theorem stringSetMatchesExactly_iff {actual expected : List String} :
    stringSetMatchesExactly actual expected = true ↔ actual.Perm expected := by
  rw [stringSetMatchesExactly, decide_eq_true_iff]
  constructor
  · intro h
    exact (List.mergeSort_perm actual _).symm.trans (h ▸ List.mergeSort_perm expected _)
  · intro h
    have hperm := (List.mergeSort_perm actual (· ≤ ·)).trans
      (h.trans (List.mergeSort_perm expected (· ≤ ·)).symm)
    exact hperm.eq_of_pairwise' (List.pairwise_mergeSort' (· ≤ ·) _)
      (List.pairwise_mergeSort' (· ≤ ·) _)

section

variable {Key : Type} {c : Crypto Key} {F : Formats c.isPoint} {inputs : CeremonyInputs c.isPoint}
  {w : c.Transcript}

/-- The delegation passed the gate. -/
structure DelegationAccepted (delegation : MeshSessionDelegation c.isPoint)
    (policy : DelegationPolicy) (ctx : PartialBindingInputs) (channel : ExpectedChannel)
    (w : c.Transcript) : Prop where
  window : policy.validate delegation.1 = .ok ()
  verified : ⟨.verifyDelegation delegation, .ok ()⟩ ∈ w
  roles : delegation.1.roles.Perm expectedDelegationRoles
  transcriptKinds : delegation.1.transcriptKinds.Perm expectedTranscriptKinds
  channel : delegation.1.channel = channel.asStr
  household : ctx.proofHhId = ctx.localHhId ∧ ctx.localHhId = delegation.1.hhId
  delegator : ctx.proofSelfMId = delegation.1.delegatorMId
  certificate : ctx.proofSelfCertFingerprint = delegation.1.delegatorCertFingerprint

variable {delegation : MeshSessionDelegation c.isPoint}

theorem passDelegationGate_ok {policy : DelegationPolicy} {ctx : PartialBindingInputs}
    {channel : ExpectedChannel} {u : Unit}
    (h : Ran (passDelegationGate c delegation policy ctx channel) u w) :
    DelegationAccepted delegation policy ctx channel w := by
  obtain ⟨_, hwindow, h⟩ := h.lift_bind
  obtain ⟨answer, hmem, h⟩ := h.query_bind
  obtain ⟨_, hanswer, h⟩ := h.lift_bind
  obtain ⟨hroles, h⟩ := h.require_bind
  obtain ⟨hkinds, h⟩ := h.require_bind
  obtain ⟨hchannel, h⟩ := h.require_bind
  have hbinding := mapError_eq_ok.mp h.lift_eq
  simp only [DelegationWire.checkPartialBinding, eq_ok_iff] at hbinding
  obtain ⟨hhousehold, hdelegator, hcertificate⟩ := hbinding
  rw [mapError_eq_ok.mp hanswer] at hmem
  exact ⟨mapError_eq_ok.mp hwindow, hmem, stringSetMatchesExactly_iff.mp hroles,
    stringSetMatchesExactly_iff.mp hkinds, hchannel, hhousehold, hdelegator, hcertificate⟩

variable (F inputs) in
/-- The initiator's proof passed every check of its own. -/
structure ProofIAccepted (hFinal : List UInt8) (proofI : ProofI c.isPoint) (verifier : Key)
    (w : c.Transcript) : Prop where
  received : ReceivedFrame F w (.proofI proofI)
  hFinal_eq : proofI.1.hFinal = hFinal
  /-- The initiator expects this very machine. -/
  peer_eq : proofI.1.expectedPeerMId = inputs.localIdentity.mId ∧
    proofI.1.expectedPeerCertFingerprint = inputs.localIdentity.certFingerprint
  checkpoint_eq : proofI.1.checkpointHash = inputs.checkpoint.hash ∧
    proofI.1.checkpointSequence = inputs.checkpoint.sequence ∧
    proofI.1.checkpointEventHead = inputs.checkpoint.eventHead ∧
    proofI.1.checkpointNotAfter = inputs.checkpoint.notAfter
  delegation : DelegationAccepted proofI.1.delegation inputs.policy
    ⟨proofI.1.hhId, inputs.localIdentity.hhId, proofI.1.selfMId, proofI.1.selfCertFingerprint⟩
    inputs.expectedChannel w
  /-- The resolver returned the key the proof was verified under. -/
  resolved : ∃ resolved : ResolvedSignerAuthority,
    ⟨.resolve proofI.1.hhId proofI.1.selfMId inputs.expectedChannel
      proofI.1.delegation.1.delegatedKeyId, .ok resolved⟩ ∈ w ∧
    resolved.notAfter = proofI.1.delegation.1.notAfter ∧
    c.fromSec1Bytes resolved.delegatedPub = some verifier
  verified : Verified c F w verifier (.frame (.proofI proofI))

variable (F inputs) in
/-- The intent passed the checks that tie it to the initiator's proof and to this machine. -/
structure IntentAccepted (a : AcceptedInitiator Key c.isPoint) (now : UInt64)
    (w : c.Transcript) : Prop where
  verified : Verified c F w a.verifier (.intent a.intent)
  keyId_eq : a.intent.1.delegatedKeyId = a.proofI.1.delegation.1.delegatedKeyId
  digest_eq : a.proofI.1.connectionIntentDigest = a.intentDigest
  initiator_eq : a.intent.1.hhId = a.proofI.1.hhId ∧ a.intent.1.initiatorMId = a.proofI.1.selfMId ∧
    a.intent.1.initiatorCertFingerprint = a.proofI.1.selfCertFingerprint
  target_eq : a.intent.1.targetMId = inputs.localIdentity.mId ∧
    a.intent.1.targetCertFingerprint = inputs.localIdentity.certFingerprint
  notAfter_le : a.intent.1.notAfter ≤ a.proofI.1.delegation.1.notAfter
  expiresAt_eq : a.expiresAt = effectiveExpiresAt inputs.checkpoint.notAfter
    inputs.localIdentity.delegation.1.notAfter a.proofI.1.delegation.1.notAfter
    inputs.leaseExpiresAt inputs.ingressEvidence.ingressExpiry a.intent.1.notAfter
  unexpired : now < a.expiresAt
  nonceKey_eq : a.nonceKey.hhId = a.intent.1.hhId ∧
    a.nonceKey.initiatorMId = a.intent.1.initiatorMId ∧
    a.nonceKey.delegatedKeyId = a.intent.1.delegatedKeyId ∧
    a.nonceKey.nonce.toList = a.intent.1.nonce

variable (F inputs) in
/-- The initiator passed every check of the responder. -/
structure InitiatorAccepted (hFinal : List UInt8) (a : AcceptedInitiator Key c.isPoint)
    (w : c.Transcript) : Prop where
  intent_received : ∃ plaintext, Received w plaintext ∧
    decodeIntentRecord F c.toP256 plaintext = .ok a.intent
  intent_digested : ∃ input, intentDigestInput F a.intent = .ok input ∧
    Digested c w input a.intentDigest
  proof : ProofIAccepted F inputs hFinal a.proofI a.verifier w
  intent : ∃ now, ⟨.now, .ok now⟩ ∈ w ∧ IntentAccepted F inputs a now w

variable {hFinal : List UInt8}

theorem awaitProofI_ok {proofI : ProofI c.isPoint} {verifier : Key}
    (h : Ran (awaitProofI c F inputs hFinal) (proofI, verifier) w) :
    ProofIAccepted F inputs hFinal proofI verifier w := by
  obtain ⟨frame, hframe, h⟩ := h.bind
  cases frame with
  | proofI proofI =>
    obtain ⟨hFinal_eq, h⟩ := h.require_bind
    obtain ⟨hpeer, h⟩ := h.require_bind
    obtain ⟨hcheckpoint, h⟩ := h.require_bind
    obtain ⟨_, hgate, h⟩ := h.bind
    obtain ⟨_, _, h⟩ := h.bind
    obtain ⟨answer, hasked, h⟩ := h.query_bind
    obtain ⟨resolved, hanswer, h⟩ := h.lift_bind
    obtain ⟨hnotAfter, h⟩ := h.require_bind
    obtain ⟨key, hkey, h⟩ := h.lift_bind
    obtain ⟨_, hverify, h⟩ := h.bind
    cases h.pure_eq
    rw [mapError_eq_ok.mp hanswer] at hasked
    exact ⟨recvFrame_ok hframe, hFinal_eq, hpeer, hcheckpoint, passDelegationGate_ok hgate,
      ⟨resolved, hasked, hnotAfter, okOr_eq_ok.mp hkey⟩, verifyFrame_ok hverify⟩
  | _ => exact h.not_fail.elim

theorem nonceArray_eq_some {nonce : List UInt8} {array : Vector UInt8 32}
    (h : nonceArray nonce = some array) : array.toList = nonce := by
  unfold nonceArray at h
  split_ifs at h with hlen
  cases h
  rfl

variable {intent : SignedMeshConnectionIntent}

theorem runCombinedIntentCheck_ok {d : Vector UInt8 32} {proofI : ProofI c.isPoint}
    {verifier : Key} {now : UInt64} {nonceKey : IntentNonceKey} {expiresAt : UInt64}
    (h : Ran (runCombinedIntentCheck c F inputs intent d proofI verifier now)
      (nonceKey, expiresAt) w) :
    IntentAccepted F inputs ⟨intent, d, proofI, verifier, nonceKey, expiresAt⟩ now w := by
  obtain ⟨_, hverify, h⟩ := h.bind
  obtain ⟨hkeyId, h⟩ := h.require_bind
  obtain ⟨hdigest, h⟩ := h.require_bind
  obtain ⟨⟨hhh, hm, hcert, htarget⟩, h⟩ := h.require_bind
  obtain ⟨hnotAfter, h⟩ := h.require_bind
  obtain ⟨hexpiry, h⟩ := h.require_bind
  obtain ⟨nonce, hnonce, h⟩ := h.lift_bind
  cases h.pure_eq
  exact {
    verified := verifyIntentRecord_ok hverify
    keyId_eq := hkeyId
    digest_eq := hdigest
    initiator_eq := ⟨hhh, hm, hcert⟩
    target_eq := htarget
    notAfter_le := hnotAfter
    expiresAt_eq := rfl
    unexpired := hexpiry
    nonceKey_eq := ⟨rfl, rfl, rfl, nonceArray_eq_some (okOr_eq_ok.mp hnonce)⟩ }

theorem awaitIntent_ok {d : Vector UInt8 32} (h : Ran (awaitIntent c F) (intent, d) w) :
    (∃ plaintext, Received w plaintext ∧ decodeIntentRecord F c.toP256 plaintext = .ok intent) ∧
      ∃ input, intentDigestInput F intent = .ok input ∧ Digested c w input d := by
  obtain ⟨intent, hintent, h⟩ := h.bind
  obtain ⟨d, hdigest, h⟩ := h.bind
  obtain ⟨_, _, h⟩ := h.bind
  cases h.pure_eq
  obtain ⟨plaintext, hreceived, hintent⟩ := hintent.bind
  exact ⟨⟨plaintext, receivePlaintext_ok hreceived, mapError_eq_ok.mp hintent.lift_eq⟩,
    intentDigest_ok hdigest⟩

variable {a : AcceptedInitiator Key c.isPoint}

theorem acceptInitiator_ok (h : Ran (acceptInitiator c F inputs hFinal) a w) :
    InitiatorAccepted F inputs hFinal a w := by
  obtain ⟨⟨intent, received⟩, hintent, h⟩ := h.bind
  obtain ⟨⟨proofI, verifier⟩, hproof, h⟩ := h.bind
  obtain ⟨now, hnow, h⟩ := h.bind
  obtain ⟨⟨nonceKey, expiresAt⟩, hcombined, h⟩ := h.bind
  obtain ⟨_, _, h⟩ := h.bind
  cases h.pure_eq
  obtain ⟨hreceived, hdigested⟩ := awaitIntent_ok hintent
  exact ⟨hreceived, hdigested, awaitProofI_ok hproof, now, clockNow_ok hnow,
    runCombinedIntentCheck_ok hcombined⟩

theorem runXxHandshake_ok {role : Role}
    (h : Ran (runXxHandshake role : Ceremony Key c.isPoint _ _) hFinal w) :
    ⟨.getHandshakeHash, hFinal⟩ ∈ w := by
  obtain ⟨_, _, h⟩ := h.query_bind
  obtain ⟨_, h⟩ := h.require_bind
  obtain ⟨_, _, h⟩ := h.bind
  obtain ⟨_, _, h⟩ := h.query_bind
  obtain ⟨_, h⟩ := h.require_bind
  obtain ⟨hash, hhash, h⟩ := h.query_bind
  obtain ⟨_, _, h⟩ := h.query_bind
  obtain ⟨_, h⟩ := h.require_bind
  rwa [h.pure_eq]

theorem openCeremony_ok {role : Role} {handshaken : Handshaken}
    (h : Ran (openCeremony c inputs role) handshaken w) :
    ⟨.getHandshakeHash, handshaken.hFinal⟩ ∈ w := by
  obtain ⟨_, _, h⟩ := h.bind
  obtain ⟨rekey, _, h⟩ := h.bind
  obtain ⟨hFinal, hhash, h⟩ := h.bind
  obtain ⟨_, _, h⟩ := h.bind
  cases h.pure_eq
  exact runXxHandshake_ok hhash.adapt

/-- What the responder met before it consumes the nonce. -/
theorem meetInitiator_ok {handshaken : Handshaken}
    (h : Ran (meetInitiator c F inputs) (handshaken, a) w) :
    ⟨.getHandshakeHash, handshaken.hFinal⟩ ∈ w ∧
      InitiatorAccepted F inputs handshaken.hFinal a w := by
  obtain ⟨_, _, h⟩ := h.bind
  obtain ⟨_, h⟩ := h.require_bind
  obtain ⟨handshaken, hopen, h⟩ := h.bind
  obtain ⟨_, _, h⟩ := h.bind
  obtain ⟨a, haccept, h⟩ := h.bind
  cases h.pure_eq
  exact ⟨openCeremony_ok hopen, acceptInitiator_ok haccept⟩

variable (F inputs) in
/-- The activation passed every check, against the confirmation that was sent. -/
structure ActivateAccepted (hFinal : List UInt8) (a : AcceptedInitiator Key c.isPoint)
    (finalConfirm : FinalConfirm) (activate : Activate) (w : c.Transcript) :
    Prop where
  sent : ∃ w₁ w₂ w₃, w = w₁ ++ w₂ ++ w₃ ∧ RecordWritten F (.finalConfirm finalConfirm) w₂
  confirms : finalConfirm.1.hFinal = hFinal ∧ finalConfirm.1.initiatorMId = a.proofI.1.selfMId ∧
    finalConfirm.1.initiatorCertFingerprint = a.proofI.1.selfCertFingerprint ∧
    finalConfirm.1.responderMId = inputs.localIdentity.mId
  received : ReceivedFrame F w (.activate activate)
  hFinal_eq : activate.1.hFinal = hFinal
  responder_eq : activate.1.responderMId = inputs.localIdentity.mId
  digest_eq : ∃ input d, (AuthFrame.finalConfirm finalConfirm).digestInput F = .ok input ∧
    Digested c w input d ∧ activate.1.finalConfirmDigest = d.toList
  verified : Verified c F w a.verifier (.frame (.activate activate))

theorem confirmInitiator_ok {finalConfirm : FinalConfirm} {activate : Activate}
    (h : Ran (confirmInitiator c F inputs hFinal a) (finalConfirm, activate) w) :
    ActivateAccepted F inputs hFinal a finalConfirm activate w := by
  obtain ⟨_, _, h⟩ := h.bind
  obtain ⟨unsigned, hunsigned, h⟩ := h.lift_bind
  obtain ⟨signature, _, h⟩ := h.bind
  obtain ⟨_, ⟨record, hsent, before, after, hw⟩, h⟩ := h.bind
  obtain ⟨_, _, h⟩ := h.bind
  obtain ⟨frame, hframe, h⟩ := h.bind
  have hunsigned := validate_eq_ok.mp hunsigned
  cases frame with
  | activate activate =>
    obtain ⟨hFinal_eq, h⟩ := h.require_bind
    obtain ⟨hresponder, h⟩ := h.require_bind
    obtain ⟨d, hdigest, h⟩ := h.bind
    obtain ⟨hd, h⟩ := h.require_bind
    obtain ⟨_, hverify, h⟩ := h.bind
    obtain ⟨_, _, h⟩ := h.bind
    cases h.pure_eq
    obtain ⟨input, hinput, hdigested⟩ := frameDigest_ok hdigest
    exact {
      sent := ⟨before, record, after, hw.symm, sendFrame_ok hsent⟩
      confirms := by simp [FinalConfirm.withSig, hunsigned]
      received := recvFrame_ok hframe
      hFinal_eq := hFinal_eq
      responder_eq := hresponder
      digest_eq := ⟨input, d, hinput, hdigested, hd⟩
      verified := verifyFrame_ok hverify }
  | _ => exact h.not_fail.elim

variable {pendingIntent : PendingIntent}

variable (F inputs pendingIntent) in
/-- The responder passed every check of the initiator. -/
structure ResponderAccepted (hFinal : List UInt8) (a : AcceptedResponder Key c.isPoint)
    (w : c.Transcript) : Prop where
  received : ReceivedFrame F w (.proofR a.proofR)
  hFinal_eq : a.proofR.1.hFinal = hFinal
  /-- The responder is the machine the intent is for. -/
  peer_eq : a.proofR.1.hhId = pendingIntent.intent.1.hhId ∧
    a.proofR.1.selfMId = pendingIntent.intent.1.targetMId ∧
    a.proofR.1.selfCertFingerprint = pendingIntent.intent.1.targetCertFingerprint
  checkpoint_eq : a.proofR.1.checkpointHash = inputs.checkpoint.hash ∧
    a.proofR.1.checkpointSequence = inputs.checkpoint.sequence ∧
    a.proofR.1.checkpointEventHead = inputs.checkpoint.eventHead ∧
    a.proofR.1.checkpointNotAfter = inputs.checkpoint.notAfter
  delegation : DelegationAccepted a.proofR.1.delegation inputs.policy
    ⟨a.proofR.1.hhId, inputs.localIdentity.hhId, a.proofR.1.selfMId,
      a.proofR.1.selfCertFingerprint⟩ inputs.expectedChannel w
  key_eq : c.fromSec1Bytes a.proofR.1.delegation.1.delegatedPub = some a.verifier
  verified : Verified c F w a.verifier (.frame (.proofR a.proofR))
  expiresAt_eq : a.expiresAt = effectiveExpiresAt inputs.checkpoint.notAfter
    inputs.localIdentity.delegation.1.notAfter a.proofR.1.delegation.1.notAfter
    inputs.leaseExpiresAt inputs.ingressEvidence.ingressExpiry pendingIntent.intent.1.notAfter

variable {hFinal : List UInt8} {a : AcceptedResponder Key c.isPoint}

theorem acceptResponder_ok (h : Ran (acceptResponder c F inputs pendingIntent hFinal) a w) :
    ResponderAccepted F inputs pendingIntent hFinal a w := by
  obtain ⟨⟨proofR, verifier⟩, hproof, h⟩ := h.bind
  obtain ⟨now, _, h⟩ := h.bind
  obtain ⟨_, h⟩ := h.require_bind
  cases h.pure_eq
  obtain ⟨frame, hframe, h⟩ := hproof.bind
  cases frame with
  | proofR proofR =>
    obtain ⟨hFinal_eq, h⟩ := h.require_bind
    obtain ⟨hpeer, h⟩ := h.require_bind
    obtain ⟨hcheckpoint, h⟩ := h.require_bind
    obtain ⟨_, hgate, h⟩ := h.bind
    obtain ⟨key, hkey, h⟩ := h.lift_bind
    obtain ⟨_, hverify, h⟩ := h.bind
    cases h.pure_eq
    exact ⟨recvFrame_ok hframe, hFinal_eq, hpeer, hcheckpoint, passDelegationGate_ok hgate,
      okOr_eq_ok.mp hkey, verifyFrame_ok hverify, rfl⟩
  | _ => exact h.not_fail.elim

theorem verifyBindsTo_ok {u : Unit} (h : Ran (verifyBindsTo c F inputs pendingIntent) u w) :
    pendingIntent.intent.1.notAfter ≤ inputs.localIdentity.delegation.1.notAfter := by
  obtain ⟨_, _, h⟩ := h.query_bind
  obtain ⟨_, h⟩ := h.require_bind
  obtain ⟨_, h⟩ := h.require_bind
  obtain ⟨_, _, h⟩ := h.bind
  obtain ⟨_, h⟩ := h.require_bind
  exact h.require_bind.1

variable {activate : Activate}

variable (F inputs pendingIntent) in
/-- A confirmation of the handshake that names both machines was verified. -/
structure ConfirmAccepted (hFinal : List UInt8) (verifier : Key) (finalConfirm : FinalConfirm)
    (w : c.Transcript) : Prop where
  hFinal_eq : finalConfirm.1.hFinal = hFinal
  names_eq : finalConfirm.1.initiatorMId = inputs.localIdentity.mId ∧
    finalConfirm.1.initiatorCertFingerprint = inputs.localIdentity.certFingerprint ∧
    finalConfirm.1.responderMId = pendingIntent.intent.1.targetMId
  verified : Verified c F w verifier (.frame (.finalConfirm finalConfirm))

theorem awaitFinalConfirm_ok {verifier : Key} {finalConfirm : FinalConfirm}
    (h : Ran (awaitFinalConfirm c F inputs pendingIntent hFinal verifier) finalConfirm w) :
    ConfirmAccepted F inputs pendingIntent hFinal verifier finalConfirm w := by
  obtain ⟨frame, _, h⟩ := h.bind
  cases frame with
  | finalConfirm _ =>
    obtain ⟨hFinal_eq, h⟩ := h.require_bind
    obtain ⟨hnames, h⟩ := h.require_bind
    obtain ⟨_, hverify, h⟩ := h.bind
    obtain ⟨_, _, h⟩ := h.bind
    cases h.pure_eq
    exact ⟨hFinal_eq, hnames, verifyFrame_ok hverify⟩
  | _ => exact h.not_fail.elim

theorem prepareActivate_ok {finalConfirm : FinalConfirm} {expiresAt : UInt64}
    (h : Ran (prepareActivate c F pendingIntent hFinal finalConfirm expiresAt) activate w) :
    ∃ input d, (AuthFrame.finalConfirm finalConfirm).digestInput F = .ok input ∧
      Digested c w input d ∧ activate.1.finalConfirmDigest = d.toList := by
  obtain ⟨d, hdigest, h⟩ := h.bind
  obtain ⟨unsigned, hunsigned, h⟩ := h.lift_bind
  obtain ⟨signature, _, h⟩ := h.bind
  obtain ⟨_, _, h⟩ := h.bind
  obtain ⟨_, h⟩ := h.require_bind
  cases h.pure_eq
  obtain ⟨input, hinput, hdigested⟩ := frameDigest_ok hdigest
  exact ⟨input, d, hinput, hdigested, by simp [Activate.withSig, validate_eq_ok.mp hunsigned]⟩

variable {handshaken : Handshaken}

theorem meetResponder_parts
    (h : Ran (meetResponder c F inputs pendingIntent) (handshaken, a, activate) w) :
    Ran (verifyBindsTo c F inputs pendingIntent) () w ∧
      Ran (openCeremony c inputs .initiator) handshaken w ∧
      Ran (acceptResponder c F inputs pendingIntent handshaken.hFinal) a w ∧
      ∃ finalConfirm,
        Ran (awaitFinalConfirm c F inputs pendingIntent handshaken.hFinal a.verifier)
          finalConfirm w ∧
        Ran (prepareActivate c F pendingIntent handshaken.hFinal finalConfirm a.expiresAt)
          activate w := by
  obtain ⟨_, _, h⟩ := h.bind
  obtain ⟨_, h⟩ := h.require_bind
  obtain ⟨_, hbinds, h⟩ := h.bind
  obtain ⟨handshaken, hopened, h⟩ := h.bind
  obtain ⟨a, haccepted, h⟩ := h.bind
  obtain ⟨_, _, h⟩ := h.bind
  obtain ⟨finalConfirm, hconfirm, h⟩ := h.bind
  obtain ⟨_, hactivate, h⟩ := h.bind
  cases h.pure_eq
  exact ⟨hbinds, hopened, haccepted, finalConfirm, hconfirm, hactivate⟩

/-- What the initiator met before it reserves an admission. -/
theorem meetResponder_ok
    (h : Ran (meetResponder c F inputs pendingIntent) (handshaken, a, activate) w) :
    pendingIntent.intent.1.notAfter ≤ inputs.localIdentity.delegation.1.notAfter ∧
      ⟨.getHandshakeHash, handshaken.hFinal⟩ ∈ w ∧
      ResponderAccepted F inputs pendingIntent handshaken.hFinal a w := by
  obtain ⟨hbinds, hopened, haccepted, _⟩ := meetResponder_parts h
  exact ⟨verifyBindsTo_ok hbinds, openCeremony_ok hopened, acceptResponder_ok haccepted⟩

variable (F pendingIntent) in
/-- An acknowledgement of the activation was received and verified. -/
structure AckAccepted (hFinal : List UInt8) (activate : Activate) (verifier : Key)
    (activateAck : ActivateAck) (w : c.Transcript) : Prop where
  received : ReceivedFrame F w (.activateAck activateAck)
  hFinal_eq : activateAck.1.hFinal = hFinal
  responder_eq : activateAck.1.responderMId = pendingIntent.intent.1.targetMId
  digest_eq : ∃ input d, (AuthFrame.activate activate).digestInput F = .ok input ∧
    Digested c w input d ∧ activateAck.1.activateDigest = d.toList
  verified : Verified c F w verifier (.frame (.activateAck activateAck))

theorem exchangeAck_ok {verifier : Key} {u : Unit}
    (h : Ran (exchangeAck c F pendingIntent hFinal activate verifier) u w) :
    ∃ activateAck, AckAccepted F pendingIntent hFinal activate verifier activateAck w := by
  obtain ⟨_, _, h⟩ := h.bind
  obtain ⟨frame, hframe, h⟩ := h.bind
  cases frame with
  | activateAck activateAck =>
    obtain ⟨hFinal_eq, h⟩ := h.require_bind
    obtain ⟨hresponder, h⟩ := h.require_bind
    obtain ⟨d, hdigest, h⟩ := h.bind
    obtain ⟨hd, h⟩ := h.require_bind
    obtain ⟨input, hinput, hdigested⟩ := frameDigest_ok hdigest
    exact ⟨activateAck, recvFrame_ok hframe, hFinal_eq, hresponder,
      ⟨input, d, hinput, hdigested, hd⟩, verifyFrame_ok h⟩
  | _ => exact h.not_fail.elim

end

section

/-- What is kept of a run. -/
inductive CeremonyNote where
  | hashed (input : List UInt8)
  | clock (now : UInt64)
  | begins (notBefore : UInt64)
  deriving DecidableEq

/-- A digest that is computed, a time that is read, or the beginning of a delegation that is
verified. -/
def ceremonyNote {Key : Type} {isPoint : List UInt8 → Bool} :
    Exchange (@Answer Key isPoint) → Option CeremonyNote
  | ⟨.sha256 input, _⟩ => some (.hashed input)
  | ⟨.now, .ok now⟩ => some (.clock now)
  | ⟨.verifyDelegation delegation, _⟩ => some (.begins delegation.1.notBefore)
  | _ => none

/-- Operations that accept every key and signature, and a digest of the first byte. -/
def openCrypto : Crypto Unit where
  toP256 := openP256
  toEncodedPoint _ := List.replicate 33 2
  sha256 input := Vector.replicate 32 (input.headD 0)

/-- A delegation of a machine with a certificate of one repeated byte, valid from 100 to 200. -/
def quietDelegation (mId : String) (certByte : UInt8) : MeshSessionDelegation openCrypto.isPoint where
  val :=
    { version := delegationVersion, kind := delegationKind, domain := delegationDomain
      hhId := "hh", delegatorMId := mId, delegatorCertFingerprint := List.replicate 32 certByte
      delegatedPub := List.replicate 33 2, delegatedKeyId := "k", profile := delegationProfile
      transcriptKinds := expectedTranscriptKinds, roles := expectedDelegationRoles
      channel := "dev", serial := 1, notBefore := 100, notAfter := 200, sig := placeholderSig }
  property := by
    simp [DelegationWire.validateShape, eq_ok_iff, placeholderSig]
    rfl

/-- A responder `r` that accepts sessions up to time 150. -/
def quietInputs : CeremonyInputs openCrypto.isPoint where
  ingressEvidence := ⟨0, 150⟩
  localIdentity := ⟨"hh", "r", List.replicate 32 2, quietDelegation "r" 2⟩
  checkpoint := ⟨List.replicate 32 3, 1, List.replicate 32 4, 150⟩
  expectedChannel := .dev
  policy := ⟨100⟩
  leaseExpiresAt := 150
  rekeyThreshold := ⟨⟨4, by decide⟩⟩

def quietHFinal : List UInt8 := List.replicate 32 0

/-- The intent of machine `i` to reach `r`. -/
def quietIntent : SignedMeshConnectionIntent where
  val :=
    { version := intentVersion, domain := intentDomain, hhId := "hh", initiatorMId := "i"
      initiatorCertFingerprint := List.replicate 32 1, targetMId := "r"
      targetCertFingerprint := List.replicate 32 2, checkpointHash := List.replicate 32 3
      delegatedKeyId := "k", nonce := List.replicate 32 9, notAfter := 150, sig := placeholderSig }
  property := by decide

def quietProofI : ProofI openCrypto.isPoint where
  val :=
    { protocolVersion, domain, role := roleInitiator, hFinal := quietHFinal, hhId := "hh"
      selfMId := "i", expectedPeerMId := "r", selfCertFingerprint := List.replicate 32 1
      expectedPeerCertFingerprint := List.replicate 32 2, checkpointHash := List.replicate 32 3
      checkpointSequence := 1, checkpointEventHead := List.replicate 32 4
      checkpointNotAfter := 150, delegation := quietDelegation "i" 1
      connectionIntentDigest := Vector.replicate 32 0x73, sig := placeholderSig }
  property := by decide

/-- Formats over the library with shortest encodings, nested up to eight deep. -/
abbrev quietFormats : Formats openCrypto.isPoint := cursorFormats openCrypto.isPoint 8

theorem quietFormats_lawful : quietFormats.Lawful (8 : ℕ) :=
  cursorFormats_lawful openCrypto.isPoint (by decide)

/-- A signature of zeros. -/
def quietSignature : SignatureBytes := Vector.replicate 64 0

/-- The counters of a new session. -/
def quietRekey : SessionRekeyState :=
  ⟨⟨Vector.replicate 32 0, 0, 0, quietInputs.rekeyThreshold⟩,
    ⟨Vector.replicate 32 0, 0, 0, quietInputs.rekeyThreshold⟩⟩

/-- What the responder holds of the initiator `i`. -/
def quietAccepted : AcceptedInitiator Unit openCrypto.isPoint where
  intent := quietIntent
  intentDigest := Vector.replicate 32 0x73
  proofI := quietProofI
  verifier := ()
  nonceKey := ⟨"hh", "i", "k", Vector.replicate 32 9⟩
  expiresAt := 150

/-- The session `r` holds with `i`. -/
def quietSession : ActiveMeshSession :=
  responderSession openCrypto quietInputs ⟨quietRekey, quietHFinal⟩ quietAccepted

/-- The records that the initiator sends. -/
def quietRecords : List (List UInt8) :=
  [(encodeIntentRecord quietFormats quietIntent).toOption,
    (encodeAuthFrame quietFormats (.proofI quietProofI)).toOption,
    (do encodeAuthFrame quietFormats (.activate (← Activate.new quietHFinal "r"
      (List.replicate 32 typeFinalConfirm) placeholderSig))).toOption].filterMap id

/-- A stream that gives and takes what it is asked for, a peer that sends the given records and
collaborators that agree, at one time. -/
def quietEnvironment (records : List (List UInt8)) (now : UInt64) :
    Environment (@Answer Unit openCrypto.isPoint)
  | _, .remaining => 1
  | _, .armIoDeadline _ | _, .buildHandshakeState _ | _, .isHandshakeFinished
  | _, .intoTransportMode => true
  | _, .read len => some ⟨List.replicate len 0, (List.length_replicate ..).le⟩
  | _, .write _ => some (Fin.last _)
  | _, .writeHandshakeMessage | _, .writeMessage _ => some []
  | _, .readHandshakeMessage _ => some 0
  | _, .getHandshakeHash => quietHFinal
  | t, .readMessage _ => records[t.countP fun e => e.1 matches .readMessage _]?
  | _, .freshRekeyStateId => some (Vector.replicate 32 0)
  | _, .publicKey => ()
  | _, .signMeshSessionFrame _ => .ok quietSignature
  | _, .verifyDelegation _ => .ok ()
  | _, .resolve _ _ _ _ => .ok ⟨List.replicate 33 2, 0, 200⟩
  | _, .consume _ _ _ _ => .ok .committed
  | _, .now => .ok now
  | _, .reservePending _ => .ok 0
  | _, .commitAfterAck _ | _, .verify _ _ _ | _, .sha256 _ => ()
  | _, .cancelBeforeAck _ => .cancelledAndRemoved

/-- Two notes are digests of different inputs that collide. -/
def CeremonyNote.collides : CeremonyNote → CeremonyNote → Bool
  | .hashed input, .hashed input' =>
    input ≠ input' ∧ openCrypto.sha256 input = openCrypto.sha256 input'
  | _, _ => false

/-- What is kept of a run is one time, delegations that begin at 100, and digests that do not
collide. -/
abbrev QuietNotes (now : UInt64) (notes : List CeremonyNote) : Prop :=
  .clock now ∈ notes ∧ (∀ n ∈ notes, n matches .hashed _ ∨ n = .begins 100 ∨ n = .clock now) ∧
    ∀ n ∈ notes, ∀ n' ∈ notes, n.collides n' = false

/-- A ceremony ends with the session. -/
abbrev QuietRun (x : Ceremony Unit openCrypto.isPoint AuthFrameError ActiveMeshSession)
    (now : UInt64) : Prop :=
  (run (quietEnvironment quietRecords now) [] x).1.toOption = some quietSession ∧
    QuietNotes now ((run (quietEnvironment quietRecords now) [] x).2.filterMap ceremonyNote)

/-- The sort behind the comparison of string sets does not reduce, a permutation does. -/
theorem stringSetMatchesExactly_eq :
    stringSetMatchesExactly = fun actual expected => decide (actual.Perm expected) := by
  funext actual expected
  rw [Bool.eq_iff_iff, stringSetMatchesExactly_iff, decide_eq_true_iff]

theorem quietRun :
    QuietRun (runResponderHandshake openCrypto quietFormats quietInputs) 50 ∧
      QuietRun (runResponderHandshake openCrypto quietFormats quietInputs) 120 := by
  have hprogram : ∃ x, runResponderHandshake openCrypto quietFormats quietInputs = x ∧
      QuietRun x 50 ∧ QuietRun x 120 := by
    apply Exists.intro
    refine ⟨?_, ?_, ?_⟩
    · delta runResponderHandshake meetInitiator acceptInitiator awaitProofI passDelegationGate
      rw [stringSetMatchesExactly_eq]
    · decide +kernel
    · decide +kernel
  obtain ⟨x, hx, hfacts⟩ := hprogram
  rw [hx]
  exact hfacts

/-- The responder's ceremony, before its delegations begin and after. -/
theorem exists_quiet_run {now : UInt64} (hnow : now = 50 ∨ now = 120) :
    ∃ w, Yields (runResponderHandshake openCrypto quietFormats quietInputs) (.ok quietSession) w ∧
      QuietNotes now (w.filterMap ceremonyNote) := by
  have hquiet : QuietRun (runResponderHandshake openCrypto quietFormats quietInputs) now := by
    rcases hnow with rfl | rfl
    · exact quietRun.1
    · exact quietRun.2
  obtain ⟨hsession, hnotes⟩ := hquiet
  have hrun := run_yields (quietEnvironment quietRecords now) []
    (runResponderHandshake openCrypto quietFormats quietInputs)
  generalize run (quietEnvironment quietRecords now) []
    (runResponderHandshake openCrypto quietFormats quietInputs) = outcome at hsession hnotes hrun
  obtain ⟨_ | session, w⟩ := outcome
  · cases hsession
  · cases Option.some.inj hsession
    exact ⟨w, hrun, hnotes⟩

end

end Theyos.MeshSession

import Theyos.Models.MeshSession.Wire.Canonical
import Theyos.Models.MeshSession.Wire.Frame

/-!
# The schemas of delegations, frames and intents

The derived CBOR shape of each type, field by field in the source's order. Byte
fields go through a byte buffer and lists of texts through a sequence, so the
readers coerce as the libraries do; the writers never need it, since every byte
field has a positive fixed size.
-/

namespace Theyos.MeshSession

open Cbor Machine

namespace Schema

/-- The fields of a delegation. -/
def delegationFields : Fields DelegationWire :=
  (Fields.cons "version" .u64 <| .cons "kind" .text <| .cons "domain" .text <|
    .cons "hh_id" .text <| .cons "delegator_m_id" .text <|
    .cons "delegator_cert_fingerprint" .byteBuf <| .cons "delegated_pub" .byteBuf <|
    .cons "delegated_key_id" .text <| .cons "profile" .text <|
    .cons "transcript_kinds" (.seq .text) <| .cons "roles" (.seq .text) <|
    .cons "channel" .text <| .cons "serial" .u64 <| .cons "not_before" .u64 <|
    .cons "not_after" .u64 <| .cons "sig" .byteBuf .nil).equiv
    (fun d => (d.version, d.kind, d.domain, d.hhId, d.delegatorMId, d.delegatorCertFingerprint,
      d.delegatedPub, d.delegatedKeyId, d.profile, d.transcriptKinds, d.roles, d.channel,
      d.serial, d.notBefore, d.notAfter, d.sig, ()))
    (uncurry DelegationWire.mk) fun _ => rfl

theorem delegationFields_faithful : delegationFields.Faithful := by
  have htexts := Codec.Faithful.text.seq fun _ => rfl
  exact .equiv (by repeat' first | apply Fields.Faithful.cons | simp [htexts]) fun _ => rfl

/-- Delegations whose shape was checked. -/
def delegation (isPoint : List UInt8 → Bool) : Codec (MeshSessionDelegation isPoint) :=
  (Codec.struct delegationFields (by decide)).checked (DelegationWire.validateShape isPoint)

theorem delegation_faithful (isPoint : List UInt8 → Bool) : (delegation isPoint).Faithful :=
  (Codec.Faithful.struct delegationFields_faithful (by decide)).checked _

theorem delegation_direct {isPoint : List UInt8 → Bool} (d : MeshSessionDelegation isPoint) :
    Direct ((delegation isPoint).enc d) := by
  have hfields : delegationFields.AllDirect d.1 := by simp [delegationFields, d.sizes]
  exact .map hfields

variable (isPoint : List UInt8 → Bool)

/-- The fields of the responder's proof. -/
def proofRFields : Fields (ProofRWire isPoint) :=
  (Fields.cons "protocol_version" .u64 <| .cons "domain" .text <| .cons "role" .text <|
    .cons "h_final" .byteBuf <| .cons "hh_id" .text <| .cons "self_m_id" .text <|
    .cons "self_cert_fingerprint" .byteBuf <| .cons "checkpoint_hash" .byteBuf <|
    .cons "checkpoint_sequence" .u64 <| .cons "checkpoint_event_head" .byteBuf <|
    .cons "checkpoint_not_after" .u64 <| .cons "delegation" (delegation isPoint) <|
    .cons "sig" .byteBuf .nil).equiv
    (fun f => (f.protocolVersion, f.domain, f.role, f.hFinal, f.hhId, f.selfMId,
      f.selfCertFingerprint, f.checkpointHash, f.checkpointSequence, f.checkpointEventHead,
      f.checkpointNotAfter, f.delegation, f.sig, ()))
    (uncurry ProofRWire.mk) fun _ => rfl

theorem proofRFields_nodup : (proofRFields isPoint).names.Nodup := by
  simp [proofRFields, Fields.equiv, Fields.cons, Fields.nil]

theorem proofRFields_faithful : (proofRFields isPoint).Faithful :=
  .equiv (by repeat' first | apply Fields.Faithful.cons | simp [delegation_faithful]) fun _ => rfl

/-- The responder's proof, with its checks. -/
def proofR : Codec (ProofR isPoint) :=
  (Codec.struct (proofRFields isPoint) (proofRFields_nodup isPoint)).checked (@ProofRWire.check isPoint)

/-- The fields of the initiator's proof. -/
def proofIFields : Fields (ProofIWire isPoint) :=
  (Fields.cons "protocol_version" .u64 <| .cons "domain" .text <| .cons "role" .text <|
    .cons "h_final" .byteBuf <| .cons "hh_id" .text <| .cons "self_m_id" .text <|
    .cons "expected_peer_m_id" .text <| .cons "self_cert_fingerprint" .byteBuf <|
    .cons "expected_peer_cert_fingerprint" .byteBuf <| .cons "checkpoint_hash" .byteBuf <|
    .cons "checkpoint_sequence" .u64 <| .cons "checkpoint_event_head" .byteBuf <|
    .cons "checkpoint_not_after" .u64 <| .cons "delegation" (delegation isPoint) <|
    .cons "connection_intent_digest" (.fixedBytes 32) <| .cons "sig" .byteBuf .nil).equiv
    (fun f => (f.protocolVersion, f.domain, f.role, f.hFinal, f.hhId, f.selfMId, f.expectedPeerMId,
      f.selfCertFingerprint, f.expectedPeerCertFingerprint, f.checkpointHash, f.checkpointSequence,
      f.checkpointEventHead, f.checkpointNotAfter, f.delegation, f.connectionIntentDigest, f.sig,
      ()))
    (uncurry ProofIWire.mk) fun _ => rfl

theorem proofIFields_nodup : (proofIFields isPoint).names.Nodup := by
  simp [proofIFields, Fields.equiv, Fields.cons, Fields.nil]

theorem proofIFields_faithful : (proofIFields isPoint).Faithful :=
  .equiv (by repeat' first | apply Fields.Faithful.cons | simp [delegation_faithful]) fun _ => rfl

/-- The initiator's proof, with its checks. -/
def proofI : Codec (ProofI isPoint) :=
  (Codec.struct (proofIFields isPoint) (proofIFields_nodup isPoint)).checked (@ProofIWire.check isPoint)

/-- The fields of the responder's confirmation. -/
def finalConfirmFields : Fields FinalConfirmWire :=
  (Fields.cons "protocol_version" .u64 <| .cons "domain" .text <| .cons "kind" .text <|
    .cons "h_final" .byteBuf <| .cons "initiator_m_id" .text <|
    .cons "initiator_cert_fingerprint" .byteBuf <| .cons "responder_m_id" .text <|
    .cons "sig" .byteBuf .nil).equiv
    (fun f => (f.protocolVersion, f.domain, f.kind, f.hFinal, f.initiatorMId,
      f.initiatorCertFingerprint, f.responderMId, f.sig, ()))
    (uncurry FinalConfirmWire.mk) fun _ => rfl

theorem finalConfirmFields_faithful : finalConfirmFields.Faithful :=
  .equiv (by repeat' first | apply Fields.Faithful.cons | simp) fun _ => rfl

/-- The responder's confirmation, with its checks. -/
def finalConfirm : Codec FinalConfirm :=
  (Codec.struct finalConfirmFields (by decide)).checked FinalConfirmWire.check

/-- The fields of the initiator's activation. -/
def activateFields : Fields ActivateWire :=
  (Fields.cons "protocol_version" .u64 <| .cons "domain" .text <| .cons "kind" .text <|
    .cons "h_final" .byteBuf <| .cons "responder_m_id" .text <|
    .cons "final_confirm_digest" .byteBuf <| .cons "sig" .byteBuf .nil).equiv
    (fun f => (f.protocolVersion, f.domain, f.kind, f.hFinal, f.responderMId, f.finalConfirmDigest,
      f.sig, ()))
    (uncurry ActivateWire.mk) fun _ => rfl

theorem activateFields_faithful : activateFields.Faithful :=
  .equiv (by repeat' first | apply Fields.Faithful.cons | simp) fun _ => rfl

/-- The initiator's activation, with its checks. -/
def activate : Codec Activate :=
  (Codec.struct activateFields (by decide)).checked ActivateWire.check

/-- The fields of the responder's acknowledgement. -/
def activateAckFields : Fields ActivateAckWire :=
  (Fields.cons "protocol_version" .u64 <| .cons "domain" .text <| .cons "kind" .text <|
    .cons "h_final" .byteBuf <| .cons "responder_m_id" .text <| .cons "activate_digest" .byteBuf <|
    .cons "sig" .byteBuf .nil).equiv
    (fun f => (f.protocolVersion, f.domain, f.kind, f.hFinal, f.responderMId, f.activateDigest,
      f.sig, ()))
    (uncurry ActivateAckWire.mk) fun _ => rfl

theorem activateAckFields_faithful : activateAckFields.Faithful :=
  .equiv (by repeat' first | apply Fields.Faithful.cons | simp) fun _ => rfl

/-- The responder's acknowledgement, with its checks. -/
def activateAck : Codec ActivateAck :=
  (Codec.struct activateAckFields (by decide)).checked ActivateAckWire.check

/-- The fields of the connection intent. -/
def intentFields : Fields SignedMeshConnectionIntentWire :=
  (Fields.cons "v" .u64 <| .cons "domain" .text <| .cons "hh_id" .text <|
    .cons "initiator_m_id" .text <| .cons "initiator_cert_fingerprint" .byteBuf <|
    .cons "target_m_id" .text <| .cons "target_cert_fingerprint" .byteBuf <|
    .cons "checkpoint_hash" .byteBuf <| .cons "delegated_key_id" .text <| .cons "nonce" .byteBuf <|
    .cons "not_after" .u64 <| .cons "sig" .byteBuf .nil).equiv
    (fun f => (f.version, f.domain, f.hhId, f.initiatorMId, f.initiatorCertFingerprint,
      f.targetMId, f.targetCertFingerprint, f.checkpointHash, f.delegatedKeyId, f.nonce,
      f.notAfter, f.sig, ()))
    (uncurry SignedMeshConnectionIntentWire.mk) fun _ => rfl

theorem intentFields_faithful : intentFields.Faithful :=
  .equiv (by repeat' first | apply Fields.Faithful.cons | simp) fun _ => rfl

/-- The connection intent, with its checks. -/
def intent : Codec SignedMeshConnectionIntent :=
  (Codec.struct intentFields (by decide)).checked SignedMeshConnectionIntentWire.check

end Schema

end Theyos.MeshSession

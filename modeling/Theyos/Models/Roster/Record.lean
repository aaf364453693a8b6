import Theyos.Core.Cbor.Deterministic
import Theyos.Models.Household.Certificate

/-!
# Roster members, revocations and checkpoints

The wire types of a household's machine roster with their canonical bytes, and the
hashes of revocations and checkpoints. A revocation's hash covers its signed part
only; a checkpoint's signed part holds its revocations whole, with their signatures.
-/

namespace Theyos.Roster

open Household Machine Cbor

/-- Why a machine was revoked. -/
inductive RevocationReason where
  | compromised
  | lost
  | retired
  | replaced
  | ownerAction
  deriving DecidableEq, Repr

/-- How far a revocation reaches. -/
inductive RevocationCascade where
  | machineOnly
  | machineAndDependents
  deriving DecidableEq, Repr

/-- A machine of the roster. -/
structure MachineRosterMemberV1 where
  mId : MachineId
  mPub : P256PublicKey
  machineCert : List UInt8
  machineCertFingerprint : Digest
  deriving DecidableEq, Repr

/-- The signed part of a revocation. -/
structure RevocationUnsigned where
  v : UInt8
  kind : String
  hhId : HouseholdId
  epoch : Digest
  sequence : UInt64
  prevEventHash : Digest
  mId : MachineId
  mPub : P256PublicKey
  machineCertFingerprint : Digest
  revokedAt : UInt64
  reason : RevocationReason
  cascade : RevocationCascade
  ownerPId : PersonId
  ownerCertFingerprint : Digest
  deriving DecidableEq, Repr

/-- A revocation, which stays as the tombstone of its machine. -/
structure MachineRosterRevocationV1 extends RevocationUnsigned where
  ownerPersonCert : List UInt8
  signature : P256Signature
  deriving DecidableEq, Repr

/-- The signed part of a checkpoint. -/
structure CheckpointUnsigned where
  v : UInt8
  kind : String
  hhId : HouseholdId
  epoch : Digest
  checkpointSequence : UInt64
  prevCheckpointHash : Digest
  eventSequence : UInt64
  eventHeadHash : Digest
  meshLogDigest : Digest
  issuedAt : UInt64
  notAfter : UInt64
  ownerPId : PersonId
  ownerCertFingerprint : Digest
  active : List MachineRosterMemberV1
  revocations : List MachineRosterRevocationV1
  deriving DecidableEq, Repr

/-- A signed state of the roster. -/
structure MachineRosterCheckpointV1 extends CheckpointUnsigned where
  ownerPersonCert : List UInt8
  signature : P256Signature
  deriving DecidableEq, Repr

namespace Schema

/-- Household identifiers. -/
def householdId : Codec HouseholdId :=
  Codec.text.equiv HouseholdId.asStr HouseholdId.mk fun _ => rfl

/-- Machine identifiers. -/
def machineId : Codec MachineId := Codec.text.equiv MachineId.asStr MachineId.mk fun _ => rfl

/-- Person identifiers. -/
def personId : Codec PersonId := Codec.text.equiv PersonId.asStr PersonId.mk fun _ => rfl

/-- Hashes and fingerprints. -/
def digest : Codec Digest := .byteArray 32

/-- Public keys. -/
def publicKey : Codec P256PublicKey := .byteArray 33

/-- Signatures. -/
def signature : Codec P256Signature := .byteArray 64

/-- Reasons, by number. -/
def revocationReason : Codec RevocationReason :=
  .numbers
    (fun
      | .compromised => 0
      | .lost => 1
      | .retired => 2
      | .replaced => 3
      | .ownerAction => 4)
    [.compromised, .lost, .retired, .replaced, .ownerAction] (fun a => by cases a <;> decide)
    fun a b h => by cases a <;> cases b <;> first | rfl | exact absurd h (by decide)

/-- Cascades, by number. -/
def revocationCascade : Codec RevocationCascade :=
  .numbers
    (fun
      | .machineOnly => 0
      | .machineAndDependents => 1)
    [.machineOnly, .machineAndDependents] (fun a => by cases a <;> decide)
    fun a b h => by cases a <;> cases b <;> first | rfl | exact absurd h (by decide)

/-- Members. -/
def member : Codec MachineRosterMemberV1 :=
  (Codec.struct
    (.cons "m_id" machineId <| .cons "m_pub" publicKey <| .cons "machine_cert" .bytes <|
      .cons "machine_cert_fingerprint" digest .nil)
    (by decide)).equiv
    (fun x => (x.mId, x.mPub, x.machineCert, x.machineCertFingerprint, ()))
    (uncurry MachineRosterMemberV1.mk) fun _ => rfl

/-- The fields of a revocation's signed part, before others. -/
def revocationFields {α : Type} (rest : Fields α) : Fields (RevocationUnsigned × α) :=
  (Fields.cons "v" .u8 <| .cons "kind" .text <| .cons "hh_id" householdId <|
    .cons "epoch" digest <| .cons "sequence" .u64 <| .cons "prev_event_hash" digest <|
    .cons "m_id" machineId <| .cons "m_pub" publicKey <|
    .cons "machine_cert_fingerprint" digest <| .cons "revoked_at" .u64 <|
    .cons "reason" revocationReason <| .cons "cascade" revocationCascade <|
    .cons "owner_p_id" personId <| .cons "owner_cert_fingerprint" digest rest).equiv
    (fun (x, rest) => (x.v, x.kind, x.hhId, x.epoch, x.sequence, x.prevEventHash, x.mId, x.mPub,
      x.machineCertFingerprint, x.revokedAt, x.reason, x.cascade, x.ownerPId,
      x.ownerCertFingerprint, rest))
    (uncurry RevocationUnsigned.mk) fun _ => rfl

/-- The signed part of a revocation. -/
def revocationUnsigned : Codec RevocationUnsigned :=
  (Codec.struct (revocationFields .nil) (by decide)).equiv (·, ()) Prod.fst fun _ => rfl

/-- The owner's certificate and signature, which follow every signed part. -/
def signedFields : Fields (List UInt8 × P256Signature × Unit) :=
  .cons "owner_person_cert" .bytes <| .cons "signature" signature .nil

/-- Revocations. -/
def revocation : Codec MachineRosterRevocationV1 :=
  (Codec.struct (revocationFields signedFields) (by decide)).equiv
    (fun x => (x.toRevocationUnsigned, x.ownerPersonCert, x.signature, ()))
    (uncurry MachineRosterRevocationV1.mk) fun _ => rfl

/-- The fields of a checkpoint's signed part, before others. -/
def checkpointFields {α : Type} (rest : Fields α) : Fields (CheckpointUnsigned × α) :=
  (Fields.cons "v" .u8 <| .cons "kind" .text <| .cons "hh_id" householdId <|
    .cons "epoch" digest <| .cons "checkpoint_sequence" .u64 <|
    .cons "prev_checkpoint_hash" digest <| .cons "event_sequence" .u64 <|
    .cons "event_head_hash" digest <| .cons "mesh_log_digest" digest <| .cons "issued_at" .u64 <|
    .cons "not_after" .u64 <| .cons "owner_p_id" personId <|
    .cons "owner_cert_fingerprint" digest <| .cons "active" (.array member) <|
    .cons "revocations" (.array revocation) rest).equiv
    (fun (x, rest) => (x.v, x.kind, x.hhId, x.epoch, x.checkpointSequence, x.prevCheckpointHash,
      x.eventSequence, x.eventHeadHash, x.meshLogDigest, x.issuedAt, x.notAfter, x.ownerPId,
      x.ownerCertFingerprint, x.active, x.revocations, rest))
    (uncurry CheckpointUnsigned.mk) fun _ => rfl

/-- The signed part of a checkpoint. -/
def checkpointUnsigned : Codec CheckpointUnsigned :=
  (Codec.struct (checkpointFields .nil) (by decide)).equiv (·, ()) Prod.fst fun _ => rfl

/-- Checkpoints. -/
def checkpoint : Codec MachineRosterCheckpointV1 :=
  (Codec.struct (checkpointFields signedFields) (by decide)).equiv
    (fun x => (x.toCheckpointUnsigned, x.ownerPersonCert, x.signature, ()))
    (uncurry MachineRosterCheckpointV1.mk) fun _ => rfl

end Schema

/-- Why a signed object is refused. -/
inductive RosterCryptoError where
  | cborEncode
  | cborDecode
  | signatureRejected
  | schemaInvalid
  | certDecode
  | certNotCanonical
  | ownerCertInvalid
  | weakProvenance
  | householdMismatch
  | ownerIdMismatch
  | ownerPubMismatch
  | missingCaveatAddMachine
  | missingCaveatRevoke
  | fingerprintMismatch
  | machineCertInvalid
  | machineCertNotCanonical
  | machineIdMismatch
  | machinePubMismatch
  | machineFingerprintMismatch
  | machineHouseholdMismatch
  deriving DecidableEq, Repr

/-- The kind every revocation names. -/
def revocationKind : String := "household-machine-roster-revocation/v1"

/-- The kind every checkpoint names. -/
def checkpointKind : String := "household-machine-roster-checkpoint/v1"

/-- What precedes the signed part of a revocation. -/
def revocationDomain : List UInt8 :=
  textBytes "soyeht/household-machine-roster-revocation/v1" ++ [0]

/-- What precedes the signed part of a checkpoint. -/
def checkpointDomain : List UInt8 :=
  textBytes "soyeht/household-machine-roster-checkpoint/v1" ++ [0]

/-- Check a revocation's version and kind. -/
def checkRevocationSchema (r : MachineRosterRevocationV1) : Except RosterCryptoError Unit :=
  require (r.v = 1 ∧ r.kind = revocationKind) .schemaInvalid

/-- Check a checkpoint's version and kind. -/
def checkCheckpointSchema (c : MachineRosterCheckpointV1) : Except RosterCryptoError Unit :=
  require (c.v = 1 ∧ c.kind = checkpointKind) .schemaInvalid

/-- The bytes a revocation's signature covers. -/
def revocationPreimage (r : MachineRosterRevocationV1) :
    Except RosterCryptoError (List UInt8) := do
  checkRevocationSchema r
  let cborBytes ← okOr (Schema.revocationUnsigned.toCanonicalVec r.toRevocationUnsigned) .cborEncode
  return revocationDomain ++ cborBytes

/-- The bytes a checkpoint's signature covers. -/
def checkpointPreimage (c : MachineRosterCheckpointV1) :
    Except RosterCryptoError (List UInt8) := do
  checkCheckpointSchema c
  let cborBytes ← okOr (Schema.checkpointUnsigned.toCanonicalVec c.toCheckpointUnsigned) .cborEncode
  return checkpointDomain ++ cborBytes

/-- The preimage of a revocation determines its signed part. -/
theorem revocationPreimage_inj {r s : MachineRosterRevocationV1} {data : List UInt8}
    (hr : revocationPreimage r = .ok data) (hs : revocationPreimage s = .ok data) :
    r.toRevocationUnsigned = s.toRevocationUnsigned := by
  simp only [revocationPreimage, eq_ok_iff] at hr hs
  obtain ⟨_, cbor, hcbor, rfl⟩ := hr
  obtain ⟨_, cbor', hcbor', heq⟩ := hs
  rw [List.append_cancel_left heq] at hcbor'
  exact Schema.revocationUnsigned.toCanonicalVec_inj hcbor hcbor'

section

variable (L : Household.Library)

/-- The hash that identifies a revocation. -/
def revocationEventHash (r : MachineRosterRevocationV1) : Except RosterCryptoError Digest :=
  (revocationPreimage r).map L.sha256

/-- The hash that identifies a checkpoint. -/
def checkpointHash (c : MachineRosterCheckpointV1) : Except RosterCryptoError Digest :=
  (checkpointPreimage c).map L.sha256

end

end Theyos.Roster

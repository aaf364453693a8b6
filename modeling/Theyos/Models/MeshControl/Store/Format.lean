import Theyos.Core.Cbor.Codec
import Theyos.Models.MeshControl.Record.Invariant

/-!
# The stored form of a control record

The record's derived CBOR shape, type by type in the source's field order, and the two functions
between records and files. Writing canonicalizes the map keys; reading accepts only bytes that are
already canonical and only records whose invariants hold.
-/

namespace Theyos.MeshControl

open Cbor

namespace Format

/-- Nonzero words, written as plain integers. -/
def nonZeroU64 : Codec NonZeroU64 :=
  Codec.u64.refine NonZeroU64.get NonZeroU64.new fun _ => NonZeroU64.new_eq_some.mpr rfl

/-- Channels, in lowercase. -/
def channel : Codec Channel :=
  .names (fun | .dev => "dev" | .release => "release") [.dev, .release]
    (by intro c; cases c <;> decide) (by intro c d; cases c <;> cases d <;> decide)

/-- Purposes. -/
def purposeId : Codec PurposeId :=
  .names (fun | .meshSession => "MeshSession" | .rosterSync => "RosterSync")
    [.meshSession, .rosterSync]
    (by intro p; cases p <;> decide) (by intro p q; cases p <;> cases q <;> decide)

/-- Revocation reasons. -/
def revocationReason : Codec RevocationReason :=
  .names
    (fun
      | .compromised => "Compromised"
      | .lost => "Lost"
      | .ownerAction => "OwnerAction"
      | .machineRevoked => "MachineRevoked")
    [.compromised, .lost, .ownerAction, .machineRevoked]
    (by intro r; cases r <;> decide) (by intro r s; cases r <;> cases s <;> decide)

/-- Phases of the operation in flight. -/
def pendingPhase : Codec PendingPhase :=
  .names (fun | .intent => "Intent" | .keyObserved => "KeyObserved") [.intent, .keyObserved]
    (by intro p; cases p <;> decide) (by intro p q; cases p <;> cases q <;> decide)

/-- Backends. -/
def backendKind : Codec BackendKind :=
  .names
    (fun
      | .secureEnclave => "SecureEnclave"
      | .tpmSealedSoftware => "TpmSealedSoftware"
      | .file => "File")
    [.secureEnclave, .tpmSealedSoftware, .file]
    (by intro b; cases b <;> decide) (by intro b c; cases b <;> cases c <;> decide)

/-- Kinds of operation in flight. -/
def pendingOpKind : Codec PendingOpKind :=
  .names
    (fun
      | .create => "Create"
      | .routineRotate => "RoutineRotate"
      | .reactivate => "Reactivate")
    [.create, .routineRotate, .reactivate]
    (by intro k; cases k <;> decide) (by intro k l; cases k <;> cases l <;> decide)

/-- Destruction states. -/
def gcState : Codec GcState :=
  .names
    (fun
      | .pending => "Pending"
      | .done => "Done"
      | .residual => "Residual"
      | .quarantine => "Quarantine")
    [.pending, .done, .residual, .quarantine]
    (by intro s; cases s <;> decide) (by intro s t; cases s <;> cases t <;> decide)

/-- Transaction identifiers, as byte strings. -/
def txnId : Codec TxnId := .byteArray 16

/-- Digests, as byte strings. -/
def digest : Codec Digest := .byteArray 32

/-- Identities. -/
def controlIdentity : Codec ControlIdentity :=
  (Codec.struct (.cons "hh_id" .text <| .cons "machine_id" .text <| .cons "channel" channel .nil)
    (by decide)).equiv
    (fun i => (i.hhId, i.machineId, i.channel, ()))
    (uncurry ControlIdentity.mk) fun _ => rfl

/-- The authority: a name, or the revocation with its reason. -/
def authority : Codec Authority :=
  ((Variants.unit "Empty").or
    ((Variants.unit "Active").or
      (.content "Revoked" (.struct (.cons "reason" revocationReason .nil) (by decide)))
      (by decide)) (by decide)).equiv
    (fun
      | .empty => .inl ()
      | .active => .inr (.inl ())
      | .revoked reason => .inr (.inr (reason, ())))
    (fun
      | .inl () => .empty
      | .inr (.inl ()) => .active
      | .inr (.inr (reason, _)) => .revoked reason)
    fun a => by cases a <;> rfl

/-- Slots. -/
def slotId : Codec SlotId :=
  (Codec.struct
    (.cons "identity_digest" digest <| .cons "purpose" purposeId <|
      .cons "generation" nonZeroU64 <| .cons "txn_id" txnId <|
      .cons "backend_instance" backendKind .nil)
    (by decide)).equiv
    (fun s => (s.identityDigest, s.purpose, s.generation, s.txnId, s.backendInstance, ()))
    (uncurry SlotId.mk) fun _ => rfl

/-- Bindings. -/
def exactBinding : Codec ExactBinding :=
  (Codec.struct (.cons "slot" slotId <| .cons "public_key" .bytes <| .cons "attributes" .bytes .nil)
    (by decide)).equiv
    (fun b => (b.slot, b.publicKey, b.attributes, ()))
    (uncurry ExactBinding.mk) fun _ => rfl

/-- Operations in flight. -/
def pendingOp : Codec PendingOp :=
  (Codec.struct
    (.cons "txn_id" txnId <| .cons "kind" pendingOpKind <| .cons "generation" nonZeroU64 <|
      .cons "epoch" nonZeroU64 <| .cons "purpose" purposeId <| .cons "backend" backendKind <|
      .cons "canonical_slot" slotId <| .cons "phase" pendingPhase <|
      .cons "binding" (exactBinding.option nofun) .nil)
    (by decide)).equiv
    (fun p => (p.txnId, p.kind, p.generation, p.epoch, p.purpose, p.backend, p.canonicalSlot,
      p.phase, p.binding, ()))
    (uncurry PendingOp.mk) fun _ => rfl

/-- Delegations. -/
def delegation : Codec Delegation :=
  (Codec.struct
    (.cons "version" .u64 <| .cons "kind" .text <| .cons "domain" .text <| .cons "hh_id" .text <|
      .cons "delegator_m_id" .text <| .cons "delegator_cert_fingerprint" digest <|
      .cons "delegated_pub" .bytes <| .cons "delegated_key_id" .text <| .cons "profile" .text <|
      .cons "transcript_kinds" (.array .text) <| .cons "roles" (.array .text) <|
      .cons "channel" channel <| .cons "serial" .u64 <| .cons "not_before" .u64 <|
      .cons "not_after" .u64 <| .cons "sig" .bytes .nil)
    (by decide)).equiv
    (fun d => (d.version, d.kind, d.domain, d.hhId, d.delegatorMId, d.delegatorCertFingerprint,
      d.delegatedPub, d.delegatedKeyId, d.profile, d.transcriptKinds, d.roles, d.channel,
      d.serial, d.notBefore, d.notAfter, d.sig, ()))
    (uncurry Delegation.mk) fun _ => rfl

/-- Live generations. -/
def generationRecord : Codec GenerationRecord :=
  (Codec.struct
    (.cons "generation" nonZeroU64 <| .cons "delegation" delegation <|
      .cons "binding" exactBinding <| .cons "not_after" .u64 .nil)
    (by decide)).equiv
    (fun g => (g.generation, g.delegation, g.binding, g.notAfter, ()))
    (uncurry GenerationRecord.mk) fun _ => rfl

/-- The two fields every garbage-collection entry has. -/
def gcSlot : Codec (SlotId × TxnId × Unit) :=
  .struct (.cons "slot" slotId <| .cons "txn_id" txnId .nil) (by decide)

/-- Garbage-collection entries. -/
def gcEntry : Codec GcEntry :=
  ((Variants.content "AwaitingInspection" gcSlot).or
    ((Variants.content "AbsentUnconfirmed" gcSlot).or
      ((Variants.content "Bound"
        (.struct (.cons "slot" slotId <| .cons "txn_id" txnId <| .cons "binding" exactBinding <|
          .cons "state" gcState .nil) (by decide))).or
        ((Variants.content "Absent" gcSlot).or
          (.content "InspectionConflict" gcSlot) (by decide)) (by decide)) (by decide))
    (by decide)).equiv
    (fun
      | .awaitingInspection slot txnId => .inl (slot, txnId, ())
      | .absentUnconfirmed slot txnId => .inr (.inl (slot, txnId, ()))
      | .bound slot txnId binding state => .inr (.inr (.inl (slot, txnId, binding, state, ())))
      | .absent slot txnId => .inr (.inr (.inr (.inl (slot, txnId, ()))))
      | .inspectionConflict slot txnId => .inr (.inr (.inr (.inr (slot, txnId, ())))))
    (fun
      | .inl (slot, txnId, _) => .awaitingInspection slot txnId
      | .inr (.inl (slot, txnId, _)) => .absentUnconfirmed slot txnId
      | .inr (.inr (.inl (slot, txnId, binding, state, _))) => .bound slot txnId binding state
      | .inr (.inr (.inr (.inl (slot, txnId, _)))) => .absent slot txnId
      | .inr (.inr (.inr (.inr (slot, txnId, _)))) => .inspectionConflict slot txnId)
    fun e => by cases e <;> rfl

/-- Terminal outcomes. -/
def terminalOutcome : Codec TerminalOutcome :=
  ((Variants.content "Activated" (.struct (.cons "generation" nonZeroU64 .nil) (by decide))).or
    ((Variants.content "Revoked" (.struct (.cons "epoch" nonZeroU64 .nil) (by decide))).or
      (.content "Reactivated" (.struct (.cons "epoch" nonZeroU64 .nil) (by decide)))
      (by decide)) (by decide)).equiv
    (fun
      | .activated generation => .inl (generation, ())
      | .revoked epoch => .inr (.inl (epoch, ()))
      | .reactivated epoch => .inr (.inr (epoch, ())))
    (fun
      | .inl (generation, _) => .activated generation
      | .inr (.inl (epoch, _)) => .revoked epoch
      | .inr (.inr (epoch, _)) => .reactivated epoch)
    fun o => by cases o <;> rfl

/-- Requests behind terminal results. -/
def terminalRequestFingerprint : Codec TerminalRequestFingerprint :=
  ((Variants.content "Revoke" (.struct (.cons "reason" revocationReason .nil) (by decide))).or
    ((Variants.content "Reactivate"
        (.struct (.cons "next_txn_id" txnId <| .cons "backend" backendKind .nil) (by decide))).or
      (.content "Activate"
        (.struct (.cons "generation" nonZeroU64 <| .cons "delegation" delegation .nil) (by decide)))
      (by decide)) (by decide)).equiv
    (fun
      | .revoke reason => .inl (reason, ())
      | .reactivate nextTxnId backend => .inr (.inl (nextTxnId, backend, ()))
      | .activate generation delegation => .inr (.inr (generation, delegation, ())))
    (fun
      | .inl (reason, _) => .revoke reason
      | .inr (.inl (nextTxnId, backend, _)) => .reactivate nextTxnId backend
      | .inr (.inr (generation, delegation, _)) => .activate generation delegation)
    fun r => by cases r <;> rfl

/-- Terminal results. -/
def terminalResult : Codec TerminalResult :=
  (Codec.struct
    (.cons "txn_id" txnId <| .cons "outcome" terminalOutcome <|
      .cons "request" terminalRequestFingerprint <| .cons "recorded_at" .u64 <|
      .cons "acked" .bool .nil)
    (by decide)).equiv
    (fun t => (t.txnId, t.outcome, t.request, t.recordedAt, t.acked, ()))
    (uncurry TerminalResult.mk) fun _ => rfl

/-- The control record. -/
def controlRecord : Codec MeshSignerControlRecordV1 :=
  (Codec.struct
    (.cons "identity" controlIdentity <| .cons "purpose" purposeId <| .cons "revision" .u64 <|
      .cons "epoch_high_water" nonZeroU64 <| .cons "generation_high_water" nonZeroU64 <|
      .cons "authority" authority <|
      .cons "current_generation" (nonZeroU64.option nofun) <|
      .cons "live_generations" (.array generationRecord) <|
      .cons "pending_op" (pendingOp.option nofun) <| .cons "gc_pending" (.array gcEntry) <|
      .cons "recent_terminal_results" (.array terminalResult) .nil)
    (by decide)).equiv
    (fun r => (r.identity, r.purpose, r.revision, r.epochHighWater, r.generationHighWater,
      r.authority, r.currentGeneration, r.liveGenerations, r.pendingOp, r.gcPending,
      r.recentTerminalResults, ()))
    (uncurry MeshSignerControlRecordV1.mk) fun _ => rfl

/-- Records nest far less than a reader follows. -/
theorem controlRecord_depth : controlRecord.depth ≤ recursionLimit := by decide

end Format

section

variable (H : Hashes) (C : Ciborium) (S : Serde MeshSignerControlRecordV1)

/-- Sort the keys of every map of a tree; a repeated key refuses it. -/
def canonicalizeValue : Value → Option Value := canonicalize C.canonicalCmp

/-- The bytes a record is stored as. -/
def toCanonicalBytes (rec : MeshSignerControlRecordV1) : Option (List UInt8) := do
  let raw ← S.intoWriter rec
  let value ← C.fromReader raw
  let canonicalValue ← canonicalizeValue C value
  C.intoWriter canonicalValue

/-- The record stored as some bytes, if they are canonical and its invariants hold. -/
def fromCanonicalBytes (bytes : List UInt8) : Option MeshSignerControlRecordV1 := do
  let value ← C.fromReader bytes
  let canonicalValue ← canonicalizeValue C value
  let recomputed ← C.intoWriter canonicalValue
  guard (recomputed = bytes)
  let rec' ← S.fromReader bytes
  guard (invariantsHold H rec')
  return rec'

/-- The library under the record's own writer and reader. -/
structure Derives : Prop where
  /-- The library reads back what it writes. -/
  lawful : C.Lawful
  /-- The record's writer and reader follow its shape. -/
  derived : S.Derived C Format.controlRecord

variable {H C S}

/-- A record is stored as the canonical form of its tree. -/
theorem Derives.toCanonicalBytes_eq (hD : Derives C S) (rec : MeshSignerControlRecordV1) :
    toCanonicalBytes C S rec = (S.intoWriter rec).bind fun _ =>
      (canonicalizeValue C (Format.controlRecord.enc rec)).bind C.intoWriter := by
  cases hraw : S.intoWriter rec with
  | none => simp [toCanonicalBytes, hraw]
  | some raw =>
    have hstorable := (Format.controlRecord.storable rec).mono Format.controlRecord_depth
    have hread := hD.lawful.fromReader_intoWriter hstorable
      ((hD.derived.intoWriter_eq rec).symm.trans hraw)
    simp [toCanonicalBytes, hraw, hread]

/-- The tree stored for a record is canonical and reads back as the record. -/
theorem Derives.stored (hD : Derives C S) {rec : MeshSignerControlRecordV1}
    {bytes : List UInt8} (h : toCanonicalBytes C S rec = some bytes) :
    ∃ v, Storable recursionLimit v ∧ canonicalizeValue C v = some v ∧
      C.intoWriter v = some bytes ∧ Format.controlRecord.dec v = some rec := by
  obtain ⟨v, hv, hdec⟩ := Format.controlRecord.round hD.lawful.textFirst rec
  have hstorable := (Format.controlRecord.storable rec).mono Format.controlRecord_depth
  obtain ⟨hstored, hfixed⟩ := hstorable.canonicalize hD.lawful.textFirst hv
  rw [hD.toCanonicalBytes_eq, Option.bind_eq_some_iff] at h
  obtain ⟨_, _, hwrite⟩ := h
  rw [canonicalizeValue, hv] at hwrite
  exact ⟨v, hstored, hfixed, hwrite, hdec⟩

/-- What was stored is read back exactly when the invariants hold. -/
theorem Derives.fromCanonicalBytes_toCanonicalBytes (hD : Derives C S)
    {rec : MeshSignerControlRecordV1} {bytes : List UInt8}
    (h : toCanonicalBytes C S rec = some bytes) :
    fromCanonicalBytes H C S bytes = if invariantsHold H rec then some rec else none := by
  obtain ⟨v, hstorable, hfixed, hwrite, hdec⟩ := hD.stored h
  have hvalue := hD.lawful.fromReader_intoWriter hstorable hwrite
  have hrecord := hD.derived.fromReader_eq hstorable hwrite hdec
  by_cases hinv : invariantsHold H rec <;>
    simp [fromCanonicalBytes, hvalue, hfixed, hwrite, hrecord, hinv]

end

end Theyos.MeshControl

import Theyos.Models.MeshSession.Wire.Delegation

/-!
# The authentication frames and the connection intent

The five frames of the ceremony and the signed connection intent, each with the
literals and sizes that every way of building one checks. A frame carries the
proof that it passed its check, and replacing its signature by another of the
same size keeps that.
-/

namespace Theyos.MeshSession

open Machine

/-- The protocol version on the wire. -/
def protocolVersion : UInt64 := 1

/-- The domain of the authentication frames. -/
def domain : String := "soyeht/mesh-session/v1"

def roleResponder : String := "responder"

def roleInitiator : String := "initiator"

def kindFinalConfirm : String := "final-confirm"

def kindActivate : String := "activate"

def kindActivateAck : String := "activate-ack"

/-- The version and the domain are the frozen ones. -/
def checkHeader (version : UInt64) (frameDomain : String) : Except AuthFrameError Unit :=
  require (version = protocolVersion ∧ frameDomain = domain) .versionOrDomainMismatch

/-- A byte field has its fixed size. -/
def checkLen (bytes : List UInt8) (expected : ℕ) : Except AuthFrameError Unit :=
  require (bytes.length = expected) .shapeMismatch

theorem checkLen_eq_ok {bytes : List UInt8} {expected : ℕ} {u : Unit} :
    checkLen bytes expected = .ok u ↔ bytes.length = expected :=
  require_eq_ok

/-- A signature in the fixed-size encoding of its two scalars. -/
abbrev SignatureBytes : Type := Vector UInt8 64

/-- The signature field before a frame is signed. -/
def placeholderSig : List UInt8 := List.replicate 64 0

section

variable (isPoint : List UInt8 → Bool)

/-- The responder's proof, as it stands on the wire. -/
structure ProofRWire where
  protocolVersion : UInt64
  domain : String
  role : String
  hFinal : List UInt8
  hhId : String
  selfMId : String
  selfCertFingerprint : List UInt8
  checkpointHash : List UInt8
  checkpointSequence : UInt64
  checkpointEventHead : List UInt8
  checkpointNotAfter : UInt64
  delegation : MeshSessionDelegation isPoint
  sig : List UInt8
  deriving DecidableEq

/-- The initiator's proof, as it stands on the wire. -/
structure ProofIWire where
  protocolVersion : UInt64
  domain : String
  role : String
  hFinal : List UInt8
  hhId : String
  selfMId : String
  expectedPeerMId : String
  selfCertFingerprint : List UInt8
  expectedPeerCertFingerprint : List UInt8
  checkpointHash : List UInt8
  checkpointSequence : UInt64
  checkpointEventHead : List UInt8
  checkpointNotAfter : UInt64
  delegation : MeshSessionDelegation isPoint
  connectionIntentDigest : Vector UInt8 32
  sig : List UInt8
  deriving DecidableEq

/-- The responder's confirmation, as it stands on the wire. -/
structure FinalConfirmWire where
  protocolVersion : UInt64
  domain : String
  kind : String
  hFinal : List UInt8
  initiatorMId : String
  initiatorCertFingerprint : List UInt8
  responderMId : String
  sig : List UInt8
  deriving DecidableEq

/-- The initiator's activation, as it stands on the wire. -/
structure ActivateWire where
  protocolVersion : UInt64
  domain : String
  kind : String
  hFinal : List UInt8
  responderMId : String
  finalConfirmDigest : List UInt8
  sig : List UInt8
  deriving DecidableEq

/-- The responder's acknowledgement, as it stands on the wire. -/
structure ActivateAckWire where
  protocolVersion : UInt64
  domain : String
  kind : String
  hFinal : List UInt8
  responderMId : String
  activateDigest : List UInt8
  sig : List UInt8
  deriving DecidableEq

/-- The signed connection intent, as it stands on the wire. -/
structure SignedMeshConnectionIntentWire where
  version : UInt64
  domain : String
  hhId : String
  initiatorMId : String
  initiatorCertFingerprint : List UInt8
  targetMId : String
  targetCertFingerprint : List UInt8
  checkpointHash : List UInt8
  delegatedKeyId : String
  nonce : List UInt8
  notAfter : UInt64
  sig : List UInt8
  deriving DecidableEq

variable {isPoint}

def ProofRWire.check (w : ProofRWire isPoint) : Except AuthFrameError Unit := do
  checkHeader w.protocolVersion w.domain
  require (w.role = roleResponder) .roleOrKindMismatch
  checkLen w.hFinal 32
  checkLen w.selfCertFingerprint 32
  checkLen w.checkpointHash 32
  checkLen w.checkpointEventHead 32
  checkLen w.sig 64

def ProofIWire.check (w : ProofIWire isPoint) : Except AuthFrameError Unit := do
  checkHeader w.protocolVersion w.domain
  require (w.role = roleInitiator) .roleOrKindMismatch
  checkLen w.hFinal 32
  checkLen w.selfCertFingerprint 32
  checkLen w.expectedPeerCertFingerprint 32
  checkLen w.checkpointHash 32
  checkLen w.checkpointEventHead 32
  checkLen w.sig 64

def FinalConfirmWire.check (w : FinalConfirmWire) : Except AuthFrameError Unit := do
  checkHeader w.protocolVersion w.domain
  require (w.kind = kindFinalConfirm) .roleOrKindMismatch
  checkLen w.hFinal 32
  checkLen w.initiatorCertFingerprint 32
  checkLen w.sig 64

def ActivateWire.check (w : ActivateWire) : Except AuthFrameError Unit := do
  checkHeader w.protocolVersion w.domain
  require (w.kind = kindActivate) .roleOrKindMismatch
  checkLen w.hFinal 32
  checkLen w.finalConfirmDigest 32
  checkLen w.sig 64

def ActivateAckWire.check (w : ActivateAckWire) : Except AuthFrameError Unit := do
  checkHeader w.protocolVersion w.domain
  require (w.kind = kindActivateAck) .roleOrKindMismatch
  checkLen w.hFinal 32
  checkLen w.activateDigest 32
  checkLen w.sig 64

end

/-- The domain of connection intents. -/
def intentDomain : String := "soyeht/mesh-connection-intent/v1"

/-- The version of connection intents. -/
def intentVersion : UInt64 := 1

/-- A byte field of an intent has its fixed size. -/
def checkIntentLen (bytes : List UInt8) (expected : ℕ) : Except IntentError Unit :=
  require (bytes.length = expected) .shapeMismatch

/-- An identifier is not the empty text. -/
def checkNonempty (s : String) : Except IntentError Unit :=
  require (s ≠ "") .emptyIdentifier

def SignedMeshConnectionIntentWire.check (w : SignedMeshConnectionIntentWire) :
    Except IntentError Unit := do
  require (w.version = intentVersion ∧ w.domain = intentDomain) .versionOrDomainMismatch
  checkNonempty w.hhId
  checkNonempty w.initiatorMId
  checkNonempty w.targetMId
  checkNonempty w.delegatedKeyId
  checkIntentLen w.initiatorCertFingerprint 32
  checkIntentLen w.targetCertFingerprint 32
  checkIntentLen w.checkpointHash 32
  checkIntentLen w.nonce 32
  checkIntentLen w.sig 64

section

variable {isPoint : List UInt8 → Bool}

theorem ProofRWire.check_eq_ok {w : ProofRWire isPoint} :
    w.check = .ok () ↔ checkHeader w.protocolVersion w.domain = .ok () ∧
      w.role = roleResponder ∧ w.hFinal.length = 32 ∧
      w.selfCertFingerprint.length = 32 ∧ w.checkpointHash.length = 32 ∧
      w.checkpointEventHead.length = 32 ∧ w.sig.length = 64 := by
  simp [check, eq_ok_iff, checkLen_eq_ok]

theorem ProofIWire.check_eq_ok {w : ProofIWire isPoint} :
    w.check = .ok () ↔ checkHeader w.protocolVersion w.domain = .ok () ∧
      w.role = roleInitiator ∧ w.hFinal.length = 32 ∧
      w.selfCertFingerprint.length = 32 ∧ w.expectedPeerCertFingerprint.length = 32 ∧
      w.checkpointHash.length = 32 ∧ w.checkpointEventHead.length = 32 ∧ w.sig.length = 64 := by
  simp [check, eq_ok_iff, checkLen_eq_ok]

theorem FinalConfirmWire.check_eq_ok {w : FinalConfirmWire} :
    w.check = .ok () ↔ checkHeader w.protocolVersion w.domain = .ok () ∧
      w.kind = kindFinalConfirm ∧ w.hFinal.length = 32 ∧
      w.initiatorCertFingerprint.length = 32 ∧ w.sig.length = 64 := by
  simp [check, eq_ok_iff, checkLen_eq_ok]

theorem ActivateWire.check_eq_ok {w : ActivateWire} :
    w.check = .ok () ↔ checkHeader w.protocolVersion w.domain = .ok () ∧
      w.kind = kindActivate ∧ w.hFinal.length = 32 ∧
      w.finalConfirmDigest.length = 32 ∧ w.sig.length = 64 := by
  simp [check, eq_ok_iff, checkLen_eq_ok]

theorem ActivateAckWire.check_eq_ok {w : ActivateAckWire} :
    w.check = .ok () ↔ checkHeader w.protocolVersion w.domain = .ok () ∧
      w.kind = kindActivateAck ∧ w.hFinal.length = 32 ∧
      w.activateDigest.length = 32 ∧ w.sig.length = 64 := by
  simp [check, eq_ok_iff, checkLen_eq_ok]

theorem SignedMeshConnectionIntentWire.check_eq_ok {w : SignedMeshConnectionIntentWire} :
    w.check = .ok () ↔ (w.version = intentVersion ∧ w.domain = intentDomain) ∧ w.hhId ≠ "" ∧
      w.initiatorMId ≠ "" ∧ w.targetMId ≠ "" ∧ w.delegatedKeyId ≠ "" ∧
      w.initiatorCertFingerprint.length = 32 ∧ w.targetCertFingerprint.length = 32 ∧
      w.checkpointHash.length = 32 ∧ w.nonce.length = 32 ∧ w.sig.length = 64 := by
  simp [check, checkNonempty, checkIntentLen, eq_ok_iff]

end

/-- The responder's proof. -/
abbrev ProofR (isPoint : List UInt8 → Bool) : Type := Checked (@ProofRWire.check isPoint)

/-- The initiator's proof. -/
abbrev ProofI (isPoint : List UInt8 → Bool) : Type := Checked (@ProofIWire.check isPoint)

/-- The responder's confirmation. -/
abbrev FinalConfirm : Type := Checked FinalConfirmWire.check

/-- The initiator's activation. -/
abbrev Activate : Type := Checked ActivateWire.check

/-- The responder's acknowledgement. -/
abbrev ActivateAck : Type := Checked ActivateAckWire.check

/-- The signed connection intent. -/
abbrev SignedMeshConnectionIntent : Type := Checked SignedMeshConnectionIntentWire.check

section

variable {isPoint : List UInt8 → Bool}

variable (hFinal : List UInt8)

def ProofR.new (hhId selfMId : String)
    (selfCertFingerprint checkpointHash : List UInt8) (checkpointSequence : UInt64)
    (checkpointEventHead : List UInt8) (checkpointNotAfter : UInt64)
    (delegation : MeshSessionDelegation isPoint) (sig : List UInt8) :
    Except AuthFrameError (ProofR isPoint) :=
  validate ProofRWire.check
    { protocolVersion, domain, role := roleResponder, hFinal, hhId, selfMId, selfCertFingerprint
      checkpointHash, checkpointSequence, checkpointEventHead, checkpointNotAfter, delegation, sig }

def ProofI.new (hhId selfMId expectedPeerMId : String)
    (selfCertFingerprint expectedPeerCertFingerprint checkpointHash : List UInt8)
    (checkpointSequence : UInt64) (checkpointEventHead : List UInt8) (checkpointNotAfter : UInt64)
    (delegation : MeshSessionDelegation isPoint) (connectionIntentDigest : Vector UInt8 32)
    (sig : List UInt8) : Except AuthFrameError (ProofI isPoint) :=
  validate ProofIWire.check
    { protocolVersion, domain, role := roleInitiator, hFinal, hhId, selfMId, expectedPeerMId
      selfCertFingerprint, expectedPeerCertFingerprint, checkpointHash, checkpointSequence
      checkpointEventHead, checkpointNotAfter, delegation, connectionIntentDigest, sig }

def FinalConfirm.new (initiatorMId : String)
    (initiatorCertFingerprint : List UInt8) (responderMId : String) (sig : List UInt8) :
    Except AuthFrameError FinalConfirm :=
  validate FinalConfirmWire.check
    { protocolVersion, domain, kind := kindFinalConfirm, hFinal, initiatorMId
      initiatorCertFingerprint, responderMId, sig }

def Activate.new (responderMId : String) (finalConfirmDigest sig : List UInt8) :
    Except AuthFrameError Activate :=
  validate ActivateWire.check
    { protocolVersion, domain, kind := kindActivate, hFinal, responderMId, finalConfirmDigest, sig }

def ActivateAck.new (responderMId : String) (activateDigest sig : List UInt8) :
    Except AuthFrameError ActivateAck :=
  validate ActivateAckWire.check
    { protocolVersion, domain, kind := kindActivateAck, hFinal, responderMId, activateDigest, sig }

end

section

variable {isPoint : List UInt8 → Bool}

def ProofR.withSig (f : ProofR isPoint) (sig : SignatureBytes) : ProofR isPoint where
  val := { f.1 with sig := sig.toList }
  property := by simp [ProofRWire.check_eq_ok, ProofRWire.check_eq_ok.mp f.2]

def ProofI.withSig (f : ProofI isPoint) (sig : SignatureBytes) : ProofI isPoint where
  val := { f.1 with sig := sig.toList }
  property := by simp [ProofIWire.check_eq_ok, ProofIWire.check_eq_ok.mp f.2]

def FinalConfirm.withSig (f : FinalConfirm) (sig : SignatureBytes) : FinalConfirm where
  val := { f.1 with sig := sig.toList }
  property := by simp [FinalConfirmWire.check_eq_ok, FinalConfirmWire.check_eq_ok.mp f.2]

def Activate.withSig (f : Activate) (sig : SignatureBytes) : Activate where
  val := { f.1 with sig := sig.toList }
  property := by simp [ActivateWire.check_eq_ok, ActivateWire.check_eq_ok.mp f.2]

def ActivateAck.withSig (f : ActivateAck) (sig : SignatureBytes) : ActivateAck where
  val := { f.1 with sig := sig.toList }
  property := by simp [ActivateAckWire.check_eq_ok, ActivateAckWire.check_eq_ok.mp f.2]

end

end Theyos.MeshSession

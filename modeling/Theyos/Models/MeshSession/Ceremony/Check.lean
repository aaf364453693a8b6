import Theyos.Models.MeshSession.Ceremony.Record

/-!
# The checks of a ceremony

The identities a ceremony runs under and the checks both sides share: the delegation
gate, the four scalars of the checkpoint, the deadline and the effective expiry, and
signing and verifying frames and intents. Each check stops the ceremony with its own
error.
-/

namespace Theyos.MeshSession

open Machine Dialogue

/-- The local machine and its delegation. -/
structure LocalIdentity (isPoint : List UInt8 → Bool) where
  hhId : String
  mId : String
  certFingerprint : List UInt8
  delegation : MeshSessionDelegation isPoint

/-- The checkpoint the caller obtained. -/
structure LocalCheckpoint where
  hash : List UInt8
  sequence : UInt64
  eventHead : List UInt8
  notAfter : UInt64
  deriving DecidableEq, Repr

/-- The machine an initiator wants to reach. -/
structure ExpectedResponder where
  hhId : String
  mId : String
  certFingerprint : List UInt8
  deriving DecidableEq, Repr

def expectedDelegationRoles : List String := ["initiator", "responder"]

def expectedTranscriptKinds : List String := ["final-confirm", "activate", "activate-ack"]

/-- The two lists are the same once sorted. -/
def stringSetMatchesExactly (actual expected : List String) : Bool :=
  actual.mergeSort = expected.mergeSort

/-- The earliest of the six ends of validity. -/
def effectiveExpiresAt (checkpointNotAfter localDelegationNotAfter peerDelegationNotAfter
    leaseExpiresAt ingressExpiry intentNotAfter : UInt64) : UInt64 :=
  min checkpointNotAfter <| min localDelegationNotAfter <| min peerDelegationNotAfter <|
    min leaseExpiresAt <| min ingressExpiry intentNotAfter

section

variable {Key : Type} (c : Crypto Key) (F : Formats c.isPoint)

/-- The ceremony is still within its deadline. -/
def checkCeremonyDeadline : AuthCeremony c Unit := do
  let remaining : ℕ ← request .remaining
  require (remaining ≠ 0) (.intent .deadlineExceeded)

/-- The end of validity itself is already too late. -/
def checkEffectiveExpiry (now expiresAt : UInt64) : AuthCeremony c Unit :=
  require (now < expiresAt) (.intent .ttlInvalid)

/-- Read the clock. -/
def clockNow : AuthCeremony c UInt64 := do
  let now : Except IntentError UInt64 ← request .now
  lift (now.mapError .intent)

def checkHFinal (frameHFinal expected : List UInt8) : AuthCeremony c Unit :=
  require (frameHFinal = expected) .hFinalMismatch

def checkCheckpoint (frameHash : List UInt8) (frameSequence : UInt64)
    (frameEventHead : List UInt8) (frameNotAfter : UInt64) (checkpoint : LocalCheckpoint) :
    AuthCeremony c Unit :=
  require (frameHash = checkpoint.hash ∧ frameSequence = checkpoint.sequence ∧
    frameEventHead = checkpoint.eventHead ∧ frameNotAfter = checkpoint.notAfter)
    .checkpointMismatch

variable (frame : AuthFrame c.isPoint) (delegation : MeshSessionDelegation c.isPoint)

/-- The signer holds the key that the local delegation names. -/
def checkSignerMatchesDelegation : AuthCeremony c Unit := do
  let key : Key ← request .publicKey
  require (c.toEncodedPoint key = delegation.1.delegatedPub) .signerKeyMismatchDelegation

def checkLocalDelegationChannel
    (expectedChannel : ExpectedChannel) : AuthCeremony c Unit :=
  require (delegation.1.channel = expectedChannel.asStr) .delegationChannelMismatch

/-- The window, the signature, the scope and the binding of a delegation, in this order. -/
def passDelegationGate (policy : DelegationPolicy)
    (ctx : PartialBindingInputs) (expectedChannel : ExpectedChannel) : AuthCeremony c Unit := do
  lift ((policy.validate delegation.1).mapError .delegation)
  let verified : Except DelegationError Unit ← request (.verifyDelegation delegation)
  lift (verified.mapError fun _ => .delegationGate)
  require (stringSetMatchesExactly delegation.1.roles expectedDelegationRoles)
    .delegationRolesMismatch
  require (stringSetMatchesExactly delegation.1.transcriptKinds expectedTranscriptKinds)
    .delegationTranscriptKindsMismatch
  require (delegation.1.channel = expectedChannel.asStr) .delegationChannelMismatch
  lift ((delegation.1.checkPartialBinding ctx).mapError .delegation)

/-- Verify a signature over a message. -/
def verifySignature (key : Key) (message : List UInt8) (signature : SignatureBytes)
    (e : AuthFrameError) : AuthCeremony c Unit := do
  let _ ← request (.verify key message signature)
  require (c.verify key message signature) e

/-- The signature of a frame, which must verify under the signer's own key. -/
def signFrame : AuthCeremony c SignatureBytes := do
  let preimage ← lift ((frame.preimage F).mapError .cbor)
  let signature : Except AuthFrameError SignatureBytes ← request (.signMeshSessionFrame preimage)
  let signature ← lift signature
  lift (c.parseLowSSignature signature)
  let key : Key ← request .publicKey
  verifySignature c key preimage signature .signerProducedInvalidSignature
  return signature

/-- The key behind its encoding. -/
def verifierFromDelegatedPub (delegatedPub : List UInt8) : AuthCeremony c Key :=
  lift (okOr (c.fromSec1Bytes delegatedPub) .badSignature)

/-- A frame carries a signature under the key. -/
def verifyFrame (sig : List UInt8) (key : Key) : AuthCeremony c Unit := do
  let signature ← lift (okOr (sigArray sig) .shapeMismatch)
  let preimage ← lift ((frame.preimage F).mapError .cbor)
  lift (c.parseLowSSignature signature)
  verifySignature c key preimage signature .badSignature

/-- An intent carries a signature under the key. -/
def verifyIntentRecord (intent : SignedMeshConnectionIntent) (key : Key) : AuthCeremony c Unit := do
  let preimage ← lift ((intentPreimage F intent).mapError (.intent ∘ .cbor))
  let signature ← lift (okOr (sigArray intent.1.sig) (.intent .shapeMismatch))
  lift ((c.parseLowSSignature signature).mapError (.intent ∘ mapLowSError))
  verifySignature c key preimage signature (.intent .badSignature)

/-- Compute a digest. -/
def digest (input : List UInt8) : AuthCeremony c (Vector UInt8 32) := do
  let _ ← request (.sha256 input)
  return c.sha256 input

def frameDigest : AuthCeremony c (Vector UInt8 32) := do
  digest c (← lift ((frame.digestInput F).mapError .cbor))

def intentDigest (intent : SignedMeshConnectionIntent) : AuthCeremony c (Vector UInt8 32) := do
  digest c (← lift ((intentDigestInput F intent).mapError (.intent ∘ .cbor)))

def delegationDigest : AuthCeremony c (Vector UInt8 32) := do
  digest c (← lift ((toCanonicalVec F.library F.delegation delegation).mapError
    fun _ => .intent .shapeMismatch))

/-- Both directions' counters, with identities from the random source. -/
def newSessionRekeyState (threshold : RekeyThreshold) : AuthCeremony c SessionRekeyState := do
  let tx : Option RekeyStateId ← request .freshRekeyStateId
  let tx ← lift ((DirectionalRekeyState.new threshold tx).mapError .rekey)
  let rx : Option RekeyStateId ← request .freshRekeyStateId
  let rx ← lift ((DirectionalRekeyState.new threshold rx).mapError .rekey)
  return ⟨tx, rx⟩

end

end Theyos.MeshSession

import Theyos.Core.Machine.Dialogue
import Theyos.Models.MeshSession.Active.Session
import Theyos.Models.MeshSession.Wire.Preimage

/-!
# What a ceremony asks its environment

Everything a handshake function does not decide itself is a question: the time that is left, the
stream, the Noise session, the signer, the delegation verifier, the resolver, the nonce ledger,
the clock and the admission of the machine roster.
-/

namespace Theyos.MeshSession

open Machine

/-- The side of the Noise handshake. -/
inductive Role where
  | initiator
  | responder
  deriving DecidableEq, Repr

/-- The channel a ceremony runs under. -/
inductive ExpectedChannel where
  | dev
  | release
  deriving DecidableEq, Repr

def ExpectedChannel.asStr : ExpectedChannel → String
  | .dev => "dev"
  | .release => "release"

/-- What the nonce ledger remembers of an intent. -/
structure IntentNonceKey where
  hhId : String
  initiatorMId : String
  delegatedKeyId : String
  nonce : Vector UInt8 32
  deriving DecidableEq, Repr

/-- The answer of the nonce ledger. -/
inductive NonceConsumeOutcome where
  | committed
  | alreadyConsumed
  | mayHaveTakenEffect
  | unavailable
  deriving DecidableEq, Repr

/-- The authenticated membership an admission is reserved for. -/
structure D1MembershipKey where
  sessionId : List UInt8
  hhId : String
  peerMId : String
  peerCertFingerprint : List UInt8
  checkpointHash : List UInt8
  checkpointSequence : UInt64
  deriving DecidableEq, Repr

/-- The signing key the resolver holds for a machine. -/
structure ResolvedSignerAuthority where
  delegatedPub : List UInt8
  generation : UInt64
  notAfter : UInt64
  deriving DecidableEq, Repr

/-- The cryptographic operations of a ceremony. -/
structure Crypto (Key : Type) extends P256 Key where
  /-- The compressed encoding of a public key. -/
  toEncodedPoint : Key → List UInt8
  sha256 : List UInt8 → Vector UInt8 32

/-- The questions of a ceremony. -/
inductive Request (Key : Type) (isPoint : List UInt8 → Bool) where
  /-- The time left until the ceremony's deadline. -/
  | remaining
  | armIoDeadline (remaining : ℕ)
  | read (len : ℕ)
  | write (buf : List UInt8)
  | buildHandshakeState (role : Role)
  | writeHandshakeMessage
  | readHandshakeMessage (message : List UInt8)
  | isHandshakeFinished
  | getHandshakeHash
  | intoTransportMode
  | writeMessage (plaintext : List UInt8)
  | readMessage (ciphertext : List UInt8)
  | freshRekeyStateId
  | publicKey
  | signMeshSessionFrame (preimage : List UInt8)
  | verifyDelegation (delegation : MeshSessionDelegation isPoint)
  | resolve (hhId initiatorMId : String) (channel : ExpectedChannel) (delegatedKeyId : String)
  | consume (key : IntentNonceKey) (notAfter : UInt64) (digest : Vector UInt8 32)
      (channel : ExpectedChannel)
  | now
  | reservePending (key : D1MembershipKey)
  | commitAfterAck (permit : ℕ)
  | cancelBeforeAck (permit : ℕ)
  /-- A signature is verified. -/
  | verify (key : Key) (message : List UInt8) (signature : SignatureBytes)
  /-- A digest is computed. -/
  | sha256 (input : List UInt8)

/-- How a question can be answered; a reader never returns and a writer never takes more than it
was offered. -/
abbrev Answer {Key : Type} {isPoint : List UInt8 → Bool} : Request Key isPoint → Type
  | .remaining => ℕ
  | .armIoDeadline _ => Bool
  | .read len => Option { bytes : List UInt8 // bytes.length ≤ len }
  | .write buf => Option (Fin (buf.length + 1))
  | .buildHandshakeState _ => Bool
  | .writeHandshakeMessage => Option (List UInt8)
  | .readHandshakeMessage _ => Option ℕ
  | .isHandshakeFinished => Bool
  | .getHandshakeHash => List UInt8
  | .intoTransportMode => Bool
  | .writeMessage _ => Option (List UInt8)
  | .readMessage _ => Option (List UInt8)
  | .freshRekeyStateId => Option RekeyStateId
  | .publicKey => Key
  | .signMeshSessionFrame _ => Except AuthFrameError SignatureBytes
  | .verifyDelegation _ => Except DelegationError Unit
  | .resolve _ _ _ _ => Except IntentError ResolvedSignerAuthority
  | .consume _ _ _ _ => Except IntentError NonceConsumeOutcome
  | .now => Except IntentError UInt64
  | .reservePending _ => Except IntentError ℕ
  | .commitAfterAck _ => Unit
  | .cancelBeforeAck _ => D1CancelOutcome
  | .verify _ _ _ => Unit
  | .sha256 _ => Unit

/-- A part of a ceremony. -/
abbrev Ceremony (Key : Type) (isPoint : List UInt8 → Bool) (ε α : Type) : Type :=
  Dialogue (@Answer Key isPoint) ε α

/-- Ask the environment. -/
abbrev request {Key : Type} {isPoint : List UInt8 → Bool} {ε : Type} (q : Request Key isPoint) :
    Ceremony Key isPoint ε (Answer q) :=
  Dialogue.query q

/-- The exchanges of a ceremony. -/
abbrev CeremonyTranscript (Key : Type) (isPoint : List UInt8 → Bool) : Type :=
  Transcript (@Answer Key isPoint)

/-- A part of a ceremony that fails with an error of its frames. -/
abbrev AuthCeremony {Key : Type} (c : Crypto Key) : Type → Type :=
  Ceremony Key c.isPoint AuthFrameError

/-- The exchanges of a ceremony under the given operations. -/
abbrev Crypto.Transcript {Key : Type} (c : Crypto Key) : Type := CeremonyTranscript Key c.isPoint

end Theyos.MeshSession

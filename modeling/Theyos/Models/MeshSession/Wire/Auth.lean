import Theyos.Models.MeshSession.Wire.Typed

/-!
# Encoding and decoding of frames and intents

The closed set of authentication frames, each under its type byte, and the intent
record beside them. The derived readers and writers of the types, and the curve
operations, are parameters.
-/

namespace Theyos.MeshSession

open Cbor Machine

def typeProofR : UInt8 := 0x01

def typeProofI : UInt8 := 0x02

def typeFinalConfirm : UInt8 := 0x03

def typeActivate : UInt8 := 0x04

def typeActivateAck : UInt8 := 0x05

def intentTypeByte : UInt8 := 0x06

/-- The P-256 operations the core calls. -/
structure P256 (Key : Type) where
  /-- Parse a public key. -/
  fromSec1Bytes : List UInt8 → Option Key
  /-- Whether the bytes are a pair of valid signature scalars. -/
  isSignature : SignatureBytes → Bool
  /-- Whether the second scalar of a signature is in its lower half. -/
  isLowS : SignatureBytes → Bool
  /-- Verify a signature over a message. -/
  verify : Key → List UInt8 → SignatureBytes → Bool

/-- Whether the bytes are a point of the curve. -/
def P256.isPoint {Key : Type} (p : P256 Key) (bytes : List UInt8) : Bool :=
  (p.fromSec1Bytes bytes).isSome

/-- A signature must parse and have its second scalar in the lower half. -/
def P256.parseLowSSignature {Key : Type} (p : P256 Key) (signature : SignatureBytes) :
    Except AuthFrameError Unit := do
  require (p.isSignature signature) .invalidSignatureScalar
  require (p.isLowS signature) .highSRejected

/-- The errors of parsing a signature, as errors of an intent. -/
def mapLowSError : AuthFrameError → IntentError
  | .highSRejected => .highSRejected
  | _ => .invalidSignatureScalar

/-- A signature field as a signature of fixed size. -/
def sigArray (sig : List UInt8) : Option SignatureBytes :=
  if h : sig.length = 64 then some ⟨⟨sig⟩, h⟩ else none

theorem sigArray_eq_some {sig : List UInt8} {signature : SignatureBytes} :
    sigArray sig = some signature ↔ sig = signature.toList := by
  unfold sigArray
  split_ifs with h
  · simp only [Option.some.injEq]
    constructor
    · rintro rfl
      rfl
    · rintro rfl
      rfl
  · simp only [false_iff]
    rintro rfl
    exact h (by simp)

/-- The derived readers and writers of the types on the wire, over one library. -/
structure Formats (isPoint : List UInt8 → Bool) where
  library : Library
  delegation : Serde (MeshSessionDelegation isPoint)
  proofR : Serde (ProofR isPoint)
  proofI : Serde (ProofI isPoint)
  finalConfirm : Serde FinalConfirm
  activate : Serde Activate
  activateAck : Serde ActivateAck
  intent : Serde SignedMeshConnectionIntent

/-- The library is deterministic and the readers and writers are the ones of the schemas. -/
structure Formats.Lawful {isPoint : List UInt8 → Bool} (F : Formats isPoint) (limit : ℕ∞) :
    Prop where
  library : F.library.Deterministic limit
  nesting : 3 ≤ limit
  delegation : F.delegation.Reads F.library limit (Schema.delegation isPoint)
  proofR : F.proofR.Reads F.library limit (Schema.proofR isPoint)
  proofI : F.proofI.Reads F.library limit (Schema.proofI isPoint)
  finalConfirm : F.finalConfirm.Reads F.library limit Schema.finalConfirm
  activate : F.activate.Reads F.library limit Schema.activate
  activateAck : F.activateAck.Reads F.library limit Schema.activateAck
  intent : F.intent.Reads F.library limit Schema.intent

variable (isPoint : List UInt8 → Bool)

/-- The formats over the library with shortest encodings. -/
def cursorFormats (limit : ℕ) : Formats isPoint where
  library := cursorLibrary limit
  delegation := (Schema.delegation isPoint).cursorSerde limit
  proofR := (Schema.proofR isPoint).cursorSerde limit
  proofI := (Schema.proofI isPoint).cursorSerde limit
  finalConfirm := Schema.finalConfirm.cursorSerde limit
  activate := Schema.activate.cursorSerde limit
  activateAck := Schema.activateAck.cursorSerde limit
  intent := Schema.intent.cursorSerde limit

theorem cursorFormats_lawful {limit : ℕ} (hlimit : 3 ≤ limit) :
    (cursorFormats isPoint limit).Lawful limit where
  library := cursorLibrary_deterministic limit
  nesting := by exact_mod_cast hlimit
  delegation := Codec.cursorSerde_reads _ limit
  proofR := Codec.cursorSerde_reads _ limit
  proofI := Codec.cursorSerde_reads _ limit
  finalConfirm := Codec.cursorSerde_reads _ limit
  activate := Codec.cursorSerde_reads _ limit
  activateAck := Codec.cursorSerde_reads _ limit
  intent := Codec.cursorSerde_reads _ limit

/-- The authentication frames. -/
inductive AuthFrame where
  | proofR (f : ProofR isPoint)
  | proofI (f : ProofI isPoint)
  | finalConfirm (f : FinalConfirm)
  | activate (f : Activate)
  | activateAck (f : ActivateAck)
  deriving DecidableEq

section

variable {isPoint : List UInt8 → Bool}

/-- The type byte of a frame. -/
def AuthFrame.typeByte : AuthFrame isPoint → UInt8
  | .proofR _ => typeProofR
  | .proofI _ => typeProofI
  | .finalConfirm _ => typeFinalConfirm
  | .activate _ => typeActivate
  | .activateAck _ => typeActivateAck

variable (F : Formats isPoint)

/-- The canonical bytes of a frame's body. -/
def AuthFrame.bodyCbor : AuthFrame isPoint → Except CborError (List UInt8)
  | .proofR f => toCanonicalVec F.library F.proofR f
  | .proofI f => toCanonicalVec F.library F.proofI f
  | .finalConfirm f => toCanonicalVec F.library F.finalConfirm f
  | .activate f => toCanonicalVec F.library F.activate f
  | .activateAck f => toCanonicalVec F.library F.activateAck f

def encodeAuthFrame (frame : AuthFrame isPoint) : Except AuthFrameError (List UInt8) := do
  let body ← (frame.bodyCbor F).mapError .cbor
  (encodeTypedFrame F.library frame.typeByte body).mapError .wire

/-- Read a body under a type byte; an unknown type byte is refused. -/
def readAuthBody (typeByte : UInt8) (body : List UInt8) :
    Except AuthFrameError (AuthFrame isPoint) :=
  if typeByte = typeProofR then
    ((fromCanonicalBytes F.library F.proofR body).map .proofR).mapError .cbor
  else if typeByte = typeProofI then
    ((fromCanonicalBytes F.library F.proofI body).map .proofI).mapError .cbor
  else if typeByte = typeFinalConfirm then
    ((fromCanonicalBytes F.library F.finalConfirm body).map .finalConfirm).mapError .cbor
  else if typeByte = typeActivate then
    ((fromCanonicalBytes F.library F.activate body).map .activate).mapError .cbor
  else if typeByte = typeActivateAck then
    ((fromCanonicalBytes F.library F.activateAck body).map .activateAck).mapError .cbor
  else .error (.wire (.unknownTypeByte typeByte))

def decodeAuthFrame (plaintext : List UInt8) : Except AuthFrameError (AuthFrame isPoint) := do
  let (typeByte, body) ← (decodeTypedFrame F.library plaintext).mapError .wire
  readAuthBody F typeByte body

def encodeIntentRecord (intent : SignedMeshConnectionIntent) : Except IntentError (List UInt8) := do
  let body ← (toCanonicalVec F.library F.intent intent).mapError .cbor
  (encodeTypedFrame F.library intentTypeByte body).mapError .wire

variable {Key : Type} (p : P256 Key)

/-- Read an intent record; its signature must parse, but is not verified yet. -/
def decodeIntentRecord (plaintext : List UInt8) : Except IntentError SignedMeshConnectionIntent := do
  let (typeByte, body) ← (decodeTypedFrame F.library plaintext).mapError .wire
  require (typeByte = intentTypeByte) (.unexpectedTypeByte typeByte)
  let intent ← (fromCanonicalBytes F.library F.intent body).mapError .cbor
  let sig ← okOr (sigArray intent.1.sig) .shapeMismatch
  (p.parseLowSSignature sig).mapError mapLowSError
  return intent

end

end Theyos.MeshSession

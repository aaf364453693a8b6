import Mathlib.Data.Nat.Notation

/-!
# Errors of the session core

The error types of the session core, with the data they report. Operating system
and cryptographic library errors carry no detail that the core looks at.
-/

namespace Theyos.MeshSession

/-- Why bytes are not an acceptable CBOR item. -/
inductive CborError where
  | encode
  | decode
  | nonCanonical
  | duplicateKey
  | nullNotAllowed
  | trailingBytes
  | unknownField
  | tagNotAllowed
  | floatNotAllowed
  | nonTextKey
  | disallowedShape
  | missingOrDuplicateSigField
  deriving DecidableEq, Repr

/-- Why a frame could not be read, written or framed. -/
inductive WireError where
  | oversizeFrame (declared max : ℕ)
  | io
  | cbor (e : CborError)
  | typeKeyInBody
  | unknownTypeByte (byte : UInt8)
  | deadlineExceeded
  | deadlineArmingFailed
  deriving DecidableEq, Repr

/-- Why the encrypted channel could not be set up or used. -/
inductive NoiseSetupError where
  | snow
  | handshakeNotFinished
  | nonEmptyHandshakePayload (length : ℕ)
  | wire (e : WireError)
  deriving DecidableEq, Repr

/-- Why a delegation is not acceptable. -/
inductive DelegationError where
  | nonCanonical
  | invalidTtlWindow
  | ttlExceedsPolicy (ttl maxTtl : UInt64)
  | badSignature
  | householdBindingMismatch
  | delegatorBindingMismatch
  | versionMismatch
  | kindMismatch
  | domainMismatch
  | profileMismatch
  | channelInvalid
  | invalidDelegatedPubPoint
  | deadlineExceeded
  | verifierUnavailable
  deriving DecidableEq, Repr

/-- Why a record does not fit the rekey schedule. -/
inductive RekeyError where
  | invalidRekeyPolicy
  | expectedRekeyMarker
  | prematureRekeyMarker
  | wrongGeneration (expected got : UInt64)
  | generationExhausted
  | stalePermit
  | rngFailure
  deriving DecidableEq, Repr

/-- Why an intent, or a collaborator asked about one, stops the ceremony. -/
inductive IntentError where
  | cbor (e : CborError)
  | wire (e : WireError)
  | versionOrDomainMismatch
  | shapeMismatch
  | unexpectedTypeByte (byte : UInt8)
  | badSignature
  | highSRejected
  | invalidSignatureScalar
  | signerFailed
  | signerProducedInvalidSignature
  | keyIdMismatch
  | delegatedKeyMismatch
  | digestMismatch
  | identityMismatch
  | ttlInvalid
  | nonceAlreadyConsumed
  | nonceCommitAmbiguous
  | nonceLedgerUnavailable
  | noLedgerConfigured
  | channelMismatch
  | noD1AdmissionConfigured
  | noRetainedGenerationResolverConfigured
  | resolvedGenerationNotAfterMismatch
  | clockUnavailable
  | deadlineExceeded
  | d1BindingMismatch
  | signerKeyMismatchPendingIntent
  | pendingIntentDelegationMismatch
  | pendingIntentCheckpointMismatch
  | emptyIdentifier
  | rosterSnapshotUnavailable
  | d1MembershipRejected
  | d1RegistryUnavailable
  | nonceEvidenceRejected
  deriving DecidableEq, Repr

/-- What became of a reserved admission that was cancelled. -/
inductive D1CancelOutcome where
  | cancelledAndRemoved
  | barrierReleasedBookkeepingDeferred
  | registryUnavailable
  deriving DecidableEq, Repr

/-- Why an authentication ceremony failed. -/
inductive AuthFrameError where
  | cbor (e : CborError)
  | wire (e : WireError)
  | shapeMismatch
  | badSignature
  | highSRejected
  | versionOrDomainMismatch
  | roleOrKindMismatch
  | hFinalMismatch
  | expectedPeerMismatch
  | checkpointMismatch
  | delegation (e : DelegationError)
  | delegationGate
  | digestMismatch
  | noise (e : NoiseSetupError)
  | ackExchangeFailedWithCancelOutcome (source : AuthFrameError) (cancelOutcome : D1CancelOutcome)
  | signerFailed
  | invalidSignatureScalar
  | signerProducedInvalidSignature
  | signerKeyMismatchDelegation
  | rekey (e : RekeyError)
  | delegationRolesMismatch
  | delegationTranscriptKindsMismatch
  | delegationChannelMismatch
  | intent (e : IntentError)
  deriving DecidableEq, Repr

/-- Why an operation on an active session failed. -/
inductive PostActiveError where
  | wire (e : WireError)
  | cbor (e : CborError)
  | emptyRecord
  | oversizeBody (declared max : ℕ)
  | nonEmptyControlBody
  | unexpectedAuthFrame (byte : UInt8)
  | unexpectedIntentRecord
  | reservedTypeByte
  | unknownTypeByte (byte : UInt8)
  | closed
  | notAuthorized
  | expired
  | rekey (e : RekeyError)
  | noise (e : NoiseSetupError)
  | receiveBufferTooSmall (bufferLen payloadLen : ℕ)
  | peerClosed
  | peerRevoked
  | intent (e : IntentError)
  deriving DecidableEq, Repr

end Theyos.MeshSession

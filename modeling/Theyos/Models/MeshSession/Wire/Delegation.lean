import Theyos.Core.Machine.Guard
import Theyos.Core.Word.Checked
import Theyos.Models.MeshSession.Error

/-!
# Mesh session delegations

A delegation names the key that a machine lets sign its session frames, for whom, on which channel
and for how long. Every way to obtain one checks its shape, so a delegation carries the proof that
its shape was checked.
-/

namespace Theyos.MeshSession

open Machine

/-- The delegation kind on the wire. -/
def delegationKind : String := "soyeht/mesh-session/delegation/v1"

/-- The delegation domain on the wire. -/
def delegationDomain : String := "soyeht/mesh-session/v1"

/-- The delegation profile on the wire. -/
def delegationProfile : String := "mesh-session"

/-- The delegation version on the wire. -/
def delegationVersion : UInt64 := 1

/-- The fields of a delegation as they stand on the wire. -/
structure DelegationWire where
  version : UInt64
  kind : String
  domain : String
  hhId : String
  delegatorMId : String
  delegatorCertFingerprint : List UInt8
  delegatedPub : List UInt8
  delegatedKeyId : String
  profile : String
  transcriptKinds : List String
  roles : List String
  channel : String
  serial : UInt64
  notBefore : UInt64
  notAfter : UInt64
  sig : List UInt8
  deriving DecidableEq, Repr

/-- The fixed sizes and literals, and that the delegated key is a point of the curve. -/
def DelegationWire.validateShape (isPoint : List UInt8 → Bool) (d : DelegationWire) :
    Except DelegationError Unit := do
  require (d.delegatorCertFingerprint.length = 32 ∧ d.delegatedPub.length = 33 ∧
    d.sig.length = 64) .nonCanonical
  require (d.version = delegationVersion) .versionMismatch
  require (d.kind = delegationKind) .kindMismatch
  require (d.domain = delegationDomain) .domainMismatch
  require (d.profile = delegationProfile) .profileMismatch
  require (d.channel = "dev" ∨ d.channel = "release") .channelInvalid
  require (isPoint d.delegatedPub) .invalidDelegatedPubPoint

/-- A delegation whose shape was checked. -/
abbrev MeshSessionDelegation (isPoint : List UInt8 → Bool) : Type :=
  Checked (DelegationWire.validateShape isPoint)

theorem MeshSessionDelegation.sizes {isPoint : List UInt8 → Bool}
    (d : MeshSessionDelegation isPoint) :
    d.1.delegatorCertFingerprint.length = 32 ∧ d.1.delegatedPub.length = 33 ∧
      d.1.sig.length = 64 := by
  have h := d.2
  simp only [DelegationWire.validateShape, eq_ok_iff] at h
  exact h.1

/-- What a proof and the local identity say that a delegation is compared with. -/
structure PartialBindingInputs where
  proofHhId : String
  localHhId : String
  proofSelfMId : String
  proofSelfCertFingerprint : List UInt8

/-- The household, the delegating machine and its certificate agree. -/
def DelegationWire.checkPartialBinding (d : DelegationWire) (ctx : PartialBindingInputs) :
    Except DelegationError Unit := do
  require (ctx.proofHhId = ctx.localHhId ∧ ctx.localHhId = d.hhId) .householdBindingMismatch
  require (ctx.proofSelfMId = d.delegatorMId) .delegatorBindingMismatch
  require (ctx.proofSelfCertFingerprint = d.delegatorCertFingerprint) .delegatorBindingMismatch

/-- The longest validity window a delegation may have. -/
structure DelegationPolicy where
  maxTtl : UInt64

/-- Until a measured value is configured, every delegation is refused. -/
def DelegationPolicy.production : DelegationPolicy := ⟨0⟩

/-- A window must not be empty, reversed or longer than the policy allows. -/
def DelegationPolicy.validateWindow (p : DelegationPolicy) (notBefore notAfter : UInt64) :
    Except DelegationError Unit := do
  let ttl ← okOr (checkedSub notAfter notBefore) .invalidTtlWindow
  require (ttl ≠ 0) .invalidTtlWindow
  require (ttl ≤ p.maxTtl) (.ttlExceedsPolicy ttl p.maxTtl)

/-- The policy looks at a delegation's own window only. -/
def DelegationPolicy.validate (p : DelegationPolicy) (d : DelegationWire) :
    Except DelegationError Unit :=
  p.validateWindow d.notBefore d.notAfter

end Theyos.MeshSession

import Theyos.Core.Machine.Guard
import Theyos.Models.MeshControl.Record.Slot

/-!
# Validation of a generation's binding

The full check of a generation record before it is activated and before it signs: the delegation's
constants and scope for the purpose, the identity it names, its validity window, the delegator's
standing in the roster and its signature, and the key it delegates to.
-/

namespace Theyos.MeshControl

open Machine

/-- A machine's standing in the roster. -/
inductive RosterCurrency where
  | active (memberPub : List UInt8) (memberCertFingerprint : Digest)
  | revoked
  | notListed
  | unavailable
  deriving DecidableEq, Repr

/-- The signature scheme: whether a signature over a delegation verifies under a key. -/
abbrev SignatureVerifier := List UInt8 → Delegation → List UInt8 → Bool

/-- Local limits on delegations. -/
structure DelegationPolicy where
  maxTtl : UInt64
  deriving DecidableEq, Repr

namespace DelegationPolicy

/-- The production policy admits no delegation. -/
def production : DelegationPolicy := ⟨0⟩

/-- A policy with the given limit. -/
def test (maxTtl : UInt64) : DelegationPolicy := ⟨maxTtl⟩

end DelegationPolicy

/-- The version of the delegation schema. -/
def delegationSchemaVersion : UInt64 := 1

/-- The exact roles and transcript kinds a purpose requires. -/
structure DelegationScopePolicy where
  roles : List String
  transcriptKinds : List String
  deriving DecidableEq, Repr

/-- The constants of a purpose. -/
structure PurposeMarker where
  purposeId : PurposeId
  delegationDomain : String
  delegationKind : String
  profile : String
  roles : List String
  requiredScope : Option DelegationScopePolicy
  deriving DecidableEq, Repr

/-- The session purpose. -/
def meshSessionPurpose : PurposeMarker where
  purposeId := .meshSession
  delegationDomain := "soyeht/mesh-session/v1"
  delegationKind := "soyeht/mesh-session/delegation/v1"
  profile := "mesh-session"
  roles := ["initiator", "responder"]
  requiredScope := some ⟨["initiator", "responder"], ["final-confirm", "activate", "activate-ack"]⟩

/-- Whether a list has exactly the required entries, each once, in any order. -/
def isExactScope (actual required : List String) : Bool :=
  actual.length = required.length ∧ actual.Nodup ∧ required.all (actual.contains ·)

/-- Why a binding is refused. -/
inductive ValidationError where
  | versionMismatch
  | delegationKindMismatch
  | domainMismatch
  | profileMismatch
  | roleMismatch
  | transcriptKindsEmpty
  | roleScopeMismatch
  | transcriptKindsScopeMismatch
  | channelMismatch
  | hhIdMismatch
  | identityMismatch
  | delegationInvalid
  | delegationNotInWindow
  | notAfterDrift
  | delegatorRevoked
  | delegatorNotInRoster
  | rosterUnavailable
  | delegatorFingerprintMismatch
  | signatureInvalid
  | keyIdMismatch
  | delegatedPubBindingMismatch
  | purposeMismatch
  | physicalKeyNotConfirmed
  | rosterChangedDuringActivation
  deriving DecidableEq, Repr

/-- The identity a delegation must name. -/
structure BindingContext where
  hhId : String
  machineId : String
  channel : Channel
  deriving DecidableEq, Repr

/-- The context of a record's own identity. -/
def BindingContext.fromIdentity (identity : ControlIdentity) : BindingContext :=
  ⟨identity.hhId, identity.machineId, identity.channel⟩

/-- The scope check: the exact ratified scope, or known roles and some transcript kind. -/
def validateScope (P : PurposeMarker) (d : Delegation) : Except ValidationError Unit :=
  match P.requiredScope with
  | some scope => do
    require (isExactScope d.roles scope.roles) .roleScopeMismatch
    require (isExactScope d.transcriptKinds scope.transcriptKinds) .transcriptKindsScopeMismatch
  | none => do
    require (d.roles ≠ [] ∧ d.roles.all (P.roles.contains ·)) .roleMismatch
    require (d.transcriptKinds ≠ []) .transcriptKindsEmpty

/-- The delegator is an active member that signed the delegation. -/
def validateDelegator (currency : RosterCurrency) (verify : SignatureVerifier) (d : Delegation) :
    Except ValidationError Unit :=
  match currency with
  | .active memberPub memberCertFingerprint => do
    require (memberCertFingerprint = d.delegatorCertFingerprint) .delegatorFingerprintMismatch
    require (verify memberPub d d.sig) .signatureInvalid
  | .revoked => .error .delegatorRevoked
  | .notListed => .error .delegatorNotInRoster
  | .unavailable => .error .rosterUnavailable

section

variable (H : Hashes) (P : PurposeMarker) (g : GenerationRecord) (ctx : BindingContext)
  (policy : DelegationPolicy) (queryMachineCurrency : String → RosterCurrency)
  (verify : SignatureVerifier) (now : UInt64)

/-- The full check of a generation record against its context, the roster and the clock. -/
def validateFullBinding : Except ValidationError Unit := do
  let d := g.delegation
  require (d.version = delegationSchemaVersion) .versionMismatch
  require (d.kind = P.delegationKind) .delegationKindMismatch
  require (d.domain = P.delegationDomain) .domainMismatch
  require (d.profile = P.profile) .profileMismatch
  validateScope P d
  require (d.channel = ctx.channel) .channelMismatch
  require (d.hhId = ctx.hhId) .hhIdMismatch
  require (d.delegatorMId = ctx.machineId) .identityMismatch
  let duration ← okOr (checkedSub d.notAfter d.notBefore) .delegationInvalid
  require (d.notBefore < d.notAfter ∧ duration ≤ policy.maxTtl) .delegationInvalid
  require (d.notBefore ≤ now ∧ now < d.notAfter) .delegationNotInWindow
  require (g.notAfter = d.notAfter) .notAfterDrift
  validateDelegator (queryMachineCurrency d.delegatorMId) verify d
  require (d.delegatedKeyId = g.binding.slot.canonicalId H) .keyIdMismatch
  require (d.delegatedPub = g.binding.publicKey) .delegatedPubBindingMismatch

/-- What the full check establishes about a generation record. -/
@[mk_iff] structure Admissible : Prop where
  version : g.delegation.version = delegationSchemaVersion
  kind : g.delegation.kind = P.delegationKind
  domain : g.delegation.domain = P.delegationDomain
  profile : g.delegation.profile = P.profile
  scope : validateScope P g.delegation = .ok ()
  channel : g.delegation.channel = ctx.channel
  hhId : g.delegation.hhId = ctx.hhId
  delegator : g.delegation.delegatorMId = ctx.machineId
  /-- The delegation's duration is positive and within the policy. -/
  duration : g.delegation.notBefore < g.delegation.notAfter ∧
    g.delegation.notAfter.toNat ≤ g.delegation.notBefore.toNat + policy.maxTtl.toNat
  window : g.delegation.notBefore ≤ now ∧ now < g.delegation.notAfter
  notAfter : g.notAfter = g.delegation.notAfter
  /-- The delegator is an active member under the certificate the delegation names, and signed. -/
  signed : ∃ memberPub, queryMachineCurrency g.delegation.delegatorMId =
      .active memberPub g.delegation.delegatorCertFingerprint ∧
    verify memberPub g.delegation g.delegation.sig = true
  keyId : g.delegation.delegatedKeyId = g.binding.slot.canonicalId H
  publicKey : g.delegation.delegatedPub = g.binding.publicKey

end

/-- The delegator's check passes exactly for an active member that signed. -/
theorem validateDelegator_eq_ok {currency : RosterCurrency} {verify : SignatureVerifier}
    {d : Delegation} {u : Unit} :
    validateDelegator currency verify d = .ok u ↔
      ∃ memberPub, currency = .active memberPub d.delegatorCertFingerprint ∧
        verify memberPub d d.sig = true := by
  cases currency with
  | active memberPub fingerprint =>
    simp only [validateDelegator, eq_ok_iff, RosterCurrency.active.injEq]
    grind
  | revoked | notListed | unavailable => exact ⟨nofun, fun ⟨_, h, _⟩ => nomatch h⟩

variable {H : Hashes} {P : PurposeMarker} {g : GenerationRecord} {ctx : BindingContext}
  {policy : DelegationPolicy} {query : String → RosterCurrency} {verify : SignatureVerifier}
  {now : UInt64}

theorem duration_iff {notBefore notAfter maxTtl : UInt64} :
    (∃ duration, checkedSub notAfter notBefore = some duration ∧
        notBefore < notAfter ∧ duration ≤ maxTtl) ↔
      notBefore < notAfter ∧ notAfter.toNat ≤ notBefore.toNat + maxTtl.toNat := by
  simp only [checkedSub_eq_some, UInt64.lt_iff_toNat_lt, UInt64.le_iff_toNat_le]
  constructor
  · omega
  · rintro ⟨hlt, hle⟩
    have hword := UInt64.toNat_sub_of_le _ _ (UInt64.le_iff_toNat_le.mpr hlt.le)
    exact ⟨notAfter - notBefore, by omega, hlt, by omega⟩

/-- The full check passes exactly for the admissible generation records. -/
theorem validateFullBinding_eq_ok {u : Unit} :
    validateFullBinding H P g ctx policy query verify now = .ok u ↔
      Admissible H P g ctx policy query verify now := by
  simp only [validateFullBinding, eq_ok_iff, validateDelegator_eq_ok, admissible_iff,
    ← duration_iff]
  grind

/-- The production policy admits no generation, whatever the roster and the clock say. -/
theorem validateFullBinding_production {u : Unit} :
    validateFullBinding H P g ctx .production query verify now ≠ .ok u := by
  intro h
  obtain ⟨hlt, hle⟩ := (validateFullBinding_eq_ok.mp h).duration
  rw [UInt64.lt_iff_toNat_lt] at hlt
  have hzero : DelegationPolicy.production.maxTtl.toNat = 0 := rfl
  omega

end Theyos.MeshControl

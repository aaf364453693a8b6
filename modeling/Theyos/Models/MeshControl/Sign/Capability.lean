import Theyos.Models.MeshControl.Cell.Validator
import Theyos.Models.MeshControl.Store.File

/-!
# Signer capabilities and checked signing

The steps of loading a signer capability, which run without any lock, and of a checked signature,
which leases the roster, takes the cell's shared guard, compares a fresh reading with the
capability and samples the clock again before the signing primitive runs.
-/

namespace Theyos.MeshControl

open Machine

/-- Why no capability was produced. -/
inductive SignerCapabilityError where
  | noRecord
  | recordCorrupt
  | notActive
  | generationNotLive
  | validation (error : ValidationError)
  | expired
  deriving DecidableEq, Repr

/-- Why nothing was signed. -/
inductive SignCheckedError where
  | noRecord
  | recordCorrupt
  | rosterChanged
  | delegatorMismatch
  | notActive
  | identityOrPurposeMismatch
  | epochMismatch
  | generationNotLive
  | generationChanged
  | expired
  deriving DecidableEq, Repr

/-- What a signer is sealed to. -/
structure SignerCapability where
  identity : ControlIdentity
  purpose : PurposeId
  epoch : NonZeroU64
  /-- The whole generation record that was validated. -/
  validatedGeneration : GenerationRecord
  /-- The roster revision sampled before the validation. -/
  rosterRevisionAtValidation : UInt64
  deriving DecidableEq, Repr

/-- The generation a capability is sealed to. -/
def SignerCapability.generation (c : SignerCapability) : NonZeroU64 :=
  c.validatedGeneration.generation

/-- The machine whose roster entry a capability depends on. -/
def SignerCapability.delegator (c : SignerCapability) : String :=
  c.validatedGeneration.delegation.delegatorMId

/-- The live generation of a given number. -/
def liveGeneration (r : MeshSignerControlRecordV1) (generation : NonZeroU64) :
    Option GenerationRecord :=
  r.liveGenerations.find? (·.generation = generation)

variable (loaded : LoadOutcome)

/-- Read the record for a signer of a live, unexpired generation. -/
def readForSigner (P : PurposeMarker) (requestedGeneration : NonZeroU64)
    (now : UInt64) :
    Except SignerCapabilityError (MeshSignerControlRecordV1 × GenerationRecord) :=
  match loaded with
  | .missing => .error .noRecord
  | .corrupt => .error .recordCorrupt
  | .exact record => do
    require (record.purpose = P.purposeId) (.validation .purposeMismatch)
    require (record.authority = .active) .notActive
    let g ← okOr (liveGeneration record requestedGeneration) .generationNotLive
    require (now < g.notAfter) .expired
    return (record, g)

/-- Confirm the physical entry of a generation, from the binding observed there. -/
def confirmSigner (g : GenerationRecord) (observed : Option ExactBinding) :
    Except SignerCapabilityError Unit :=
  require (observed = some g.binding) (.validation .physicalKeyNotConfirmed)

/-- Validate the generation and seal the capability. -/
def sealCapability (H : Hashes) (P : PurposeMarker) (policy : DelegationPolicy)
    (record : MeshSignerControlRecordV1) (g : GenerationRecord) (now : UInt64)
    (rosterRevisionAtValidation : UInt64) (queryMachineCurrency : String → RosterCurrency)
    (verify : SignatureVerifier) : Except SignerCapabilityError SignerCapability := do
  (validateFullBinding H P g (.fromIdentity record.identity) policy queryMachineCurrency verify
    now).mapError .validation
  return {
    identity := record.identity
    purpose := record.purpose
    epoch := record.epochHighWater
    validatedGeneration := g
    rosterRevisionAtValidation }

/-- The delegator the lease is about to be taken for is the capability's. -/
def peekDelegator (c : SignerCapability) : Except SignCheckedError Unit :=
  match loaded with
  | .missing => .error .noRecord
  | .corrupt => .error .recordCorrupt
  | .exact peek => do
    let g ← okOr (liveGeneration peek c.generation) .generationNotLive
    require (g.delegation.delegatorMId = c.delegator) .delegatorMismatch

/-- The roster grants the lease at the capability's revision only. -/
def acquireCurrencyLease (currencyRevision : UInt64) (c : SignerCapability) :
    Except SignCheckedError Unit :=
  require (currencyRevision = c.rosterRevisionAtValidation) .rosterChanged

/-- The fresh reading agrees with the capability in everything it is sealed to. -/
def compareFresh (c : SignerCapability) : Except SignCheckedError Unit :=
  match loaded with
  | .missing => .error .noRecord
  | .corrupt => .error .recordCorrupt
  | .exact fresh => do
    require (fresh.identity = c.identity ∧ fresh.purpose = c.purpose) .identityOrPurposeMismatch
    require (fresh.authority = .active) .notActive
    require (fresh.epochHighWater = c.epoch) .epochMismatch
    let g ← okOr (liveGeneration fresh c.generation) .generationNotLive
    require (g = c.validatedGeneration) .generationChanged

/-- The clock sample taken under both locks is before the expiry. -/
def checkClock (now : UInt64) (c : SignerCapability) : Except SignCheckedError Unit :=
  require (now < c.validatedGeneration.notAfter) .expired

/-- A record agrees with a capability: active, at its epoch, with its generation live. -/
@[mk_iff] structure Agrees (r : MeshSignerControlRecordV1) (c : SignerCapability) : Prop where
  identity : r.identity = c.identity
  purpose : r.purpose = c.purpose
  active : r.authority = .active
  epoch : r.epochHighWater = c.epoch
  live : liveGeneration r c.generation = some c.validatedGeneration

theorem readForSigner_eq_ok {loaded : LoadOutcome} {P : PurposeMarker}
    {requestedGeneration : NonZeroU64} {now : UInt64} {r : MeshSignerControlRecordV1}
    {g : GenerationRecord} (h : readForSigner loaded P requestedGeneration now = .ok (r, g)) :
    loaded = .exact r ∧ r.authority = .active ∧
      liveGeneration r requestedGeneration = some g ∧ now < g.notAfter := by
  cases loaded with
  | missing | corrupt => cases h
  | exact record =>
    simp only [readForSigner, eq_ok_iff, Prod.mk.injEq] at h
    obtain ⟨_, hactive, g', hg, hnow, rfl, rfl⟩ := h
    exact ⟨rfl, hactive, hg, hnow⟩

/-- Only a record that agrees with the capability passes the comparison. -/
theorem compareFresh_eq_ok {loaded : LoadOutcome} {c : SignerCapability} {u : Unit} :
    compareFresh loaded c = .ok u ↔ ∃ r, loaded = .exact r ∧ Agrees r c := by
  cases loaded with
  | missing | corrupt => exact ⟨nofun, fun ⟨_, h, _⟩ => nomatch h⟩
  | exact fresh =>
    simp only [compareFresh, eq_ok_iff, LoadOutcome.exact.injEq, agrees_iff]
    grind

end Theyos.MeshControl

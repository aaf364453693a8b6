import Theyos.Core.Machine.Guard
import Theyos.Core.Word.Checked
import Theyos.Models.MeshSession.Error

/-!
# The rekey counters of one direction

A direction counts the records since its last rekeying and the rekeyings so far. Sending takes two
calls, tied together by a permit.
-/

namespace Theyos.MeshSession

open Machine

/-- The number of records after which a direction rekeys, the marker included. -/
structure RekeyThreshold where
  value : NonZeroU64
  deriving DecidableEq, Repr

namespace RekeyThreshold

/-- A zero threshold is refused. -/
def new (threshold : UInt64) : Except RekeyError RekeyThreshold :=
  okOr ((NonZeroU64.new threshold).map mk) .invalidRekeyPolicy

/-- The count at which a marker is due. -/
def minusOne (t : RekeyThreshold) : UInt64 := t.value.get - 1

end RekeyThreshold

/-- The random identity of a direction's state. -/
abbrev RekeyStateId := Vector UInt8 32

/-- What a decoded record means for the counters. -/
inductive IncomingRecord where
  | nonMarker
  | marker (nextGeneration : UInt64)
  deriving DecidableEq, Repr

/-- The permission to send a record that is no marker. -/
structure SendNonMarkerPermit where
  issuer : RekeyStateId
  expectedGeneration : UInt64
  expectedPolicyCount : UInt64
  deriving DecidableEq, Repr

/-- The permission to send a marker, with the generation the marker has to carry. -/
structure SendMarkerPermit where
  issuer : RekeyStateId
  expectedGeneration : UInt64
  expectedPolicyCount : UInt64
  nextGeneration : UInt64
  deriving DecidableEq, Repr

/-- The counters of one direction. -/
structure DirectionalRekeyState where
  id : RekeyStateId
  generation : UInt64
  policyCount : UInt64
  threshold : RekeyThreshold
  deriving DecidableEq, Repr

namespace DirectionalRekeyState

/-- The state right after activation, with the identity the random source gave. -/
def new (threshold : RekeyThreshold) (fresh : Option RekeyStateId) :
    Except RekeyError DirectionalRekeyState := do
  let id ← okOr fresh .rngFailure
  return ⟨id, 0, 0, threshold⟩

section

variable (s : DirectionalRekeyState)

/-- A record that is no marker may be sent unless a marker is due. -/
def beforeSendNonMarker : Except RekeyError SendNonMarkerPermit :=
  if s.policyCount = s.threshold.minusOne then .error .expectedRekeyMarker
  else .ok ⟨s.id, s.generation, s.policyCount⟩

/-- Count a record that was sent. -/
def afterSendNonMarker (permit : SendNonMarkerPermit) :
    Except RekeyError DirectionalRekeyState := do
  require (¬ (permit.issuer ≠ s.id ∨ permit.expectedGeneration ≠ s.generation ∨
    permit.expectedPolicyCount ≠ s.policyCount)) .stalePermit
  let count ← okOr (checkedAdd s.policyCount 1) .generationExhausted
  return { s with policyCount := count }

/-- A marker may be sent exactly when one is due. -/
def beforeSendMarker : Except RekeyError SendMarkerPermit :=
  if s.policyCount ≠ s.threshold.minusOne then .error .prematureRekeyMarker
  else do
    let nextGeneration ← okOr (checkedAdd s.generation 1) .generationExhausted
    return ⟨s.id, s.generation, s.policyCount, nextGeneration⟩

/-- Check a permit against the current counters. -/
def validateMarkerPermit (permit : SendMarkerPermit) : Except RekeyError Unit :=
  require (¬ (permit.issuer ≠ s.id ∨ permit.expectedGeneration ≠ s.generation ∨
    permit.expectedPolicyCount ≠ s.policyCount)) .stalePermit

/-- Begin the generation of a marker that was sent. -/
def afterSendMarker (permit : SendMarkerPermit) : Except RekeyError DirectionalRekeyState := do
  s.validateMarkerPermit permit
  return { s with generation := permit.nextGeneration, policyCount := 0 }

/-- Process a received record. -/
def onReceive : IncomingRecord → Except RekeyError DirectionalRekeyState
  | .nonMarker =>
    if s.policyCount = s.threshold.minusOne then .error .expectedRekeyMarker
    else do
      let count ← okOr (checkedAdd s.policyCount 1) .generationExhausted
      return { s with policyCount := count }
  | .marker nextGeneration => do
    let expected ← okOr (checkedAdd s.generation 1) .generationExhausted
    require (nextGeneration = expected) (.wrongGeneration expected nextGeneration)
    require (s.policyCount = s.threshold.minusOne) .prematureRekeyMarker
    return { s with generation := nextGeneration, policyCount := 0 }

end

/-- Process received records in order. -/
def receiveAll : DirectionalRekeyState → List IncomingRecord →
    Except RekeyError DirectionalRekeyState
  | s, [] => .ok s
  | s, record :: records => do receiveAll (← s.onReceive record) records

end DirectionalRekeyState

/-- The counters of both directions. -/
structure SessionRekeyState where
  tx : DirectionalRekeyState
  rx : DirectionalRekeyState
  deriving DecidableEq, Repr

end Theyos.MeshSession

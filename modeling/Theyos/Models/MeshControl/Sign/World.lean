import Theyos.Models.MeshControl.Run.Submission
import Theyos.Models.MeshControl.Sign.Capability

/-!
# Interleaved signers

Any number of signers interleave with commits to the record and with changes of the roster, one
step at a time.
-/

namespace Theyos.MeshControl

open MeshSignerControlRecordV1 Machine

/-- The roster as signers see it. -/
structure Roster where
  currencyRevision : String → UInt64
  currency : String → RosterCurrency

/-- A new entry of a machine, under a new revision. -/
structure RosterChange where
  machine : String
  revision : UInt64
  currency : RosterCurrency
  deriving DecidableEq, Repr

/-- The roster after a change. -/
def Roster.change (r : Roster) (c : RosterChange) : Roster where
  currencyRevision := Function.update r.currencyRevision c.machine c.revision
  currency := Function.update r.currency c.machine c.currency

/-- What a signer has read on its way to a capability. -/
structure SignerLoad where
  marker : PurposeMarker
  policy : DelegationPolicy
  record : MeshSignerControlRecordV1
  generation : GenerationRecord
  now : UInt64
  /-- How many submissions the record read had been through. -/
  readAt : ℕ
  deriving DecidableEq, Repr

/-- A sampled roster revision. -/
structure RosterSample where
  revision : UInt64
  /-- How many changes the roster sampled had been through. -/
  sampledAt : ℕ
  deriving DecidableEq, Repr

/-- A capability, with the places in the run of what it was made from. -/
structure SealedSigner where
  capability : SignerCapability
  /-- How many submissions the record read had been through. -/
  readAt : ℕ
  /-- How many changes the roster had been through when its revision was sampled. -/
  sampledAt : ℕ
  /-- How many changes the roster had been through when the generation was validated. -/
  validatedAt : ℕ
  deriving DecidableEq, Repr

/-- Where a signer stands between two of its steps. -/
inductive SignerPhase where
  | idle
  | read (l : SignerLoad)
  | sampled (l : SignerLoad) (sample : RosterSample)
  | confirmed (l : SignerLoad) (sample : RosterSample)
  | capable (s : SealedSigner)
  | peeked (s : SealedSigner)
  | leased (s : SealedSigner)
  | guarded (s : SealedSigner)
  | compared (s : SealedSigner)
  /-- The primitive runs, after the given clock sample. -/
  | signing (s : SealedSigner) (now : UInt64)
  deriving DecidableEq, Repr

namespace SignerPhase

/-- The signer holds the cell's shared guard. -/
def holdsGuard : SignerPhase → Bool
  | .guarded _ | .compared _ | .signing _ _ => true
  | _ => false

/-- The machine whose roster entry the signer holds leased. -/
def leasedMachine : SignerPhase → Option String
  | .leased s | .guarded s | .compared s | .signing s _ => some s.capability.delegator
  | _ => none

/-- The phase after a check: a refusal falls back, which releases what was held. -/
def afterCheck {ε α : Type} (fallback : SignerPhase) (next : α → SignerPhase) :
    Except ε α → SignerPhase
  | .ok a => next a
  | .error _ => fallback

end SignerPhase

/-- One step of a signer, with what the environment answers it. -/
inductive SignerAction where
  | load (readable : Bool) (marker : PurposeMarker) (policy : DelegationPolicy)
      (requestedGeneration : NonZeroU64) (now : UInt64)
  | sampleRoster
  | confirm (observed : Option ExactBinding)
  | validate (verify : SignatureVerifier)
  | peek (readable : Bool)
  | lease
  | guard
  | compare (readable : Bool)
  | sampleClock (now : UInt64)
  | finish
  | discard

/-- The record, the roster and the signers. -/
structure SigningWorld (ι : Type) where
  /-- The submissions committed so far. -/
  history : List Submission
  initialRoster : Roster
  /-- The changes of the roster so far. -/
  rosterHistory : List RosterChange
  phase : ι → SignerPhase

/-- One step of the record, the roster or a signer. -/
inductive SigningEvent (ι : Type) where
  | commit (s : Submission)
  | rosterChange (c : RosterChange)
  | signer (i : ι) (action : SignerAction)

/-- Why a step does not happen. -/
inductive SigningRefusal where
  | excluded
  | outOfOrder
  deriving DecidableEq, Repr

namespace SigningWorld

variable {ι : Type} (H : Hashes) (identity : ControlIdentity) (purpose : PurposeId)

/-- A pristine record, an arbitrary roster and no signer at work. -/
def init (roster : Roster) : SigningWorld ι :=
  ⟨[], roster, [], fun _ => .idle⟩

variable (w : SigningWorld ι)

/-- The record after the first `n` submissions. -/
def recordAt (n : ℕ) : MeshSignerControlRecordV1 :=
  run (submit H) (bootstrap identity purpose) (w.history.take n)

/-- The stored record. -/
def record : MeshSignerControlRecordV1 :=
  run (submit H) (bootstrap identity purpose) w.history

/-- The roster after the first `n` changes. -/
def rosterAt (n : ℕ) : Roster :=
  (w.rosterHistory.take n).foldl Roster.change w.initialRoster

/-- The present roster. -/
def roster : Roster :=
  w.rosterHistory.foldl Roster.change w.initialRoster

/-- A reading of the stored record, which may fail. -/
def loadCanonical (readable : Bool) : LoadOutcome :=
  if readable then .exact (w.record H identity purpose) else .corrupt

/-- The phase a signer's step leads to, if the step is the next one of its procedure. -/
def act : SignerPhase → SignerAction → Option SignerPhase
  | .idle, .load readable marker policy requestedGeneration now =>
    some <| .afterCheck .idle
      (fun (record, g) => .read ⟨marker, policy, record, g, now, w.history.length⟩)
      (readForSigner (w.loadCanonical H identity purpose readable) marker requestedGeneration now)
  | .read l, .sampleRoster =>
    some <| .sampled l ⟨w.roster.currencyRevision l.generation.delegation.delegatorMId,
      w.rosterHistory.length⟩
  | .sampled l sample, .confirm observed =>
    some <| .afterCheck .idle (fun _ => .confirmed l sample)
      (confirmSigner l.generation observed)
  | .confirmed l sample, .validate verify =>
    some <| .afterCheck .idle
      (fun c => .capable ⟨c, l.readAt, sample.sampledAt, w.rosterHistory.length⟩)
      (sealCapability H l.marker l.policy l.record l.generation l.now sample.revision
        w.roster.currency verify)
  | .capable s, .peek readable =>
    some <| .afterCheck (.capable s) (fun _ => .peeked s)
      (peekDelegator (w.loadCanonical H identity purpose readable) s.capability)
  | .peeked s, .lease =>
    some <| .afterCheck (.capable s) (fun _ => .leased s)
      (acquireCurrencyLease (w.roster.currencyRevision s.capability.delegator) s.capability)
  | .leased s, .guard => some (.guarded s)
  | .guarded s, .compare readable =>
    some <| .afterCheck (.capable s) (fun _ => .compared s)
      (compareFresh (w.loadCanonical H identity purpose readable) s.capability)
  | .compared s, .sampleClock now =>
    some <| .afterCheck (.capable s) (fun _ => .signing s now) (checkClock now s.capability)
  | .signing s _, .finish => some (.capable s)
  | .capable _, .discard => some .idle
  | _, _ => none

/-- One step of the world. -/
def step [Fintype ι] [DecidableEq ι] (w : SigningWorld ι) :
    SigningEvent ι → Except SigningRefusal (SigningWorld ι)
  | .commit s => do
    require (∀ i, (w.phase i).holdsGuard = false) .excluded
    return { w with history := w.history ++ [s] }
  | .rosterChange c => do
    require (∀ i, (w.phase i).leasedMachine ≠ some c.machine) .excluded
    return { w with rosterHistory := w.rosterHistory ++ [c] }
  | .signer i action => do
    let next ← okOr (w.act H identity purpose (w.phase i) action) .outOfOrder
    return { w with phase := Function.update w.phase i next }

end SigningWorld

end Theyos.MeshControl

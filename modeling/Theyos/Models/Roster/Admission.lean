import Theyos.Core.Word.Checked
import Theyos.Models.Roster.Projection

/-!
# Admitting checkpoints

The state of a roster chain and what one offered checkpoint makes of it.
-/

namespace Theyos.Roster

open Household Machine

/-- What is kept of the last accepted checkpoint. -/
structure AcceptedRosterData where
  epoch : Digest
  checkpointSequence : UInt64
  checkpointHash : Digest
  prevCheckpointHash : Digest
  eventSequence : UInt64
  eventHeadHash : Digest
  predecessorEventSequence : UInt64
  predecessorEventHeadHash : Digest
  issuedAt : UInt64
  notAfter : UInt64
  ownerCertFingerprint : Digest
  genesisBasis : VerifiedGenesisRoster
  active : List MachineRosterMemberV1
  tombstones : List MachineRosterRevocationV1
  deriving DecidableEq, Repr

/-- The state of a roster chain. -/
inductive AcceptedRosterChainState where
  | noGenesis
  | accepted (data : AcceptedRosterData)
  | checkpointForkConflict (epoch : Digest) (sequence : UInt64) (hashes : List Digest)
  | eventForkConflict (epoch : Digest) (sequence : UInt64) (hashes : List Digest)
  deriving DecidableEq, Repr

/-- The state after a checkpoint was offered, and what became of the checkpoint. -/
abbrev AdmissionOutcome : Type := AcceptedRosterChainState × CheckpointAdmissionResult

/-- The longest a checkpoint may be valid, in seconds. -/
def maxCheckpointLifetimeSecs : ℕ := 300

/-- How far ahead of the clock a checkpoint may be issued, in seconds. -/
def maxFutureSkewSecs : UInt64 := 60

/-- Whether the bound owner certificate is the candidate's. -/
def AdmissionContext.ownerAuthorityAvailable (ctx : AdmissionContext) (candidateFp : Digest)
    (hasPriorAccepted : Bool) : Bool :=
  match ctx.boundOwnerCertFingerprint with
  | some fp => fp == candidateFp
  | none => !hasPriorAccepted

/-- Whether the bound owner certificate is the state's. -/
def AdmissionContext.ownerAvailableForCurrency (ctx : AdmissionContext) (stateFp : Digest) : Bool :=
  match ctx.boundOwnerCertFingerprint with
  | some fp => fp == stateFp
  | none => false

/-- A checkpoint read from canonical bytes; its version and kind are known. -/
structure CanonicalCheckpoint where
  inner : MachineRosterCheckpointV1
  schema : inner.v = 1 ∧ inner.kind = checkpointKind

/-- The state after accepting a checkpoint on top of the events of its predecessor. -/
def AcceptedRosterData.next (candidate : MachineRosterCheckpointV1) (candidateHash : Digest)
    (predecessorEventSequence : UInt64) (predecessorEventHeadHash : Digest)
    (basis : VerifiedGenesisRoster)
    (projected : List MachineRosterMemberV1 × List MachineRosterRevocationV1) :
    AcceptedRosterData where
  epoch := candidate.epoch
  checkpointSequence := candidate.checkpointSequence
  checkpointHash := candidateHash
  prevCheckpointHash := candidate.prevCheckpointHash
  eventSequence := candidate.eventSequence
  eventHeadHash := candidate.eventHeadHash
  predecessorEventSequence := predecessorEventSequence
  predecessorEventHeadHash := predecessorEventHeadHash
  issuedAt := candidate.issuedAt
  notAfter := candidate.notAfter
  ownerCertFingerprint := candidate.ownerCertFingerprint
  genesisBasis := basis
  active := projected.1
  tombstones := projected.2

/-- What the next checkpoint is compared with. -/
structure NextSeqInput where
  epoch : Digest
  checkpointSequence : UInt64
  checkpointHash : Digest
  eventSequence : UInt64
  eventHeadHash : Digest
  issuedAt : UInt64
  genesisBasis : VerifiedGenesisRoster
  tombstones : List MachineRosterRevocationV1

/-- The part of an accepted state the next checkpoint is compared with. -/
def AcceptedRosterData.input (data : AcceptedRosterData) : NextSeqInput where
  epoch := data.epoch
  checkpointSequence := data.checkpointSequence
  checkpointHash := data.checkpointHash
  eventSequence := data.eventSequence
  eventHeadHash := data.eventHeadHash
  issuedAt := data.issuedAt
  genesisBasis := data.genesisBasis
  tombstones := data.tombstones

section

variable (L : Library)

variable (candidate : MachineRosterCheckpointV1)

/-- Project a candidate, with the rejection its failure leads to. -/
def project (basis : VerifiedGenesisRoster)
    (ctx : AdmissionContext) : Except CheckpointAdmissionResult
      (List MachineRosterMemberV1 × List MachineRosterRevocationV1) :=
  (projectFromState L candidate basis ctx).mapError ProjectionError.rejection

/-- The hash of the candidate's first `n` events. -/
def headAt (n : ℕ) : Except CheckpointAdmissionResult Digest :=
  if n = 0 then .ok zeroDigest
  else do
    let last ← okOr candidate.revocations[n - 1]? .rejectedProjection
    (revocationEventHash L last).mapError fun _ => .rejectedProjection

/-- The head with which a next checkpoint departs from the accepted events, if it does. -/
def divergentHead (input : NextSeqInput) : Except CheckpointAdmissionResult (Option Digest) :=
  if candidate.eventSequence = input.eventSequence then
    .ok (if candidate.eventHeadHash = input.eventHeadHash then none
      else some candidate.eventHeadHash)
  else do
    let n := input.eventSequence.toNat
    require (input.tombstones.length = n) .rejectedProjection
    require (n ≤ candidate.revocations.length) .rejectedProjection
    let head ← headAt L candidate n
    return if candidate.revocations.take n = input.tombstones ∧ (n = 0 ∨ head = input.eventHeadHash)
      then none else some head

section

variable (candidateHash : Digest)

/-- Judge a checkpoint that follows the accepted one. -/
def evaluateNextSeq (input : NextSeqInput) (ctx : AdmissionContext) :
    Except CheckpointAdmissionResult AdmissionOutcome := do
  let expectedNext ← okOr (checkedAdd input.checkpointSequence 1) .rejectedGap
  require (candidate.checkpointSequence = expectedNext) .rejectedGap
  require (candidate.prevCheckpointHash = input.checkpointHash) .rejectedGap
  require (input.issuedAt ≤ candidate.issuedAt) .rejectedTemporal
  require (input.eventSequence ≤ candidate.eventSequence) .rejectedRollback
  let divergent ← divergentHead L candidate input
  let projected ← project L candidate input.genesisBasis ctx
  return match divergent with
    | some head => (.eventForkConflict input.epoch input.eventSequence [input.eventHeadHash, head],
        .eventForkConflictRecorded)
    | none => (.accepted (.next candidate candidateHash input.eventSequence input.eventHeadHash
        input.genesisBasis projected), .accepted)

/-- Judge a checkpoint with the accepted one's number. -/
def evaluateSameSeq (data : AcceptedRosterData) (ctx : AdmissionContext) :
    Except CheckpointAdmissionResult AdmissionOutcome := do
  require (candidateHash ≠ data.checkpointHash) .idempotentDuplicate
  require (data.issuedAt ≤ candidate.issuedAt) .rejectedTemporal
  require (candidate.prevCheckpointHash = data.prevCheckpointHash) .rejectedGap
  let forkBasis : VerifiedGenesisRoster :=
    if data.checkpointSequence = 1 then ⟨candidate.epoch, candidate.active⟩ else data.genesisBasis
  require (data.predecessorEventSequence ≤ candidate.eventSequence) .rejectedRollback
  let _ ← project L candidate forkBasis ctx
  let intermediateHead ← headAt L candidate data.predecessorEventSequence.toNat
  require (intermediateHead = data.predecessorEventHeadHash) .rejectedProjection
  return (.checkpointForkConflict data.epoch data.checkpointSequence
    [data.checkpointHash, candidateHash], .checkpointForkConflictRecorded)

/-- Judge the first checkpoint. -/
def evaluateGenesis (ctx : AdmissionContext) :
    Except CheckpointAdmissionResult AdmissionOutcome := do
  let basis : VerifiedGenesisRoster := ⟨candidate.epoch, candidate.active⟩
  let projected ← project L candidate basis ctx
  return (.accepted (.next candidate candidateHash 0 zeroDigest basis projected), .accepted)

end

/-- Classify a candidate by the state, before its authority is looked at. -/
def preclassify (ctx : AdmissionContext) :
    AcceptedRosterChainState → Except CheckpointAdmissionResult Unit
  | .noGenesis => do
    require (candidate.checkpointSequence = 1) .rejectedGap
    require (candidate.prevCheckpointHash = zeroDigest) .rejectedGap
    require (candidate.eventSequence = 0 ∧ candidate.eventHeadHash = zeroDigest ∧
      candidate.revocations = []) .rejectedMalformed
  | .accepted data => do
    require (candidate.epoch = data.epoch) .epochMigrationRequired
    require (data.genesisBasis.epoch = candidate.epoch) .rejectedProjection
    require (ctx.ownerAuthorityAvailable data.ownerCertFingerprint true = true) .rejectedOwner
  | .checkpointForkConflict .. => .error .checkpointForkConflictRecorded
  | .eventForkConflict .. => .error .eventForkConflictRecorded

/-- Check that the candidate's owner certificate is the one known. -/
def checkOwnerContinuity (ctx : AdmissionContext) :
    AcceptedRosterChainState → Except CheckpointAdmissionResult Unit
  | .noGenesis => require (∀ boundFp ∈ ctx.boundOwnerCertFingerprint,
      boundFp = candidate.ownerCertFingerprint) .rejectedOwner
  | .accepted data =>
    require (candidate.ownerCertFingerprint = data.ownerCertFingerprint) .rejectedOwner
  | _ => .ok ()

/-- Check a candidate against the clock. -/
def checkFreshness (effectiveNow : UInt64) :
    Except CheckpointAdmissionResult Unit := do
  let futureLimit ← okOr (checkedAdd effectiveNow maxFutureSkewSecs) .rejectedTemporal
  require (candidate.issuedAt ≤ futureLimit) .rejectedTemporal
  require (effectiveNow ≤ candidate.notAfter) .rejectedTemporal
  require (candidate.notAfter.toNat - candidate.issuedAt.toNat ≤ maxCheckpointLifetimeSecs)
    .rejectedTemporal
  require (candidate.issuedAt ≤ candidate.notAfter) .rejectedTemporal

/-- What a candidate changes, or the result with which it changes nothing. -/
def judge (current : AcceptedRosterChainState) (ctx : AdmissionContext) :
    Except CheckpointAdmissionResult AdmissionOutcome := do
  require (ctx.clockAvailable = true) .rejectedTemporal
  preclassify candidate ctx current
  (verifyCheckpointAuthority L candidate ctx.authority).mapError classifyCryptoError
  checkOwnerContinuity candidate ctx current
  let candidateHash ← (checkpointHash L candidate).mapError fun _ => .rejectedMalformed
  checkFreshness candidate ctx.authority.effectiveNow
  match current with
  | .noGenesis => evaluateGenesis L candidate candidateHash ctx
  | .accepted data =>
    if candidate.checkpointSequence < data.checkpointSequence then .error .rejectedReplay
    else if candidate.checkpointSequence = data.checkpointSequence then
      evaluateSameSeq L candidate candidateHash data ctx
    else evaluateNextSeq L candidate candidateHash data.input ctx
  | _ => .error .rejectedProjection

/-- Offer a checkpoint to a roster chain. -/
def admitCheckpoint (canonical : CanonicalCheckpoint) (current : AcceptedRosterChainState)
    (ctx : AdmissionContext) : AdmissionOutcome :=
  match judge L canonical.inner current ctx with
  | .ok outcome => outcome
  | .error result => (current, result)

end

section

variable {L : Library} {c : MachineRosterCheckpointV1} {ctx : AdmissionContext}

theorem project_eq_ok {basis : VerifiedGenesisRoster}
    {r : List MachineRosterMemberV1 × List MachineRosterRevocationV1} :
    project L c basis ctx = .ok r ↔ Projection L ctx basis c ∧ r = (c.active, c.revocations) := by
  rw [project, mapError_eq_ok, projectFromState_eq_ok]

/-- A checkpoint that comes right after the one compared with. -/
@[mk_iff] structure Follows (c : MachineRosterCheckpointV1) (input : NextSeqInput) : Prop where
  /-- It has the next number. -/
  next : checkedAdd input.checkpointSequence 1 = some c.checkpointSequence
  /-- It names the hash of its predecessor. -/
  linked : c.prevCheckpointHash = input.checkpointHash
  /-- It was not issued before its predecessor. -/
  issued : input.issuedAt ≤ c.issuedAt
  /-- It has no fewer events. -/
  events : input.eventSequence ≤ c.eventSequence

/-- The outcome for a next checkpoint that departs from the accepted events or does not. -/
def nextOutcome (c : MachineRosterCheckpointV1) (hash : Digest) (input : NextSeqInput) :
    Option Digest → AdmissionOutcome
  | some head => (.eventForkConflict input.epoch input.eventSequence [input.eventHeadHash, head],
      .eventForkConflictRecorded)
  | none => (.accepted (.next c hash input.eventSequence input.eventHeadHash input.genesisBasis
      (c.active, c.revocations)), .accepted)

variable {hash : Digest} {out : AdmissionOutcome}

theorem evaluateNextSeq_eq_ok {input : NextSeqInput} :
    evaluateNextSeq L c hash input ctx = .ok out ↔
      Follows c input ∧ Projection L ctx input.genesisBasis c ∧
        ∃ divergent, divergentHead L c input = .ok divergent ∧
          out = nextOutcome c hash input divergent := by
  simp only [evaluateNextSeq, eq_ok_iff, project_eq_ok, follows_iff]
  grind [nextOutcome]

/-- The basis another checkpoint with the accepted one's number is projected from. -/
def forkBasis (c : MachineRosterCheckpointV1) (data : AcceptedRosterData) : VerifiedGenesisRoster :=
  if data.checkpointSequence = 1 then ⟨c.epoch, c.active⟩ else data.genesisBasis

/-- A checkpoint that competes with the accepted one for its number. -/
@[mk_iff] structure Rivals (L : Library) (c : MachineRosterCheckpointV1) (hash : Digest)
    (data : AcceptedRosterData) : Prop where
  /-- It has another hash. -/
  other : hash ≠ data.checkpointHash
  /-- It was not issued before the accepted one. -/
  issued : data.issuedAt ≤ c.issuedAt
  /-- It has the same predecessor. -/
  linked : c.prevCheckpointHash = data.prevCheckpointHash
  /-- It has the events of that predecessor. -/
  events : data.predecessorEventSequence ≤ c.eventSequence
  /-- It agrees with them. -/
  agrees : headAt L c data.predecessorEventSequence.toNat = .ok data.predecessorEventHeadHash

theorem evaluateSameSeq_eq_ok {data : AcceptedRosterData} :
    evaluateSameSeq L c hash data ctx = .ok out ↔
      Rivals L c hash data ∧ Projection L ctx (forkBasis c data) c ∧
        out = (.checkpointForkConflict data.epoch data.checkpointSequence
          [data.checkpointHash, hash], .checkpointForkConflictRecorded) := by
  simp only [evaluateSameSeq, eq_ok_iff, project_eq_ok, rivals_iff, forkBasis]
  grind

theorem evaluateGenesis_eq_ok :
    evaluateGenesis L c hash ctx = .ok out ↔
      Projection L ctx ⟨c.epoch, c.active⟩ c ∧
        out = (.accepted (.next c hash 0 zeroDigest ⟨c.epoch, c.active⟩
          (c.active, c.revocations)), .accepted) := by
  simp only [evaluateGenesis, eq_ok_iff, project_eq_ok]
  grind

/-- The checks a candidate passes before the chain is looked at. -/
structure Authorised (L : Library) (ctx : AdmissionContext) (s : AcceptedRosterChainState)
    (c : MachineRosterCheckpointV1) : Prop where
  clock : ctx.clockAvailable = true
  state : preclassify c ctx s = .ok ()
  authority : verifyCheckpointAuthority L c ctx.authority = .ok ()
  continuity : checkOwnerContinuity c ctx s = .ok ()
  fresh : checkFreshness c ctx.authority.effectiveNow = .ok ()

/-- What an authorised candidate changes. -/
inductive Judged (L : Library) (ctx : AdmissionContext) (c : MachineRosterCheckpointV1)
    (hash : Digest) : AcceptedRosterChainState →
      AdmissionOutcome → Prop
  | genesis (hproject : Projection L ctx ⟨c.epoch, c.active⟩ c) :
      Judged L ctx c hash .noGenesis
        (.accepted (.next c hash 0 zeroDigest ⟨c.epoch, c.active⟩ (c.active, c.revocations)),
          .accepted)
  | next {data : AcceptedRosterData} {divergent : Option Digest} (hfollows : Follows c data.input)
      (hproject : Projection L ctx data.genesisBasis c)
      (hdivergent : divergentHead L c data.input = .ok divergent) :
      Judged L ctx c hash (.accepted data) (nextOutcome c hash data.input divergent)
  | same {data : AcceptedRosterData} (hsame : c.checkpointSequence = data.checkpointSequence)
      (hrivals : Rivals L c hash data) (hproject : Projection L ctx (forkBasis c data) c) :
      Judged L ctx c hash (.accepted data)
        (.checkpointForkConflict data.epoch data.checkpointSequence [data.checkpointHash, hash],
          .checkpointForkConflictRecorded)

theorem Follows.lt {input : NextSeqInput} (h : Follows c input) :
    input.checkpointSequence.toNat + 1 = c.checkpointSequence.toNat :=
  (checkedAdd_eq_some.mp h.next).symm

/-- A candidate changes the state exactly when it is authorised and its place in the chain is
found. -/
theorem judge_eq_ok {s : AcceptedRosterChainState} :
    judge L c s ctx = .ok out ↔
      Authorised L ctx s c ∧ ∃ hash, checkpointHash L c = .ok hash ∧ Judged L ctx c hash s out := by
  simp only [judge, eq_ok_iff]
  constructor
  · rintro ⟨hclock, hstate, hauthority, hcontinuity, hash, hhash, hfresh, hout⟩
    refine ⟨⟨hclock, hstate, hauthority, hcontinuity, hfresh⟩, hash, hhash, ?_⟩
    cases s with
    | noGenesis =>
      obtain ⟨hproject, rfl⟩ := evaluateGenesis_eq_ok.mp hout
      exact .genesis hproject
    | accepted data =>
      simp only at hout
      split at hout
      · cases hout
      · split at hout
        · rename_i hsame
          obtain ⟨hrivals, hproject, rfl⟩ := evaluateSameSeq_eq_ok.mp hout
          exact .same hsame hrivals hproject
        · obtain ⟨hfollows, hproject, divergent, hdivergent, rfl⟩ := evaluateNextSeq_eq_ok.mp hout
          exact .next hfollows hproject hdivergent
    | checkpointForkConflict | eventForkConflict => cases hout
  · rintro ⟨h, hash, hhash, hout⟩
    refine ⟨h.clock, h.state, h.authority, h.continuity, hash, hhash, h.fresh, ?_⟩
    cases hout with
    | genesis hproject => exact evaluateGenesis_eq_ok.mpr ⟨hproject, rfl⟩
    | @next data divergent hfollows hproject hdivergent =>
      have hlt := hfollows.lt
      simp only [AcceptedRosterData.input] at hlt
      have hreplay : ¬ c.checkpointSequence < data.checkpointSequence := by
        rw [UInt64.lt_iff_toNat_lt]
        omega
      have hsame : ¬ c.checkpointSequence = data.checkpointSequence := by
        rw [← UInt64.toNat_inj]
        omega
      simp only [hreplay, hsame, if_false]
      exact evaluateNextSeq_eq_ok.mpr ⟨hfollows, hproject, _, hdivergent, rfl⟩
    | same hsame hrivals hproject =>
      simp only [hsame, UInt64.lt_irrefl, if_false, if_true]
      exact evaluateSameSeq_eq_ok.mpr ⟨hrivals, hproject, rfl⟩

variable (c : MachineRosterCheckpointV1)

/-- A failed projection is not an acceptance. -/
theorem project_avoids (basis : VerifiedGenesisRoster)
    (ctx : AdmissionContext) : Avoids .accepted (project L c basis ctx) := by
  have havoids := projectFromState_avoids (L := L) c basis ctx
  unfold project
  cases hproject : projectFromState L c basis ctx with
  | ok projected => exact .ok _
  | error e =>
    cases e with
    | revocationValidation result =>
      rintro h
      exact havoids (hproject.trans (congrArg _ (congrArg _ (Except.error.inj h))))
    | _ => exact nofun

theorem headAt_avoids (n : ℕ) :
    Avoids .accepted (headAt L c n) := by
  refine .ite (.ok _) ?_
  exact Avoids.bind (.okOr nofun) fun _ => .mapError nofun

theorem divergentHead_avoids (input : NextSeqInput) :
    Avoids .accepted (divergentHead L c input) := by
  refine .ite (.ok _) ?_
  refine .require_bind nofun <| .require_bind nofun <| ?_
  exact (headAt_avoids c _).bind fun _ => .pure _

/-- A candidate that changes nothing is not accepted. -/
theorem judge_avoids (s : AcceptedRosterChainState)
    (ctx : AdmissionContext) : Avoids .accepted (judge L c s ctx) := by
  refine .require_bind nofun <| ?_
  refine Avoids.bind ?_ fun _ => ?_
  · cases s with
    | noGenesis | accepted d =>
      exact .require_bind nofun <| .require_bind nofun <|
        .require nofun
    | checkpointForkConflict | eventForkConflict => exact nofun
  refine Avoids.bind (.mapError fun e => by cases e <;> exact nofun) fun _ => ?_
  refine Avoids.bind ?_ fun _ => Avoids.bind (.mapError nofun) fun hash => ?_
  · cases s with
    | noGenesis | accepted d => exact .require nofun
    | checkpointForkConflict | eventForkConflict => exact .ok _
  refine Avoids.bind ?_ fun _ => ?_
  · exact Avoids.bind (.okOr nofun) fun _ => .require_bind nofun <|
      .require_bind nofun <| .require_bind nofun <| .require nofun
  cases s with
  | noGenesis => exact (project_avoids c _ ctx).bind fun _ => .pure _
  | accepted d =>
    refine .ite nofun (.ite ?_ ?_)
    · refine .require_bind nofun <| .require_bind nofun <|
        .require_bind nofun <| .require_bind nofun <| ?_
      exact (project_avoids c _ ctx).bind fun _ => (headAt_avoids c _).bind fun _ =>
        .require_bind nofun <| .pure _
    · refine Avoids.bind (.okOr nofun) fun _ => .require_bind nofun <|
        .require_bind nofun <| .require_bind nofun <|
          .require_bind nofun <| ?_
      exact (divergentHead_avoids c _).bind fun _ => (project_avoids c _ ctx).bind fun _ => .pure _
  | checkpointForkConflict | eventForkConflict => exact nofun

/-- An offered checkpoint changes the state as it is judged, or not at all. -/
theorem admitCheckpoint_cases (canonical : CanonicalCheckpoint) (s : AcceptedRosterChainState)
    (ctx : AdmissionContext) :
    (Authorised L ctx s canonical.inner ∧ ∃ hash, checkpointHash L canonical.inner = .ok hash ∧
        Judged L ctx canonical.inner hash s (admitCheckpoint L canonical s ctx)) ∨
      (admitCheckpoint L canonical s ctx).1 = s := by
  unfold admitCheckpoint
  split
  · rename_i out hout
    exact .inl (judge_eq_ok.mp hout)
  · exact .inr rfl

end

/-- Why no currency can be told. -/
inductive UnavailableReason where
  | noGenesis
  | checkpointStale
  | checkpointForkConflict
  | eventForkConflict
  | clockStateUnavailable
  | ownerAuthorityUnavailable
  deriving DecidableEq, Repr

/-- Whether a machine belongs to the household now. -/
inductive MachineCurrencyResult where
  | active (member : MachineRosterMemberV1)
  | revoked (tombstone : MachineRosterRevocationV1)
  | notListed
  | unavailable (reason : UnavailableReason)
  deriving DecidableEq, Repr

/-- The accepted data, if it may be used now. -/
def admitCurrentAcceptedData (state : AcceptedRosterChainState) (ctx : AdmissionContext) :
    Except UnavailableReason AcceptedRosterData := do
  require (ctx.clockAvailable = true) .clockStateUnavailable
  match state with
  | .noGenesis => .error .noGenesis
  | .checkpointForkConflict .. => .error .checkpointForkConflict
  | .eventForkConflict .. => .error .eventForkConflict
  | .accepted data => do
    require (ctx.ownerAvailableForCurrency data.ownerCertFingerprint = true)
      .ownerAuthorityUnavailable
    require (ctx.authority.effectiveNow ≤ data.notAfter) .checkpointStale
    return data

/-- The currency of a machine. -/
def deriveMachineCurrency (state : AcceptedRosterChainState) (mId : MachineId)
    (ctx : AdmissionContext) : MachineCurrencyResult :=
  match admitCurrentAcceptedData state ctx with
  | .error reason => .unavailable reason
  | .ok data =>
    match data.tombstones.find? fun r => r.mId = mId with
    | some tombstone => .revoked tombstone
    | none =>
      match data.active.find? fun m => m.mId = mId with
      | some member => .active member
      | none => .notListed

end Theyos.Roster

import Theyos.Core.Chain.Hash
import Theyos.Models.Roster.Authority

/-!
# What a checkpoint projects to

A checkpoint is accepted only when the members it lists are what remains of the genesis members
after its revocations are replayed, each signed by the owner, linked to the one before it, and
aimed at a genesis member. `Projection` collects these checks.
-/

namespace Theyos.Roster

open Household Machine HashChain

/-- What became of a checkpoint offered for admission. -/
inductive CheckpointAdmissionResult where
  | accepted
  | idempotentDuplicate
  | rejectedReplay
  | rejectedGap
  | rejectedRollback
  | rejectedMalformed
  | rejectedOwner
  | rejectedCaveat
  | rejectedSignature
  | rejectedTemporal
  | rejectedProjection
  | epochMigrationRequired
  | checkpointForkConflictRecorded
  | eventForkConflictRecorded
  deriving DecidableEq, Repr

/-- What a checkpoint is judged against. -/
structure AdmissionContext where
  authority : RosterAuthorityContext
  clockAvailable : Bool
  boundOwnerCertFingerprint : Option Digest
  deriving DecidableEq, Repr

/-- The members every later roster is projected from. -/
structure VerifiedGenesisRoster where
  epoch : Digest
  members : List MachineRosterMemberV1
  deriving DecidableEq, Repr

/-- The rejection a failed check of a signed object leads to. -/
def classifyCryptoError : RosterCryptoError → CheckpointAdmissionResult
  | .cborEncode | .cborDecode | .certDecode | .certNotCanonical | .schemaInvalid =>
    .rejectedMalformed
  | .missingCaveatAddMachine | .missingCaveatRevoke => .rejectedCaveat
  | .signatureRejected => .rejectedSignature
  | .ownerCertInvalid | .weakProvenance | .ownerIdMismatch | .ownerPubMismatch
  | .fingerprintMismatch | .householdMismatch => .rejectedOwner
  | .machineCertInvalid | .machineCertNotCanonical | .machineIdMismatch | .machinePubMismatch
  | .machineFingerprintMismatch | .machineHouseholdMismatch => .rejectedProjection

/-- Why a checkpoint is not the projection it claims to be. -/
inductive ProjectionError where
  | eventHashChainBroken
  | eventHeadMismatch
  | eventSequenceMismatch
  | ownerFpMismatch
  | revokedNotPreviouslyActive
  | revokedTargetMismatch
  | duplicateRevocation
  | activeSortInvalid
  | activeDuplicateId
  | activeDuplicatePub
  | activeDuplicateFingerprint
  | memberProvenanceInvalid
  | projectedMismatch
  | revocationValidation (result : CheckpointAdmissionResult)
  deriving DecidableEq, Repr

/-- The rejection a failed projection leads to. -/
def ProjectionError.rejection : ProjectionError → CheckpointAdmissionResult
  | revocationValidation result => result
  | _ => .rejectedProjection

section

variable (L : Library)

/-- Check a revocation embedded in a checkpoint. -/
def validateEmbeddedRevocation (rev : MachineRosterRevocationV1) (expectedEpoch : Digest)
    (ctx : AdmissionContext) : Except CheckpointAdmissionResult Unit := do
  require (rev.v = 1 ∧ rev.kind = revocationKind) .rejectedMalformed
  require (rev.epoch = expectedEpoch) .rejectedMalformed
  (verifyRevocationAuthority L rev ctx.authority).mapError classifyCryptoError

/-- Check that no identifier, key or fingerprint occurs again after those `seen`. -/
def checkDistinct (seen : List MachineRosterMemberV1) :
    List MachineRosterMemberV1 → Except ProjectionError Unit
  | [] => .ok ()
  | member :: rest => do
    require (∀ other ∈ seen, other.mId ≠ member.mId) .activeDuplicateId
    require (∀ other ∈ seen, other.mPub ≠ member.mPub) .activeDuplicatePub
    require (∀ other ∈ seen, other.machineCertFingerprint ≠ member.machineCertFingerprint)
      .activeDuplicateFingerprint
    checkDistinct (member :: seen) rest

/-- Check the numbers, links and owner of the revocations from the `i`th on, and return the
last hash. -/
def checkEventChain (ownerFp : Digest) (prevHash : Digest) (i : ℕ) :
    List MachineRosterRevocationV1 → Except ProjectionError Digest
  | [] => .ok prevHash
  | rev :: rest => do
    require (rev.sequence.toNat = i + 1) .eventHashChainBroken
    require (rev.prevEventHash = prevHash) .eventHashChainBroken
    require (rev.ownerCertFingerprint = ownerFp) .ownerFpMismatch
    let eventHash ← (revocationEventHash L rev).mapError fun _ => .eventHashChainBroken
    checkEventChain ownerFp eventHash (i + 1) rest

/-- Check that each revocation is aimed at a genesis member not yet `tombstoned`. -/
def replayRevocations (members : List MachineRosterMemberV1) (tombstoned : List MachineId) :
    List MachineRosterRevocationV1 → Except ProjectionError (List MachineId)
  | [] => .ok tombstoned
  | rev :: rest => do
    require (rev.mId ∉ tombstoned) .duplicateRevocation
    let target ← okOr (members.find? fun m => m.mId = rev.mId) .revokedNotPreviouslyActive
    require (rev.mPub = target.mPub) .revokedTargetMismatch
    require (rev.machineCertFingerprint = target.machineCertFingerprint) .revokedTargetMismatch
    replayRevocations members (rev.mId :: tombstoned) rest

/-- The members and the tombstones a checkpoint stands for. -/
def projectFromState (candidate : MachineRosterCheckpointV1)
    (genesisBasis : VerifiedGenesisRoster) (ctx : AdmissionContext) :
    Except ProjectionError (List MachineRosterMemberV1 × List MachineRosterRevocationV1) := do
  candidate.active.forM fun member =>
    ((validateMemberProvenance L member ctx.authority.hhPub ctx.authority.expectedHhId).map
      fun _ => ()).mapError fun _ => .memberProvenanceInvalid
  checkDistinct [] candidate.active
  require (candidate.active.IsChain fun a b => a.mId.asStr < b.mId.asStr) .activeSortInvalid
  require (candidate.eventSequence.toNat = candidate.revocations.length) .eventSequenceMismatch
  if candidate.checkpointSequence = 1 then
    require (candidate.revocations = [] ∧ candidate.eventSequence = 0 ∧
      candidate.eventHeadHash = zeroDigest) .eventHeadMismatch
    require (candidate.active = genesisBasis.members) .projectedMismatch
    return (candidate.active, [])
  else
    candidate.revocations.forM fun rev =>
      (validateEmbeddedRevocation L rev candidate.epoch ctx).mapError .revocationValidation
    let prevHash ← checkEventChain L candidate.ownerCertFingerprint zeroDigest 0
      candidate.revocations
    require (candidate.eventHeadHash = if 0 < candidate.eventSequence then prevHash else zeroDigest)
      .eventHeadMismatch
    let tombstonedIds ← replayRevocations genesisBasis.members [] candidate.revocations
    let expectedActive := genesisBasis.members.filter fun m => m.mId ∉ tombstonedIds
    require (candidate.active = expectedActive) .projectedMismatch
    return (candidate.active, candidate.revocations)

end

/-- Two members with no identifier, key or fingerprint in common. -/
@[mk_iff] structure MachineRosterMemberV1.Differs (a b : MachineRosterMemberV1) : Prop where
  mId : a.mId ≠ b.mId
  mPub : a.mPub ≠ b.mPub
  machineCertFingerprint : a.machineCertFingerprint ≠ b.machineCertFingerprint

/-- A revocation aimed at one of the members. -/
def AimedAt (members : List MachineRosterMemberV1) (rev : MachineRosterRevocationV1) : Prop :=
  ∃ target, members.find? (fun m => m.mId = rev.mId) = some target ∧ rev.mPub = target.mPub ∧
    rev.machineCertFingerprint = target.machineCertFingerprint

/-- The hash of a revocation. -/
def HashesTo (L : Library) (rev : MachineRosterRevocationV1) (h : Digest) : Prop :=
  revocationEventHash L rev = .ok h

theorem checkDistinct_eq_ok {seen members : List MachineRosterMemberV1} {u : Unit} :
    checkDistinct seen members = .ok u ↔
      (∀ other ∈ seen, ∀ member ∈ members, other.Differs member) ∧
        members.Pairwise MachineRosterMemberV1.Differs := by
  induction members generalizing seen with
  | nil => simp [checkDistinct]
  | cons member rest ih =>
    simp only [checkDistinct, eq_ok_iff, ih, List.forall_mem_cons, List.pairwise_cons,
      MachineRosterMemberV1.differs_iff]
    grind

theorem checkEventChain_eq_ok {L : Library} {ownerFp z w : Digest} {i : ℕ}
    {revs : List MachineRosterRevocationV1} :
    checkEventChain L ownerFp z i revs = .ok w ↔
      Chained (HashesTo L) (·.prevEventHash) z revs w ∧
        revs.map (·.sequence.toNat) = List.range' (i + 1) revs.length ∧
          ∀ rev ∈ revs, rev.ownerCertFingerprint = ownerFp := by
  induction revs generalizing z i with
  | nil => simp [checkEventChain, Chained.nil_iff]
  | cons rev rest ih =>
    simp only [checkEventChain, eq_ok_iff, ih, Chained.cons_iff, List.map_cons, List.length_cons,
      List.range'_succ, List.cons.injEq, List.forall_mem_cons]
    tauto

theorem replayRevocations_eq_ok {members : List MachineRosterMemberV1}
    {tombstoned ids : List MachineId} {revs : List MachineRosterRevocationV1} :
    replayRevocations members tombstoned revs = .ok ids ↔
      ids = (revs.map (·.mId)).reverse ++ tombstoned ∧ (revs.map (·.mId)).Nodup ∧
        (∀ rev ∈ revs, rev.mId ∉ tombstoned) ∧ ∀ rev ∈ revs, AimedAt members rev := by
  induction revs generalizing tombstoned with
  | nil => simp [replayRevocations, eq_comm]
  | cons rev rest ih =>
    simp only [replayRevocations, eq_ok_iff, ih, List.map_cons, List.reverse_cons,
      List.append_assoc, List.singleton_append, List.nodup_cons, List.forall_mem_cons]
    grind [AimedAt]

/-- What a checkpoint has been checked for when it is projected from a basis. -/
structure Projection (L : Library) (ctx : AdmissionContext) (basis : VerifiedGenesisRoster)
    (c : MachineRosterCheckpointV1) : Prop where
  /-- Every active member is certified by the household. -/
  provenance : ∀ m ∈ c.active, ∃ cert,
    validateMemberProvenance L m ctx.authority.hhPub ctx.authority.expectedHhId = .ok cert
  /-- No two active members have an identifier, key or fingerprint in common. -/
  distinct : c.active.Pairwise MachineRosterMemberV1.Differs
  /-- The active members are sorted by identifier. -/
  sorted : c.active.IsChain fun a b => a.mId.asStr < b.mId.asStr
  /-- The events are counted. -/
  counted : c.eventSequence.toNat = c.revocations.length
  /-- The first checkpoint revokes nobody. -/
  opening : c.checkpointSequence = 1 → c.revocations = []
  /-- Every revocation is signed by the owner. -/
  signed : ∀ rev ∈ c.revocations, validateEmbeddedRevocation L rev c.epoch ctx = .ok ()
  /-- The revocations lead from nothing to the head. -/
  chained : Chained (HashesTo L) (·.prevEventHash) zeroDigest c.revocations c.eventHeadHash
  /-- The revocations are numbered from one. -/
  numbered : c.revocations.map (·.sequence.toNat) = List.range' 1 c.revocations.length
  /-- One owner certificate signed everything. -/
  owned : ∀ rev ∈ c.revocations, rev.ownerCertFingerprint = c.ownerCertFingerprint
  /-- No machine is revoked twice. -/
  nodup : (c.revocations.map (·.mId)).Nodup
  /-- Only members of the basis are revoked. -/
  aimed : ∀ rev ∈ c.revocations, AimedAt basis.members rev
  /-- The active members are the members of the basis that were not revoked. -/
  remaining : c.active = basis.members.filter fun m => m.mId ∉ c.revocations.map (·.mId)

/-- A checkpoint projects to its own members and revocations when it passes every check. -/
theorem projectFromState_eq_ok {L : Library} {c : MachineRosterCheckpointV1}
    {basis : VerifiedGenesisRoster} {ctx : AdmissionContext}
    {r : List MachineRosterMemberV1 × List MachineRosterRevocationV1} :
    projectFromState L c basis ctx = .ok r ↔
      Projection L ctx basis c ∧ r = (c.active, c.revocations) := by
  simp only [projectFromState, eq_ok_iff, forM_eq_ok, map_eq_ok, checkDistinct_eq_ok]
  by_cases hseq : c.checkpointSequence = 1
  · simp only [hseq, if_true, eq_ok_iff, and_true]
    constructor
    · rintro ⟨hprovenance, ⟨-, hdistinct⟩, hsorted, hcounted, ⟨hrevs, -, hhead⟩, hactive, rfl⟩
      have hnone : ∀ {P : MachineRosterRevocationV1 → Prop}, ∀ rev ∈ c.revocations, P rev := by
        simp [hrevs]
      refine ⟨⟨hprovenance, hdistinct, hsorted, hcounted, fun _ => hrevs, hnone, ?_,
        by simp [hrevs], hnone, by simp [hrevs], hnone, by simp [hrevs, hactive]⟩, by rw [hrevs]⟩
      rw [hrevs, hhead]
      exact .nil _
    · rintro ⟨h, rfl⟩
      have hrevs := h.opening hseq
      have hhead := h.chained
      rw [hrevs, Chained.nil_iff] at hhead
      have hcount := h.counted
      rw [hrevs] at hcount
      have hremaining := h.remaining
      simp only [hrevs, List.map_nil, List.not_mem_nil, not_false_eq_true, decide_true,
        List.filter_true] at hremaining
      exact ⟨h.provenance, ⟨by simp, h.distinct⟩, h.sorted, h.counted,
        ⟨hrevs, UInt64.toNat_inj.mp hcount, hhead.symm⟩, hremaining, by rw [hrevs]⟩
  · simp only [hseq, if_false, eq_ok_iff, forM_eq_ok, checkEventChain_eq_ok,
      replayRevocations_eq_ok, and_true]
    have hhead {w : Digest} (hcounted : c.eventSequence.toNat = c.revocations.length)
        (hw : Chained (HashesTo L) (·.prevEventHash) zeroDigest c.revocations w) :
        (if 0 < c.eventSequence then w else zeroDigest) = w := by
      split
      · rfl
      · rename_i hzero
        have hnil : c.revocations = [] := by
          rw [← List.length_eq_zero_iff, ← hcounted]
          simpa [UInt64.lt_iff_toNat_lt] using hzero
        rw [hnil, Chained.nil_iff] at hw
        exact hw
    have hids (xs : List MachineRosterMemberV1) (ids : List MachineId) :
        xs.filter (fun m => decide (m.mId ∉ ids.reverse ++ [])) =
          xs.filter fun m => decide (m.mId ∉ ids) := by simp
    constructor
    · rintro ⟨hprovenance, ⟨-, hdistinct⟩, hsorted, hcounted, hsigned, w, ⟨hchained, hnumbered,
        howned⟩, hw, ids, ⟨rfl, hnodup, -, haimed⟩, hactive, rfl⟩
      rw [hhead hcounted hchained] at hw
      rw [hids] at hactive
      exact ⟨⟨hprovenance, hdistinct, hsorted, hcounted, fun h => absurd h hseq, hsigned,
        hw ▸ hchained, hnumbered, howned, hnodup, haimed, hactive⟩, rfl⟩
    · rintro ⟨h, rfl⟩
      refine ⟨h.provenance, ⟨by simp, h.distinct⟩, h.sorted, h.counted, h.signed,
        _, ⟨h.chained, h.numbered, h.owned⟩, (hhead h.counted h.chained).symm, _,
        ⟨rfl, h.nodup, by simp, h.aimed⟩, ?_, rfl⟩
      rw [hids]
      exact h.remaining

section

variable {L : Library} {r : CheckpointAdmissionResult}

theorem checkDistinct_avoids (seen members : List MachineRosterMemberV1) :
    Avoids (.revocationValidation r) (checkDistinct seen members) := by
  induction members generalizing seen with
  | nil => exact .ok _
  | cons member rest ih =>
    exact .require_bind nofun <| .require_bind nofun <|
      .require_bind nofun <| ih _

theorem checkEventChain_avoids (ownerFp z : Digest) (i : ℕ)
    (revs : List MachineRosterRevocationV1) :
    Avoids (.revocationValidation r) (checkEventChain L ownerFp z i revs) := by
  induction revs generalizing z i with
  | nil => exact .ok _
  | cons rev rest ih =>
    exact .require_bind nofun <| .require_bind nofun <|
      .require_bind nofun <| Avoids.bind (.mapError nofun) fun _ => ih _ _

theorem replayRevocations_avoids (members : List MachineRosterMemberV1)
    (tombstoned : List MachineId) (revs : List MachineRosterRevocationV1) :
    Avoids (.revocationValidation r) (replayRevocations members tombstoned revs) := by
  induction revs generalizing tombstoned with
  | nil => exact .ok _
  | cons rev rest ih =>
    exact .require_bind nofun <| Avoids.bind (.okOr nofun) fun _ =>
      .require_bind nofun <| .require_bind nofun <| ih _

/-- A projection never fails with an acceptance. -/
theorem projectFromState_avoids (c : MachineRosterCheckpointV1) (basis : VerifiedGenesisRoster)
    (ctx : AdmissionContext) :
    Avoids (.revocationValidation .accepted) (projectFromState L c basis ctx) := by
  refine Avoids.bind (.forM fun _ _ => .mapError nofun) fun _ => ?_
  refine (checkDistinct_avoids _ _).bind fun _ => .require_bind nofun <| ?_
  refine .require_bind nofun <| .ite ?_ ?_
  · exact .require_bind nofun <| .require_bind nofun <| .pure _
  · refine Avoids.bind (.forM fun rev _ => ?_) fun _ => ?_
    · have havoids : Avoids .accepted (validateEmbeddedRevocation L rev c.epoch ctx) := by
        refine .require_bind nofun <| .require_bind nofun <| ?_
        exact .mapError fun e => by cases e <;> exact nofun
      cases hrev : validateEmbeddedRevocation L rev c.epoch ctx with
      | ok => exact .ok _
      | error result =>
        rintro h
        cases h
        exact havoids hrev
    · exact (checkEventChain_avoids _ _ _ _).bind fun _ => .require_bind nofun <|
        (replayRevocations_avoids _ _ _).bind fun _ => .require_bind nofun <| .pure _

end

end Theyos.Roster

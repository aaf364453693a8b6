import Theyos.Models.Roster.Store.Historical

/-!
# Judging a checkpoint at its own time

The check made when a checkpoint arrives and the one made when its state is derived again differ
only in the time at which the owner's certificates are looked at. If they are in force at the time
of issue, `judge_at` carries an outcome from the one to the other.
-/

namespace Theyos.Roster

open Household Machine

/-- The same expectations at another time. -/
def AdmissionContext.at (ctx : AdmissionContext) (t : UInt64) : AdmissionContext :=
  { ctx with authority := { ctx.authority with effectiveNow := t } }

/-- A checkpoint whose owner certificates are in force when it is issued, with room for the
allowed skew after it. -/
structure Timely (L : Library) (c : MachineRosterCheckpointV1) : Prop where
  owner : ∀ cert, decodeOwnerCert L c.ownerPersonCert = .ok cert → cert.InForce c.issuedAt
  revocations : ∀ rev ∈ c.revocations, ∀ cert, decodeOwnerCert L rev.ownerPersonCert = .ok cert →
    cert.InForce c.issuedAt
  headroom : (checkedAdd c.issuedAt maxFutureSkewSecs).isSome = true

section

variable {L : Library} {ctx : AdmissionContext} {t : UInt64}

theorem validateOwnerCertCore_at {bytes : List UInt8} {out : PersonCert × Digest}
    (h : validateOwnerCertCore L bytes ctx.authority = .ok out)
    (ht : ∀ cert, decodeOwnerCert L bytes = .ok cert → cert.InForce t) :
    validateOwnerCertCore L bytes (ctx.at t).authority = .ok out := by
  simp only [validateOwnerCertCore, eq_ok_iff] at h ⊢
  obtain ⟨cert, hcert, hrooted, hrest⟩ := h
  exact ⟨cert, hcert, Library.verifyRootedIdentity_at hrooted (ht cert hcert), hrest⟩

theorem validateEmbeddedRevocation_eq_ok {rev : MachineRosterRevocationV1} {epoch : Digest} :
    validateEmbeddedRevocation L rev epoch ctx = .ok () ↔
      (rev.v = 1 ∧ rev.kind = revocationKind) ∧ rev.epoch = epoch ∧
        verifyRevocationAuthority L rev ctx.authority = .ok () := by
  simp only [validateEmbeddedRevocation, eq_ok_iff]

theorem Projection.at {basis : VerifiedGenesisRoster} {c : MachineRosterCheckpointV1}
    (h : Projection L ctx basis c)
    (ht : ∀ rev ∈ c.revocations, ∀ cert, decodeOwnerCert L rev.ownerPersonCert = .ok cert →
      cert.InForce t) : Projection L (ctx.at t) basis c where
  provenance := h.provenance
  distinct := h.distinct
  sorted := h.sorted
  counted := h.counted
  opening := h.opening
  signed := by
    intro rev hrev
    obtain ⟨hschema, hepoch, hauthority⟩ := validateEmbeddedRevocation_eq_ok.mp (h.signed rev hrev)
    refine validateEmbeddedRevocation_eq_ok.mpr ⟨hschema, hepoch, ?_⟩
    simp only [verifyRevocationAuthority, eq_ok_iff] at hauthority ⊢
    obtain ⟨hv, hhh, hid, core, hcore, hrest⟩ := hauthority
    exact ⟨hv, hhh, hid, core, validateOwnerCertCore_at hcore (ht rev hrev), hrest⟩
  chained := h.chained
  numbered := h.numbered
  owned := h.owned
  nodup := h.nodup
  aimed := h.aimed
  remaining := h.remaining

variable {c : MachineRosterCheckpointV1} {s : AcceptedRosterChainState}

/-- A checkpoint that is fresh at some time is fresh at its own. -/
theorem checkFreshness_at {now : UInt64} (h : checkFreshness c now = .ok ())
    (hc : Timely L c) : checkFreshness c c.issuedAt = .ok () := by
  simp only [checkFreshness, eq_ok_iff] at h ⊢
  obtain ⟨-, -, -, -, hlifetime, hordered⟩ := h
  obtain ⟨limit, hlimit⟩ := Option.isSome_iff_exists.mp hc.headroom
  refine ⟨limit, hlimit, ?_, hordered, hlifetime, hordered⟩
  rw [UInt64.le_iff_toNat_le, checkedAdd_eq_some.mp hlimit]
  exact Nat.le_add_right _ _

theorem Authorised.at (h : Authorised L ctx s c) (hc : Timely L c) :
    Authorised L (ctx.at c.issuedAt) s c where
  clock := h.clock
  state := by
    cases s <;> exact h.state
  authority := by
    have hauthority := h.authority
    simp only [verifyCheckpointAuthority, eq_ok_iff] at hauthority ⊢
    obtain ⟨hv, hhh, hid, core, hcore, hrest⟩ := hauthority
    exact ⟨hv, hhh, hid, core, validateOwnerCertCore_at hcore hc.owner, hrest⟩
  continuity := by
    cases s <;> exact h.continuity
  fresh := checkFreshness_at h.fresh hc

variable {out : AdmissionOutcome}

theorem Judged.at {hash : Digest} (h : Judged L ctx c hash s out) (hc : Timely L c) :
    Judged L (ctx.at c.issuedAt) c hash s out := by
  cases h with
  | genesis hproject => exact .genesis (hproject.at hc.revocations)
  | next hfollows hproject hdivergent =>
    exact .next hfollows (hproject.at hc.revocations) hdivergent
  | same hsame hrivals hproject => exact .same hsame hrivals (hproject.at hc.revocations)

/-- What a timely checkpoint changes on arrival, it changes at its own time. -/
theorem judge_at (h : judge L c s ctx = .ok out) (hc : Timely L c) :
    judge L c s (ctx.at c.issuedAt) = .ok out := by
  obtain ⟨hauthorised, hash, hhash, hjudged⟩ := judge_eq_ok.mp h
  exact judge_eq_ok.mpr ⟨hauthorised.at hc, hash, hhash, hjudged.at hc⟩

end

section

variable {L : Library} {ctx : AdmissionContext} {c : MachineRosterCheckpointV1}
  {s : AcceptedRosterChainState}

theorem checkEnvelope_of_fresh (h : checkFreshness c c.issuedAt = .ok ()) :
    checkEnvelope c = .ok () := by
  simp only [checkFreshness, checkEnvelope, eq_ok_iff] at h ⊢
  obtain ⟨limit, hlimit, -, hordered, hlifetime, -⟩ := h
  exact ⟨by rw [hlimit]; rfl, hordered, hlifetime⟩

variable {out : AdmissionOutcome}

theorem Judged.signed {hash : Digest} (h : Judged L ctx c hash s out) :
    ∀ rev ∈ c.revocations, validateEmbeddedRevocation L rev c.epoch ctx = .ok () := by
  cases h with
  | genesis hproject | next _ hproject _ | same _ _ hproject => exact hproject.signed

/-- A checkpoint that changes the state passes the full check. -/
theorem verifyCheckpointFullHistorical_of_judge (h : judge L c s ctx = .ok out) :
    verifyCheckpointFullHistorical L c ctx.authority = .ok () := by
  obtain ⟨hauthorised, _, -, hjudged⟩ := judge_eq_ok.mp h
  simp only [verifyCheckpointFullHistorical, eq_ok_iff, forM_eq_ok]
  refine ⟨hauthorised.authority, fun rev hrev => ?_⟩
  obtain ⟨-, hepoch, hauthority⟩ := validateEmbeddedRevocation_eq_ok.mp (hjudged.signed rev hrev)
  have hparts := hauthority
  simp only [verifyRevocationAuthority, eq_ok_iff] at hparts
  exact ⟨hparts.1, hepoch, hparts.2.1, hauthority⟩

theorem admitCheckpoint_of_judge {canonical : CanonicalCheckpoint}
    (h : judge L canonical.inner s ctx = .ok out) : admitCheckpoint L canonical s ctx = out := by
  simp only [admitCheckpoint, h]

end

section

variable {L : Library} {F : Formats} {hhCtx : HistoricalHouseholdContext}
  {binding : HistoricalOwnerBinding}

/-- A checkpoint the chain can be continued from, with the state it left. -/
structure Frontier (L : Library) (hhCtx : HistoricalHouseholdContext)
    (binding : HistoricalOwnerBinding) (c : MachineRosterCheckpointV1)
    (data : AcceptedRosterData) : Prop where
  full : verifyCheckpointFullHistorical L c (histAdmission hhCtx binding c.issuedAt).authority =
    .ok ()
  envelope : checkEnvelope c = .ok ()
  owner : c.ownerCertFingerprint = binding.certFingerprint
  epoch : c.epoch = data.genesisBasis.epoch
  projection : Projection L (histAdmission hhCtx binding c.issuedAt) data.genesisBasis c
  hash : checkpointHash L c = .ok data.checkpointHash
  state : data = .next c data.checkpointHash data.predecessorEventSequence
    data.predecessorEventHeadHash data.genesisBasis (c.active, c.revocations)

/-- The first checkpoint, from which the owner is derived. -/
structure Rooted (L : Library) (F : Formats) (hhCtx : HistoricalHouseholdContext)
    (binding : HistoricalOwnerBinding) (bytes : List UInt8) (genesis : CanonicalCheckpoint)
    (data : AcceptedRosterData) : Prop where
  read : CanonicalCheckpoint.fromRaw F bytes = .ok genesis
  derived : deriveOwnerBindingFromCert L genesis.inner.ownerPersonCert hhCtx.hhId hhCtx.hhPub
    genesis.inner.issuedAt = .ok binding
  ownerPId : genesis.inner.ownerPId = binding.pId
  owner : genesis.inner.ownerCertFingerprint = binding.certFingerprint
  judged : judge L genesis.inner .noGenesis (histAdmission hhCtx binding genesis.inner.issuedAt) =
    .ok (.accepted data, .accepted)

variable {bytes g a : List UInt8} {genesis current : CanonicalCheckpoint}
  {data data' : AcceptedRosterData}

theorem Rooted.checkpointSequence (h : Rooted L F hhCtx binding bytes genesis data) :
    genesis.inner.checkpointSequence = 1 := by
  have hstate := (judge_eq_ok.mp h.judged).1.state
  simp only [preclassify, eq_ok_iff] at hstate
  exact hstate.1

theorem Rooted.frontier (h : Rooted L F hhCtx binding bytes genesis data) :
    Frontier L hhCtx binding genesis.inner data := by
  obtain ⟨hauthorised, hash, hhash, hjudged⟩ := judge_eq_ok.mp h.judged
  have hfull := verifyCheckpointFullHistorical_of_judge h.judged
  cases hjudged with
  | genesis hproject =>
    exact ⟨hfull, checkEnvelope_of_fresh hauthorised.fresh, h.owner, rfl, hproject, hhash, rfl⟩

variable {c : MachineRosterCheckpointV1}

/-- The owner of the first checkpoint is the one it was checked against. -/
theorem deriveOwnerBindingFromCert_of_authority {t : UInt64}
    (h : verifyCheckpointAuthority L c (histAdmission hhCtx binding t).authority = .ok ())
    (howner : c.ownerCertFingerprint = binding.certFingerprint) :
    deriveOwnerBindingFromCert L c.ownerPersonCert hhCtx.hhId hhCtx.hhPub t = .ok binding ∧
      c.ownerPId = binding.pId := by
  simp only [verifyCheckpointAuthority, validateOwnerCertCore, deriveOwnerBindingFromCert,
    eq_ok_iff] at h ⊢
  obtain ⟨-, -, hid, _, ⟨cert, hcert, hrooted, hstrong, hpid, hppub, -, -, hcaveats, fp, hfp, rfl⟩,
    hcomputed, -⟩ := h
  refine ⟨⟨cert, hcert, hrooted, hstrong, hcaveats, fp, hfp, ?_⟩, hid⟩
  have hprint : fp = binding.certFingerprint := hcomputed.trans howner
  rw [hpid, hppub, hprint]
  rfl

variable {out : AdmissionOutcome}

/-- A timely first checkpoint that is accepted on arrival roots a chain. -/
theorem Rooted.of_judge {now : UInt64} (hread : CanonicalCheckpoint.fromRaw F bytes = .ok genesis)
    (h : judge L genesis.inner .noGenesis (histAdmission hhCtx binding now) = .ok out)
    (htimely : Timely L genesis.inner) :
    ∃ data, out = (.accepted data, .accepted) ∧ Rooted L F hhCtx binding bytes genesis data := by
  have hat := judge_at h htimely
  obtain ⟨hauthorised, hash, hhash, hjudged⟩ := judge_eq_ok.mp hat
  have howner := hauthorised.continuity
  simp only [checkOwnerContinuity, require_eq_ok] at howner
  have hfp : genesis.inner.ownerCertFingerprint = binding.certFingerprint := (howner _ rfl).symm
  obtain ⟨hderived, hid⟩ := deriveOwnerBindingFromCert_of_authority hauthorised.authority hfp
  cases hjudged with
  | genesis hproject => exact ⟨_, rfl, hread, hderived, hid, hfp, hat⟩

/-- The state of a chain with one checkpoint is derived from it. -/
theorem Rooted.rederiveAccepted (h : Rooted L F hhCtx binding g genesis data) :
    rederiveAccepted L F g g none hhCtx = .ok (.accepted data, binding) := by
  have hadmitted := admitCheckpoint_of_judge h.judged
  simp only [Roster.rederiveAccepted, readStored, eq_ok_iff]
  refine ⟨genesis, h.read, binding, h.derived, h.ownerPId, h.owner, by rw [hadmitted], genesis,
    h.read, ?_⟩
  rw [if_pos h.checkpointSequence]
  simp only [eq_ok_iff]
  exact ⟨trivial, trivial, by rw [hadmitted]⟩

/-- A checkpoint accepted after another one. -/
structure Succeeds (L : Library) (ctx : AdmissionContext) (c : MachineRosterCheckpointV1)
    (hash : Digest) (data data' : AcceptedRosterData) : Prop where
  follows : Follows c data.input
  projection : Projection L ctx data.genesisBasis c
  agrees : divergentHead L c data.input = .ok none
  state : data' = .next c hash data.eventSequence data.eventHeadHash data.genesisBasis
    (c.active, c.revocations)

theorem Judged.succeeds {ctx : AdmissionContext} {hash : Digest}
    (h : Judged L ctx c hash (.accepted data) out) (hout : out.1 = .accepted data') :
    Succeeds L ctx c hash data data' := by
  cases h with
  | @next _ divergent hfollows hproject hdivergent =>
    cases divergent with
    | some head => cases hout
    | none => exact ⟨hfollows, hproject, hdivergent, (AcceptedRosterChainState.accepted.inj hout).symm⟩
  | same => cases hout

theorem historicalReapplyNext_of_judge {pred : CanonicalCheckpoint}
    (hpred : Frontier L hhCtx binding pred.inner data)
    (hjudge : judge L current.inner (.accepted data) (histAdmission hhCtx binding
      current.inner.issuedAt) = .ok (.accepted data', .accepted)) :
    historicalReapplyNext L current pred.inner data.genesisBasis
      (histAdmission hhCtx binding pred.inner.issuedAt)
      (histAdmission hhCtx binding current.inner.issuedAt) = .ok (.accepted data') := by
  obtain ⟨hauthorised, hash, hhash, hjudged⟩ := judge_eq_ok.mp hjudge
  have hsucceeds := hjudged.succeeds rfl
  have hfull := verifyCheckpointFullHistorical_of_judge hjudge
  have hstate := hauthorised.state
  have hcontinuity := hauthorised.continuity
  simp only [preclassify, checkOwnerContinuity, eq_ok_iff] at hstate hcontinuity
  have howner : data.ownerCertFingerprint = binding.certFingerprint := by
    rw [hpred.state]
    exact hpred.owner
  have hepoch : data.epoch = pred.inner.epoch := by
    rw [hpred.state]
    rfl
  have hinput : data.input = {
      epoch := pred.inner.epoch
      checkpointSequence := pred.inner.checkpointSequence
      checkpointHash := data.checkpointHash
      eventSequence := pred.inner.eventSequence
      eventHeadHash := pred.inner.eventHeadHash
      issuedAt := pred.inner.issuedAt
      genesisBasis := data.genesisBasis
      tombstones := pred.inner.revocations } := by
    rw [hpred.state]
    rfl
  simp only [historicalReapplyNext, eq_ok_iff, projectFromState_eq_ok]
  refine ⟨rfl, rfl, ⟨rfl, rfl⟩, rfl, rfl, rfl, rfl, _, rfl, _, rfl, rfl, hpred.owner,
    hcontinuity.trans howner, hpred.envelope, checkEnvelope_of_fresh hauthorised.fresh,
    hpred.epoch, hstate.1.trans hepoch, hpred.full, hfull, hash, hhash, _, ⟨hpred.projection, rfl⟩,
    _, hpred.hash, nextOutcome current.inner hash data.input none,
    evaluateNextSeq_eq_ok.mpr ?_, rfl, by rw [hsucceeds.state]; rfl⟩
  rw [← hinput]
  exact ⟨hsucceeds.follows, hsucceeds.projection, none, hsucceeds.agrees, rfl⟩

/-- Stored checkpoints from which an accepted state is derived, and can be continued. -/
structure Established (L : Library) (F : Formats) (hhCtx : HistoricalHouseholdContext)
    (binding : HistoricalOwnerBinding) (g a : List UInt8) (p : Option (List UInt8))
    (data : AcceptedRosterData) : Prop where
  positive : data.checkpointSequence ≠ 0
  rooted : ∃ genesis data₁, Rooted L F hhCtx binding g genesis data₁ ∧
    data.genesisBasis = data₁.genesisBasis ∧ (data.checkpointSequence = 1 → a = g ∧ data = data₁)
  frontier : ∃ accepted, CanonicalCheckpoint.fromRaw F a = .ok accepted ∧
    Frontier L hhCtx binding accepted.inner data
  predecessor : checkPredecessor data.checkpointSequence p = .ok ()
  derived : rederiveAccepted L F g a p hhCtx = .ok (.accepted data, binding)

theorem Frontier.checkpointSequence (h : Frontier L hhCtx binding c data) :
    data.checkpointSequence = c.checkpointSequence := by
  rw [h.state]
  rfl

theorem Rooted.established (h : Rooted L F hhCtx binding g genesis data) :
    Established L F hhCtx binding g g none data := by
  have hone := h.frontier.checkpointSequence.trans h.checkpointSequence
  refine ⟨by rw [hone]; decide, ⟨genesis, data, h, rfl, fun _ => ⟨rfl, rfl⟩⟩,
    ⟨genesis, h.read, h.frontier⟩, ?_, h.rederiveAccepted⟩
  rw [hone]
  rfl

theorem Frontier.of_judge (hdata : data.ownerCertFingerprint = binding.certFingerprint)
    (hjudge : judge L c (.accepted data) (histAdmission hhCtx binding c.issuedAt) =
      .ok (.accepted data', .accepted)) : Frontier L hhCtx binding c data' := by
  obtain ⟨hauthorised, hash, hhash, hjudged⟩ := judge_eq_ok.mp hjudge
  have h := hjudged.succeeds rfl
  have hstate := hauthorised.state
  have hcontinuity := hauthorised.continuity
  simp only [preclassify, checkOwnerContinuity, eq_ok_iff] at hstate hcontinuity
  rw [h.state]
  exact ⟨verifyCheckpointFullHistorical_of_judge hjudge, checkEnvelope_of_fresh hauthorised.fresh,
    hcontinuity.trans hdata, hstate.2.1.symm, h.projection, hhash, rfl⟩

variable {p : Option (List UInt8)}

section

variable (h : Established L F hhCtx binding g a p data)

include h

/-- The number of a checkpoint that follows an accepted one. -/
theorem Established.follows (hfollows : Follows c data.input) :
    c.checkpointSequence ≠ 0 ∧ c.checkpointSequence ≠ 1 ∧
      checkedSub c.checkpointSequence 1 = some data.checkpointSequence := by
  have hlt : data.checkpointSequence.toNat + 1 = c.checkpointSequence.toNat := hfollows.lt
  have hpos : data.checkpointSequence.toNat ≠ 0 := fun hzero =>
    h.positive (UInt64.toNat_inj.mp hzero)
  refine ⟨fun hzero => ?_, fun hone => ?_, ?_⟩
  · rw [hzero] at hlt
    cases hlt
  · rw [hone] at hlt
    exact hpos (Nat.succ.inj hlt)
  · rw [checkedSub_eq_some, ← hlt, Nat.add_comm]
    rfl

variable (hread : CanonicalCheckpoint.fromRaw F bytes = .ok current)

include hread

/-- The state after one more checkpoint is derived from it and its predecessor. -/
theorem Established.rederiveAccepted_next (hfollows : Follows current.inner data.input)
    (hjudge : judge L current.inner (.accepted data) (histAdmission hhCtx binding
      current.inner.issuedAt) = .ok (.accepted data', .accepted)) :
    rederiveAccepted L F g bytes (some a) hhCtx = .ok (.accepted data', binding) := by
  obtain ⟨accepted, haccepted, hfrontier⟩ := h.frontier
  obtain ⟨genesis, data₁, hrooted, hbasis, hfirst⟩ := h.rooted
  have hadmitted := admitCheckpoint_of_judge hrooted.judged
  obtain ⟨-, hne, hsub⟩ := h.follows hfollows
  have hseq := hfrontier.checkpointSequence
  simp only [rederiveAccepted, readStored, eq_ok_iff]
  refine ⟨genesis, hrooted.read, binding, hrooted.derived, hrooted.ownerPId, hrooted.owner,
    by rw [hadmitted], current, hread, ?_⟩
  rw [if_neg hne]
  simp only [eq_ok_iff]
  refine ⟨a, rfl, accepted, haccepted, _, hsub, hseq.symm, ?_⟩
  rw [hadmitted]
  by_cases hone : accepted.inner.checkpointSequence = 1
  · obtain ⟨rfl, rfl⟩ := hfirst (hseq.trans hone)
    have hnext := admitCheckpoint_of_judge hjudge
    simp only [hone, if_true, eq_ok_iff, hnext]
    exact ⟨trivial, verifyCheckpointFullHistorical_of_judge hjudge, trivial, trivial⟩
  · simp only [hone, if_false, eq_ok_iff]
    rw [← hbasis]
    exact ⟨_, historicalReapplyNext_of_judge hfrontier hjudge, rfl⟩

/-- A chain continued by one more checkpoint. -/
theorem Established.next
    (hjudge : judge L current.inner (.accepted data) (histAdmission hhCtx binding
      current.inner.issuedAt) = .ok (.accepted data', .accepted)) :
    Established L F hhCtx binding g bytes (some a) data' := by
  obtain ⟨-, hash, -, hjudged⟩ := judge_eq_ok.mp hjudge
  have hsucceeds := hjudged.succeeds rfl
  obtain ⟨accepted, haccepted, hfrontier⟩ := h.frontier
  obtain ⟨genesis, data₁, hrooted, hbasis, -⟩ := h.rooted
  obtain ⟨hzero, hone, -⟩ := h.follows hsucceeds.follows
  have howner : data.ownerCertFingerprint = binding.certFingerprint := by
    rw [hfrontier.state]
    exact hfrontier.owner
  have hfrontier' := Frontier.of_judge howner hjudge
  have hseq := hfrontier'.checkpointSequence
  refine ⟨hseq ▸ hzero, ⟨genesis, data₁, hrooted, ?_, fun h => absurd (hseq.symm.trans h) hone⟩,
    ⟨current, hread, hfrontier'⟩, ?_, h.rederiveAccepted_next hread hsucceeds.follows hjudge⟩
  · rw [hsucceeds.state]
    exact hbasis
  · rw [hseq, checkPredecessor]
    simp only [eq_ok_iff]
    exact ⟨fun _ => rfl, fun h => absurd h hone⟩

/-- A fork is derived from the chain and the checkpoint that revealed it. -/
theorem Established.rederiveFork {kind : ChainStateKind}
    (hjudge : judge L current.inner (.accepted data) (histAdmission hhCtx binding
      current.inner.issuedAt) = .ok out) (hkind : forkMatches kind out = true) :
    rederiveFork L F g a p bytes kind hhCtx = .ok (out.1, binding) := by
  have hout := admitCheckpoint_of_judge hjudge
  simp only [Roster.rederiveFork, readStored, eq_ok_iff]
  refine ⟨?_, _, h.derived, current, hread, verifyCheckpointFullHistorical_of_judge hjudge, ?_, ?_⟩
  · cases kind with
    | noGenesis | accepted => cases hkind
    | checkpointForkConflict => exact .inl rfl
    | eventForkConflict => exact .inr rfl
  · rw [hout]
    exact hkind
  · rw [hout]

end

end

end Theyos.Roster

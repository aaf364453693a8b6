import Theyos.Models.MeshControl.Run.Custody

/-!
# Fencing of late workers

A worker reads the operation in flight, works outside the record, and submits what it saw. If
that has an effect, the operation is still the one it read.
-/

namespace Theyos.MeshControl

open MeshSignerControlRecordV1 Machine

/-- The same operation, up to its progress. -/
structure SameOp (p q : PendingOp) : Prop where
  txnId : q.txnId = p.txnId
  kind : q.kind = p.kind
  generation : q.generation = p.generation
  epoch : q.epoch = p.epoch
  purpose : q.purpose = p.purpose
  backend : q.backend = p.backend
  canonicalSlot : q.canonicalSlot = p.canonicalSlot

/-- The submission carries the token of a worker that read `p`. -/
def CarriesToken (H : Hashes) (p : PendingOp) (t : RecordTransition) : Prop :=
  ∃ revision, (∃ b, t = .keyObserved (p.token H revision) b) ∨
    ∃ d, t = .activateFromKeyObserved (p.token H revision) d

/-- The submission is an urgent revocation. -/
def Submission.Revokes (x : Submission) : Prop :=
  ∃ reason txnId, x.transition = .revokeUrgent reason txnId

/-- The submission is an urgent revocation or a reactivation. -/
def Submission.RaisesEpoch (x : Submission) : Prop :=
  x.Revokes ∨ ∃ txnId nextTxnId backend,
    x.transition = .reactivateFromRevoked txnId nextTxnId backend

/-- The submission records the binding `b` for the operation `p`. -/
def ObservesKey (H : Hashes) (r : MeshSignerControlRecordV1) (x : Submission) (p : PendingOp)
    (b : ExactBinding) : Prop :=
  ∃ token q new, x.transition = .keyObserved token b ∧ r.pendingOp = some q ∧ SameOp p q ∧
    q.phase = .intent ∧ submit H r x = .ok new ∧
      new.pendingOp = some { q with phase := .keyObserved, binding := some b }

variable {H : Hashes} {identity : ControlIdentity} {purpose : PurposeId}
  {old new r : MeshSignerControlRecordV1} {x : Submission} {p q : PendingOp}
  {now : UInt64} {t : RecordTransition}

theorem SameOp.refl (p : PendingOp) : SameOp p p := ⟨rfl, rfl, rfl, rfl, rfl, rfl, rfl⟩

/-- Where the operation in flight comes from. -/
theorem Effect.pendingOp_cases (h : Effect H old now t new) (hq : new.pendingOp = some q) :
    old.pendingOp = some q ∨
      t.assignsSlot = true ∧ q.phase = .intent ∧ old.custody.mark < q.generation.toNat ∨
      ∃ o token b, t = .keyObserved token b ∧ old.pendingOp = some o ∧ o.phase = .intent ∧
        q = { o with phase := .keyObserved, binding := some b } := by
  cases h with
  | intentRecorded hidle _ _ hnext | reactivateFromRevoked _ hidle _ _ hnext =>
    cases hq
    exact Or.inr (Or.inl ⟨rfl, rfl, custody_mark_lt hidle hnext⟩)
  | keyObserved _ hp hphase =>
    cases hq
    exact Or.inr (Or.inr ⟨_, _, _, rfl, hp, hphase, rfl⟩)
  | activateFromKeyObserved | revokeUrgent => cases hq
  | _ => exact Or.inl hq

/-- The operation numbered like `p` is `p`, and exactly `p` once its key was observed. -/
def Continues (p : PendingOp) (r : MeshSignerControlRecordV1) : Prop :=
  p.generation.toNat ≤ r.custody.mark ∧
    ∀ q, r.pendingOp = some q → q.generation = p.generation →
      SameOp p q ∧ (p.phase = .keyObserved → q = p)

/-- Successful submissions continue the operation `p`. -/
theorem Continues.submit (hw : Wellformed H old) (hc : Continues p old)
    (h : submit H old x = .ok new) : Continues p new := by
  refine ⟨hc.1.trans (mark_le_submit hw h), ?_⟩
  rcases submit_cases h with rfl | ⟨heffect, _⟩
  · exact hc.2
  intro q hq hgen
  rcases heffect.pendingOp_cases hq with hold | ⟨_, _, hlt⟩ | ⟨q', _, b, _, hold, hphase, rfl⟩
  · exact hc.2 q hold hgen
  · have hle := hc.1
    rw [hgen] at hlt
    omega
  · obtain ⟨⟨h1, h2, h3, h4, h5, h6, h7⟩, hexact⟩ := hc.2 q' hold hgen
    refine ⟨⟨h1, h2, h3, h4, h5, h6, h7⟩, ?_⟩
    intro hp
    rw [hexact hp, hp] at hphase
    cases hphase

/-- Over any run, an operation with the number of `p` is still `p`. -/
theorem continues_run (hw : Wellformed H r) (hp : r.pendingOp = some p) (steps : List Submission) :
    Continues p (run (submit H) r steps) := by
  have hstart : Continues p r := by
    refine ⟨?_, ?_⟩
    · have hbound := NonZeroU64.le_iff.mp (hw.pending p hp).bound
      simpa [MeshSignerControlRecordV1.custody, hp] using hbound
    · intro q hq _
      cases hp.symm.trans hq
      exact ⟨SameOp.refl p, fun _ => rfl⟩
  exact (run_invariant (P := fun r => Wellformed H r ∧ Continues p r) ⟨hw, hstart⟩
    (fun _ _ _ hP hs => ⟨hP.1.submit hs, hP.2.submit hP.1 hs⟩) steps).2

/-- Successful submissions never lower the epoch. -/
theorem epoch_le_submit (h : submit H old x = .ok new) :
    old.epochHighWater.toNat ≤ new.epochHighWater.toNat := by
  rcases submit_cases h with rfl | ⟨_, hrespects⟩
  · exact le_rfl
  · have := hrespects.epoch_le
    rw [NonZeroU64.lt_iff] at this
    omega

/-- Effective revocations and reactivations raise the epoch. -/
theorem Effect.epoch_lt (h : Effect H old now t new)
    (ht : (∃ reason txnId, t = .revokeUrgent reason txnId) ∨
      ∃ txnId nextTxnId backend, t = .reactivateFromRevoked txnId nextTxnId backend) :
    old.epochHighWater.toNat < new.epochHighWater.toNat := by
  rcases ht with ⟨_, _, rfl⟩ | ⟨_, _, _, rfl⟩
  · cases h with
    | revokeUrgent hepoch =>
      have := NonZeroU64.checkedAdd_one_eq_some.mp hepoch
      exact this ▸ Nat.lt_succ_self _
    | gcRewritten hrewrites => cases hrewrites
  · cases h with
    | reactivateFromRevoked _ _ _ hepoch =>
      have := NonZeroU64.checkedAdd_one_eq_some.mp hepoch
      exact this ▸ Nat.lt_succ_self _
    | gcRewritten hrewrites => cases hrewrites

/-- An unchanged epoch witnesses that no revocation and no reactivation took effect. -/
theorem quiet_of_epoch (hw : Wellformed H r) {steps : List Submission}
    (h : (run (submit H) r steps).epochHighWater.toNat ≤ r.epochHighWater.toNat) :
    Quiet (submit H) Submission.RaisesEpoch r steps := by
  refine quiet_of_counter (submit H) (P := Wellformed H)
    (fun r => r.epochHighWater.toNat) ?_ ?_ ?_ hw h
  · intro _ _ _ hw hs
    exact hw.submit hs
  · intro _ _ _ _ hs
    exact epoch_le_submit hs
  · intro _ _ _ _ hs hraises hne
    exact (effect_of_ne hs hne).1.epoch_lt hraises

theorem SameOp.trans {o : PendingOp} (h : SameOp p q) (h' : SameOp q o) : SameOp p o where
  txnId := h'.txnId.trans h.txnId
  kind := h'.kind.trans h.kind
  generation := h'.generation.trans h.generation
  epoch := h'.epoch.trans h.epoch
  purpose := h'.purpose.trans h.purpose
  backend := h'.backend.trans h.backend
  canonicalSlot := h'.canonicalSlot.trans h.canonicalSlot

/-- A recorded binding was recorded by some key observation of the same operation. -/
theorem exists_observesKey {steps : List Submission} {b : ExactBinding}
    (hq : (run (submit H) (bootstrap identity purpose) steps).pendingOp = some q)
    (hb : q.binding = some b) :
    ∃ before y after, steps = before ++ y :: after ∧
      ObservesKey H (run (submit H) (bootstrap identity purpose) before) y q b := by
  obtain ⟨before, y, after, rfl, hbefore, new, hsubmit, hnew⟩ :=
    exists_rise (submit H) (Q := fun r => r.pendingOp = some q)
      (by simp [bootstrap]) hq
  refine ⟨before, y, after, rfl, ?_⟩
  have hw : Wellformed H (run (submit H) (bootstrap identity purpose) before) :=
    Reached.wellformed ⟨before, rfl⟩
  have hne : new ≠ run (submit H) (bootstrap identity purpose) before := by
    rintro rfl
    exact hbefore hnew
  have hphase : q.phase = .keyObserved :=
    ((hw.submit hsubmit).pending q hnew).phase.mpr (by rw [hb]; rfl)
  rcases (effect_of_ne hsubmit hne).1.pendingOp_cases hnew with hold | ⟨_, hintent, _⟩ |
    ⟨q', token, b', ht, hold, hintent, rfl⟩
  · exact absurd hold hbefore
  · rw [hphase] at hintent
    cases hintent
  · cases hb
    exact ⟨token, q', new, ht, hold, ⟨rfl, rfl, rfl, rfl, rfl, rfl, rfl⟩, hintent, hsubmit, hnew⟩

/-- An operation records one binding only. -/
theorem ObservesKey.unique {before after : List Submission} {y : Submission} {b b' : ExactBinding}
    (h : ObservesKey H (run (submit H) (bootstrap identity purpose) before) y p b')
    (hq : (run (submit H) (bootstrap identity purpose) (before ++ y :: after)).pendingOp = some q)
    (hpq : SameOp p q) (hb : q.binding = some b) : b' = b := by
  obtain ⟨token, o, new, _, _, hpo, _, hsubmit, hnew⟩ := h
  have hw : Wellformed H new :=
    (Reached.wellformed ⟨before, rfl⟩).submit hsubmit
  have hcont := continues_run hw hnew after
  rw [run_append, run_cons, advance_ok hsubmit] at hq
  have he := (hcont.2 q hq (hpq.generation.trans hpo.generation.symm)).2 rfl
  rw [he] at hb
  exact Option.some.inj hb

/-- An effective submission under the token of `p` found the operation `p` in flight. -/
theorem Effect.matched (h : Effect H old now t new) (ht : CarriesToken H p t) :
    ∃ q, old.pendingOp = some q ∧ q.generation = p.generation ∧ q.epoch = p.epoch ∧
      ∀ token d, t = .activateFromKeyObserved token d → ∃ b, q.binding = some b ∧
        new.liveGenerations = old.liveGenerations ++ [activatedGeneration q d b] := by
  obtain ⟨revision, ⟨b, rfl⟩ | ⟨d, rfl⟩⟩ := ht
  · cases h with
    | keyObserved _ hq _ hmatch =>
      obtain ⟨_, _, hgen, hepoch, _, _⟩ := pendingMatchesToken_iff.mp hmatch
      exact ⟨_, hq, hgen, hepoch, nofun⟩
    | gcRewritten hrewrites => cases hrewrites
  · cases h with
    | activateFromKeyObserved _ hq _ hmatch hb =>
      obtain ⟨_, _, hgen, hepoch, _, _⟩ := pendingMatchesToken_iff.mp hmatch
      refine ⟨_, hq, hgen, hepoch, ?_⟩
      rintro token d' ⟨⟩
      exact ⟨_, hb, rfl⟩
    | gcRewritten hrewrites => cases hrewrites

/-- A worker that read `p` and submits later, under any revision, has an effect only
if no urgent revocation took effect meanwhile and `p` is still in flight. Its
activation then uses the one binding that was recorded for `p`. Otherwise the record
is unchanged. -/
theorem worker_fenced {before mid : List Submission} {r₀ : MeshSignerControlRecordV1}
    (hr₀ : run (submit H) (bootstrap identity purpose) before = r₀) (hp : r₀.pendingOp = some p)
    (hr : run (submit H) r₀ mid = r) (hx : CarriesToken H p x.transition) :
    (∀ new, submit H r x = .ok new → new ≠ r →
      Quiet (submit H) Submission.Revokes r₀ mid ∧
        ∃ q, r.pendingOp = some q ∧ SameOp p q ∧
          ∀ token d, x.transition = .activateFromKeyObserved token d →
            ∃ b, q.binding = some b ∧
              new.liveGenerations = r.liveGenerations ++
                [{ generation := p.generation, delegation := d, binding := b,
                   notAfter := d.notAfter }] ∧
              (∃ first y rest, before ++ mid = first ++ y :: rest ∧
                ObservesKey H (run (submit H) (bootstrap identity purpose) first) y p b) ∧
              ∀ first y rest b', before ++ mid = first ++ y :: rest →
                ObservesKey H (run (submit H) (bootstrap identity purpose) first) y p b' → b' = b) ∧
      ((¬ ∃ new, submit H r x = .ok new ∧ new ≠ r) → advance (submit H) r x = r) := by
  have hall : run (submit H) (bootstrap identity purpose) (before ++ mid) = r := by
    rw [run_append, hr₀, hr]
  have hw₀ : Wellformed H r₀ := Reached.wellformed ⟨before, hr₀⟩
  have hw : Wellformed H r := Reached.wellformed ⟨before ++ mid, hall⟩
  refine ⟨?_, ?_⟩
  · intro new hsubmit hne
    obtain ⟨q, hq, hgen, hepoch, hactivate⟩ := (effect_of_ne hsubmit hne).1.matched hx
    have hsame : SameOp p q := by
      have hcont := continues_run hw₀ hp mid
      rw [hr] at hcont
      exact (hcont.2 q hq hgen).1
    have hquiet : Quiet (submit H) Submission.RaisesEpoch r₀ mid := by
      apply quiet_of_epoch hw₀
      rw [hr, ← (hw.pending q hq).epoch, hepoch, (hw₀.pending p hp).epoch]
    refine ⟨hquiet.mono fun _ h => Or.inl h, q, hq, hsame, ?_⟩
    intro token d ht
    obtain ⟨b, hb, hlive⟩ := hactivate token d ht
    refine ⟨b, hb, ?_, ?_, ?_⟩
    · rw [hlive, activatedGeneration, hgen]
    · rw [← hall] at hq
      obtain ⟨first, y, rest, he, token', o, new', ht', ho, hqo, hrest⟩ :=
        exists_observesKey hq hb
      exact ⟨first, y, rest, he, token', o, new', ht', ho, hsame.trans hqo, hrest⟩
    · intro first y rest b' he hobserves
      rw [← hall, he] at hq
      exact hobserves.unique hq hsame hb
  · intro hnone
    rcases advance_cases (submit H) r x with hok | hsame
    · by_contra hne
      exact hnone ⟨_, hok, hne⟩
    · exact hsame

/-- A delegation that ends at the given time. -/
def smallDelegation (notAfter : UInt64) : Delegation where
  version := 1
  kind := ""
  domain := ""
  hhId := "h"
  delegatorMId := "m"
  delegatorCertFingerprint := Vector.replicate 32 0
  delegatedPub := [4]
  delegatedKeyId := ""
  profile := ""
  transcriptKinds := []
  roles := []
  channel := .dev
  serial := 1
  notBefore := 0
  notAfter := notAfter
  sig := []

/-- The first operation is created. -/
def creation : Submission :=
  (RecordTransition.intentRecorded (repeatedTxn 1) .create .file).submission

/-- The key of the first operation is observed. -/
def observation : Submission :=
  (RecordTransition.keyObserved ((firstOp (repeatedTxn 1)).token fieldHashes 1)
    ⟨firstSlot (repeatedTxn 1), [4], []⟩).submission

/-- The first operation is activated. -/
def activation : Submission :=
  (RecordTransition.activateFromKeyObserved ((firstOp (repeatedTxn 1)).token fieldHashes 2)
    (smallDelegation 9)).submission

theorem worker_fenced_activation :
    (advance (submit fieldHashes)
      (run (submit fieldHashes) (bootstrap smallIdentity .meshSession) [creation, observation])
      activation).currentGeneration = some .one ∧
      Quiet (submit fieldHashes) Submission.Revokes
        (run (submit fieldHashes) (bootstrap smallIdentity .meshSession) [creation])
        [observation] := by
  refine ⟨by decide +kernel, ?_⟩
  have hcreated : run (submit fieldHashes) (bootstrap smallIdentity .meshSession) [creation] = _ :=
    rfl
  have hfenced := worker_fenced (p := firstOp (repeatedTxn 1)) (x := activation) hcreated
    (by decide +kernel) (rfl : run (submit fieldHashes) _ [observation] = _) ⟨2, Or.inr ⟨_, rfl⟩⟩
  exact (hfenced.1 _ rfl (by decide +kernel)).1

end Theyos.MeshControl

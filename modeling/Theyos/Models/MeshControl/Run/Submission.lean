import Theyos.Core.Machine.Fallible
import Theyos.Models.MeshControl.Transition.Preservation

/-!
# Runs of the control record

A submission is a transition with the clock reading and the cap it is applied under. A run applies
a finite list of submissions, and a refused submission leaves the record unchanged.
-/

namespace Theyos.MeshControl

open MeshSignerControlRecordV1 Machine

/-- One application of a transition. -/
structure Submission where
  transition : RecordTransition
  now : UInt64
  maxCap : ℕ
  deriving DecidableEq, Repr

/-- Apply a submission to a record. -/
def submit (H : Hashes) (r : MeshSignerControlRecordV1) (s : Submission) : TransitionResult :=
  apply H r s.transition s.now s.maxCap

/-- A record some run from the pristine record of its identity and purpose leads to. -/
def Reached (H : Hashes) (identity : ControlIdentity) (purpose : PurposeId)
    (r : MeshSignerControlRecordV1) : Prop :=
  Reachable (submit H) (bootstrap identity purpose) r

variable {H : Hashes} {identity : ControlIdentity} {purpose : PurposeId}
  {old new r : MeshSignerControlRecordV1} {s : Submission}

/-- A successful submission left the record as it was, or had its transition's effect. -/
theorem submit_cases (h : submit H old s = .ok new) :
    new = old ∨ Effect H old s.now s.transition new ∧
      Respects H old new s.transition.allowedRemoval s.maxCap := by
  rcases apply_eq_ok.mp h with ⟨_, rfl⟩ | h
  · exact Or.inl rfl
  · exact Or.inr h

/-- A submission that changed the record had its transition's effect. -/
theorem effect_of_ne (h : submit H old s = .ok new) (hne : new ≠ old) :
    Effect H old s.now s.transition new ∧ Respects H old new s.transition.allowedRemoval s.maxCap :=
  (submit_cases h).resolve_left hne

/-- Successful submissions preserve the inductive invariant. -/
theorem Wellformed.submit (hw : Wellformed H old) (h : submit H old s = .ok new) :
    Wellformed H new := by
  rcases submit_cases h with rfl | ⟨heffect, hrespects⟩
  · exact hw
  · exact hw.effect heffect hrespects

/-- Every reached record is well formed. -/
theorem Reached.wellformed (h : Reached H identity purpose r) : Wellformed H r :=
  h.invariant (bootstrap_wellformed identity purpose) fun _ _ _ hw hs => hw.submit hs

/-- Successful submissions keep identity and purpose. -/
theorem submit_same (h : submit H old s = .ok new) :
    new.identity = old.identity ∧ new.purpose = old.purpose := by
  rcases submit_cases h with rfl | ⟨heffect, _⟩
  · exact ⟨rfl, rfl⟩
  · exact heffect.same

/-- Every reached record carries the identity and purpose it started with. -/
theorem Reached.same (h : Reached H identity purpose r) :
    r.identity = identity ∧ r.purpose = purpose := by
  refine h.invariant (P := fun r => r.identity = identity ∧ r.purpose = purpose) ⟨rfl, rfl⟩ ?_
  rintro r₀ s r₁ ⟨hi, hp⟩ hs
  obtain ⟨hi', hp'⟩ := submit_same hs
  exact ⟨hi'.trans hi, hp'.trans hp⟩

/-- An inspection that found a key reports a binding of the slot it inspected. -/
def InspectionEchoes (H : Hashes) (r : MeshSignerControlRecordV1) (s : Submission) : Prop :=
  ∀ slotId b, s.transition = .gcInspected slotId (some b) →
    ∀ e ∈ r.gcPending, e.slot.canonicalId H = slotId → b.slot = e.slot

theorem gcRewrite_bindingOwnSlot {t : RecordTransition} {slotId : String}
    {f : GcEntry → Except TransitionError GcEntry} {e e' : GcEntry}
    (ht : t.gcRewrite = some (slotId, f)) (h : f e = .ok e') (he : e.bindingOwnSlot = true)
    (hecho : ∀ b, t = .gcInspected slotId (some b) → b.slot = e.slot) :
    e'.bindingOwnSlot = true := by
  cases t with
  | gcInspected _ found =>
    cases ht
    cases found with
    | none => cases e <;> cases h <;> rfl
    | some b =>
      have hb := hecho b rfl
      cases e <;> cases h <;> simpa [GcEntry.bindingOwnSlot, GcEntry.slot] using hb
  | gcInspectionConflict _ =>
    cases ht
    cases e <;> cases h <;> rfl
  | gcResolved _ z q =>
    cases ht
    cases e with
    | bound slot txnId b state => cases state <;> cases h <;> exact he
    | _ => cases h
  | _ => cases ht

theorem gcEntry_bindingOwnSlot {p : PendingOp} (h : PendingInvariants H old p) :
    p.gcEntry.bindingOwnSlot = true := by
  unfold PendingOp.gcEntry
  cases hb : p.binding with
  | none => rfl
  | some b => simpa [GcEntry.bindingOwnSlot] using h.binding b hb

/-- Where inspections echo their slots, transitions keep every queued binding at its own slot. -/
theorem GcBindingsOwn.effect {now : UInt64} {t : RecordTransition} (hw : Wellformed H old)
    (hgc : GcBindingsOwn old) (h : Effect H old now t new)
    (hecho : ∀ slotId b, t = .gcInspected slotId (some b) →
      ∀ e ∈ old.gcPending, e.slot.canonicalId H = slotId → b.slot = e.slot) :
    GcBindingsOwn new := by
  intro e he
  obtain he | ⟨p, hp, rfl⟩ | ⟨g, rfl⟩ | ⟨slotId, _, e₀, he₀, hrewrites, hnamed, hf⟩ :=
    h.mem_gcPending he
  · exact hgc e he
  · exact gcEntry_bindingOwnSlot (hw.pending p hp)
  · simp [GenerationRecord.gcEntry, GcEntry.bindingOwnSlot]
  · refine gcRewrite_bindingOwnSlot hrewrites hf (hgc e₀ he₀) ?_
    intro b hb
    exact hecho slotId b hb e₀ he₀ hnamed

/-- Every record of every run passes the loader's check. -/
theorem invariantsHold_run (hcf : H.CollisionFree identity purpose) {steps : List Submission}
    (hecho : Along (submit H) (InspectionEchoes H) (bootstrap identity purpose) steps) :
    invariantsHold H (run (submit H) (bootstrap identity purpose) steps) = true := by
  have hown : Wellformed H (run (submit H) (bootstrap identity purpose) steps) ∧
      GcBindingsOwn (run (submit H) (bootstrap identity purpose) steps) := by
    refine run_invariant_along (P := fun r => Wellformed H r ∧ GcBindingsOwn r)
      ⟨bootstrap_wellformed identity purpose, by simp [GcBindingsOwn, bootstrap]⟩ ?_ hecho
    rintro r₀ s r₁ ⟨hw, hgc⟩ hguard hs
    refine ⟨hw.submit hs, ?_⟩
    rcases submit_cases hs with rfl | ⟨heffect, _⟩
    · exact hgc
    · exact hgc.effect hw heffect hguard
  obtain ⟨hi, hp⟩ := Reached.same ⟨steps, rfl⟩
  rw [invariantsHold_iff]
  refine hown.1.invariants ?_ hown.2
  rw [hi, hp]
  exact hcf

/-- A submission at time zero under a cap of four. -/
def RecordTransition.submission (t : RecordTransition) : Submission := ⟨t, 0, 4⟩

/-- A small identity. -/
def smallIdentity : ControlIdentity := ⟨"h", "m", .dev⟩

/-- The transaction whose bytes are all `n`. -/
def repeatedTxn (n : UInt8) : TxnId := Vector.replicate 16 n

/-- The first slot of the small identity's record. -/
def firstSlot (txnId : TxnId) : SlotId :=
  (bootstrap smallIdentity .meshSession).derivedSlot fieldHashes .one txnId .file

/-- A key created, preempted before it was observed, and found by an inspection. -/
def inspectedRun : List Submission :=
  [(RecordTransition.intentRecorded (repeatedTxn 1) .create .file).submission,
    (RecordTransition.revokeUrgent .lost (repeatedTxn 2)).submission,
    (RecordTransition.gcInspected ((firstSlot (repeatedTxn 1)).canonicalId fieldHashes)
      (some ⟨firstSlot (repeatedTxn 1), [4], []⟩)).submission]

theorem invariantsHold_run_inspectedRun :
    (run (submit fieldHashes) (bootstrap smallIdentity .meshSession) inspectedRun).gcPending =
        [.bound (firstSlot (repeatedTxn 1)) (repeatedTxn 1)
          ⟨firstSlot (repeatedTxn 1), [4], []⟩ .pending] ∧
      invariantsHold fieldHashes
        (run (submit fieldHashes) (bootstrap smallIdentity .meshSession) inspectedRun) = true := by
  refine ⟨by decide +kernel, invariantsHold_run (fieldHashes_collisionFree _) ?_⟩
  refine ⟨nofun, nofun, ?_, trivial⟩
  rintro slotId b ⟨⟩ e he _
  rw [List.mem_singleton.mp he]
  rfl

end Theyos.MeshControl

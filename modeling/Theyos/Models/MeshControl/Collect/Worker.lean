import Theyos.Core.Machine.History
import Theyos.Models.MeshControl.Cell.Gc

/-!
# The collector among other callers

The worker holds no lock while it talks to the backend, so other callers commit between any two of
its steps, and a removal pass, which does not wait for the worker, removes entries between them
too. The world below interleaves these steps.
-/

namespace Theyos.MeshControl

open Machine

/-- How the commit of a built transition ended. -/
inductive CommitFate where
  /-- It took effect and was acknowledged. -/
  | committed
  /-- It took effect, but the call failed. -/
  | uncertain
  /-- It had no effect, and the call failed. -/
  | failed
  deriving DecidableEq, Repr

/-- The parameters of a commit, and how the store lets it end. -/
structure GcCommit where
  now : UInt64
  maxCap : ℕ
  fate : CommitFate
  deriving DecidableEq, Repr

/-- How a commit ended, if there was something to commit, and the record after it. -/
def commitBuilt (H : Hashes) (r : MeshSignerControlRecordV1)
    (build : MeshSignerControlRecordV1 → Option RecordTransition) (c : GcCommit) :
    Option CommitFate × MeshSignerControlRecordV1 :=
  if c.fate = .failed then (some .failed, r)
  else
    match build r with
    | none => (none, r)
    | some t =>
      match submit H r ⟨t, c.now, c.maxCap⟩ with
      | .error _ => (some .failed, r)
      | .ok new => (some c.fate, new)

/-- The transitions only the collector commits. -/
def RecordTransition.collects : RecordTransition → Bool
  | .gcInspected .. | .gcInspectionConflict .. | .gcResolved .. | .gcRemoval .. => true
  | _ => false

/-- The transition that records what an inspection found, if it found anything out. -/
def InspectOutcome.transition (slotId : String) : InspectOutcome → Option RecordTransition
  | .present b => some (.gcInspected slotId (some b))
  | .absent => some (.gcInspected slotId none)
  | .conflict => some (.gcInspectionConflict slotId)
  | .indeterminate => none

/-- What the collector has seen. -/
inductive GcObservation where
  /-- An inspection, and how the commit of what it found ended. -/
  | inspected (tick : ℕ) (slot : SlotId) (outcome : InspectOutcome) (fate : Option CommitFate)
  /-- A record was made durable once more. -/
  | stabilized (record : MeshSignerControlRecordV1)
  /-- An attempt to destroy the key behind a binding. -/
  | destroyed (slot : SlotId) (binding : ExactBinding) (report : GcReport)
  deriving DecidableEq, Repr

/-- Where the worker is. -/
inductive GcStage where
  | idle
  | selecting (l : TickState)
  | inspecting (l : TickState) (slot : SlotId) (txnId : TxnId)
  | recording (l : TickState) (slot : SlotId) (txnId : TxnId) (outcome : InspectOutcome)
  | stabilizing (l : TickState) (slot : SlotId) (txnId : TxnId) (binding : ExactBinding)
  | destroying (l : TickState) (slot : SlotId) (txnId : TxnId) (binding : ExactBinding)
  | resolving (l : TickState) (slot : SlotId) (txnId : TxnId) (binding : ExactBinding)
      (report : GcReport)

/-- The record, the worker, the number of ticks begun and the log. -/
structure GcWorld where
  record : MeshSignerControlRecordV1
  stage : GcStage
  tick : ℕ
  log : List GcObservation

/-- The pristine record before the first tick. -/
def GcWorld.init (identity : ControlIdentity) (purpose : PurposeId) : GcWorld :=
  ⟨.bootstrap identity purpose, .idle, 0, []⟩

/-- What can happen next. -/
inductive GcEvent where
  /-- Another caller's transition is committed. -/
  | commit (s : Submission)
  /-- A removal pass commits once. -/
  | remove (c : GcCommit)
  | tick
  | select (readable : Bool)
  | inspect (outcome : InspectOutcome)
  | record (c : GcCommit)
  | stabilize (c : GcCommit)
  | destroy (report : GcReport)
  | resolve (c : GcCommit)

/-- The worker goes on after a commit that succeeded or had nothing to do. -/
def GcStage.afterCommit (l : TickState) : Option CommitFate → GcStage
  | some .committed => .selecting { l with resolvedCount := l.resolvedCount + 1 }
  | none => .selecting l
  | some .uncertain | some .failed => .idle

/-- The worker destroys a key only after the record was certainly made durable. -/
def GcStage.afterStabilize (l : TickState) (slot : SlotId) (txnId : TxnId)
    (binding : ExactBinding) : Option CommitFate → GcStage
  | some .committed => .destroying l slot txnId binding
  | none => .selecting l
  | some .uncertain | some .failed => .idle

/-- What is logged of a rewrite that was to make the record durable. -/
def stabilizedLog (new : MeshSignerControlRecordV1) : Option CommitFate → List GcObservation
  | some .committed => [.stabilized new]
  | some .uncertain | some .failed | none => []

/-- What the worker does about the entry it selected. -/
def GcStage.afterSelect (H : Hashes) (l : TickState) : Option GcEntry → GcStage
  | some (.awaitingInspection slot txnId) | some (.absentUnconfirmed slot txnId) =>
    .inspecting (l.inspected (slot.canonicalId H)) slot txnId
  | some (.bound slot txnId binding _) =>
    .stabilizing (l.attempted (slot.canonicalId H)) slot txnId binding
  | some (.absent _ _) | some (.inspectionConflict _ _) | none => .idle

/-- What the worker does once it tried to destroy a key. -/
def GcStage.afterDestroy (H : Hashes) (l : TickState) (slot : SlotId) (txnId : TxnId)
    (binding : ExactBinding) (report : GcReport) : GcStage :=
  if report.observationComplete then .resolving l slot txnId binding report
  else .selecting (l.setAside (slot.canonicalId H))

/-- The transition that records what an inspection found, if the entry is still queued. -/
def recordInspection (H : Hashes) (slot : SlotId) (txnId : TxnId) (outcome : InspectOutcome)
    (fresh : MeshSignerControlRecordV1) : Option RecordTransition :=
  (outcome.transition (slot.canonicalId H)).bind (ifQueued H (slot.canonicalId H) txnId · fresh)

/-- The world with a record, a stage and more in its log. -/
def GcWorld.moved (w : GcWorld) (record : MeshSignerControlRecordV1) (stage : GcStage)
    (observed : List GcObservation) : GcWorld :=
  { w with record, stage, log := w.log ++ observed }

/-- One step of the world; events that do not fit the worker's stage are refused. -/
def GcWorld.step (H : Hashes) (w : GcWorld) (event : GcEvent) : Except Unit GcWorld :=
  match event, w.stage with
  | .commit s, _ =>
    if s.transition.collects then .error ()
    else
      match submit H w.record s with
      | .ok new => .ok { w with record := new }
      | .error _ => .error ()
  | .remove c, _ => .ok { w with record := (commitBuilt H w.record (firstRemoval H) c).2 }
  | .tick, .idle => .ok { w with stage := .selecting .init, tick := w.tick + 1 }
  | .select false, .selecting _ => .ok { w with stage := .idle }
  | .select true, .selecting l =>
    .ok { w with stage := .afterSelect H l (w.record.gcPending.find? (l.selects H)) }
  | .inspect .indeterminate, .inspecting l slot _ =>
    .ok (w.moved w.record (.selecting (l.setAside (slot.canonicalId H)))
      [.inspected w.tick slot .indeterminate none])
  | .inspect outcome, .inspecting l slot txnId =>
    .ok { w with stage := .recording l slot txnId outcome }
  | .record c, .recording l slot txnId outcome =>
    let (fate, new) := commitBuilt H w.record (recordInspection H slot txnId outcome) c
    .ok (w.moved new (.afterCommit l fate) [.inspected w.tick slot outcome fate])
  | .stabilize c, .stabilizing l slot txnId binding =>
    let slotId := slot.canonicalId H
    let (fate, new) := commitBuilt H w.record (ifQueued H slotId txnId .stabilizationRewrite) c
    .ok (w.moved new (.afterStabilize l slot txnId binding fate) (stabilizedLog new fate))
  | .destroy report, .destroying l slot txnId binding =>
    .ok (w.moved w.record (.afterDestroy H l slot txnId binding report)
      [.destroyed slot binding report])
  | .resolve c, .resolving l slot txnId _ report =>
    let slotId := slot.canonicalId H
    let (fate, new) := commitBuilt H w.record
      (ifQueued H slotId txnId (.gcResolved slotId (!report.residual) report.mismatch)) c
    .ok { w with record := new, stage := .afterCommit l fate }
  | _, _ => .error ()

variable {H : Hashes} {r new : MeshSignerControlRecordV1} {fate : Option CommitFate}

/-- A commit had no effect because it failed or had nothing to do, or it took effect. -/
theorem commitBuilt_cases {build : MeshSignerControlRecordV1 → Option RecordTransition}
    {c : GcCommit} (h : commitBuilt H r build c = (fate, new)) :
    new = r ∧ (fate = some .failed ∨ build r = none) ∨
      ∃ t, build r = some t ∧ submit H r ⟨t, c.now, c.maxCap⟩ = .ok new := by
  unfold commitBuilt at h
  split at h
  · cases h
    exact .inl ⟨rfl, .inl rfl⟩
  · cases hbuild : build r with
    | none =>
      rw [hbuild] at h
      cases h
      exact .inl ⟨rfl, .inr rfl⟩
    | some t =>
      simp only [hbuild] at h
      cases hsubmit : submit H r ⟨t, c.now, c.maxCap⟩ with
      | error e =>
        rw [hsubmit] at h
        cases h
        exact .inl ⟨rfl, .inl rfl⟩
      | ok new' =>
        rw [hsubmit] at h
        cases h
        exact .inr ⟨t, rfl, hsubmit⟩

/-- The steps of the world, with what each found out. -/
inductive GcWorld.Taken (H : Hashes) (w : GcWorld) : GcEvent → GcWorld → Prop
  | commit {s : Submission} {new}
      (other : s.transition.collects = false) (submitted : submit H w.record s = .ok new) :
      Taken H w (.commit s) { w with record := new }
  | remove {c fate new}
      (ended : commitBuilt H w.record (firstRemoval H) c = (fate, new)) :
      Taken H w (.remove c) { w with record := new }
  | tick (stage : w.stage = .idle) :
      Taken H w .tick { w with stage := .selecting .init, tick := w.tick + 1 }
  | unreadable {l} (stage : w.stage = .selecting l) :
      Taken H w (.select false) { w with stage := .idle }
  | select {l} (stage : w.stage = .selecting l) :
      Taken H w (.select true)
        { w with stage := .afterSelect H l (w.record.gcPending.find? (l.selects H)) }
  | indeterminate {l slot txnId}
      (stage : w.stage = .inspecting l slot txnId) :
      Taken H w (.inspect .indeterminate)
        (w.moved w.record (.selecting (l.setAside (slot.canonicalId H)))
          [.inspected w.tick slot .indeterminate none])
  | inspect {l slot txnId outcome}
      (stage : w.stage = .inspecting l slot txnId) (found : outcome ≠ .indeterminate) :
      Taken H w (.inspect outcome) { w with stage := .recording l slot txnId outcome }
  | record {c l slot txnId outcome fate new}
      (stage : w.stage = .recording l slot txnId outcome)
      (ended : commitBuilt H w.record (recordInspection H slot txnId outcome) c = (fate, new)) :
      Taken H w (.record c)
        (w.moved new (.afterCommit l fate) [.inspected w.tick slot outcome fate])
  | stabilize {c l slot txnId binding fate new}
      (stage : w.stage = .stabilizing l slot txnId binding)
      (ended : commitBuilt H w.record
        (ifQueued H (slot.canonicalId H) txnId .stabilizationRewrite) c = (fate, new)) :
      Taken H w (.stabilize c)
        (w.moved new (.afterStabilize l slot txnId binding fate) (stabilizedLog new fate))
  | destroy {l slot txnId binding report} (stage : w.stage = .destroying l slot txnId binding) :
      Taken H w (.destroy report)
        (w.moved w.record (.afterDestroy H l slot txnId binding report)
          [.destroyed slot binding report])
  | resolve {c l slot txnId binding report fate new}
      (stage : w.stage = .resolving l slot txnId binding report)
      (ended : commitBuilt H w.record (ifQueued H (slot.canonicalId H) txnId
        (.gcResolved (slot.canonicalId H) (!report.residual) report.mismatch)) c = (fate, new)) :
      Taken H w (.resolve c) { w with record := new, stage := .afterCommit l fate }

/-- Every successful step is one of the steps listed. -/
theorem GcWorld.step_taken {w w' : GcWorld} {event : GcEvent} (h : w.step H event = .ok w') :
    w.Taken H event w' := by
  rcases w with ⟨r, stage, n, log⟩
  cases event with
  | commit s =>
    simp only [step] at h
    split at h
    · cases h
    · rename_i hother
      cases hsubmit : submit H r s with
      | error e =>
        rw [hsubmit] at h
        cases h
      | ok new =>
        rw [hsubmit] at h
        cases h
        exact .commit (Bool.eq_false_iff.mpr hother) hsubmit
  | remove c =>
    cases h
    exact .remove rfl
  | tick => cases stage <;> cases h <;> exact .tick rfl
  | select readable =>
    cases readable <;> cases stage <;> cases h
    · exact .unreadable rfl
    · exact .select rfl
  | inspect outcome =>
    cases outcome <;> cases stage <;> cases h
    · exact .inspect rfl nofun
    · exact .inspect rfl nofun
    · exact .indeterminate rfl
    · exact .inspect rfl nofun
  | record c => cases stage <;> cases h <;> exact .record rfl rfl
  | stabilize c => cases stage <;> cases h <;> exact .stabilize rfl rfl
  | destroy report => cases stage <;> cases h <;> exact .destroy rfl
  | resolve c => cases stage <;> cases h <;> exact .resolve rfl rfl

end Theyos.MeshControl

import Theyos.Models.MeshControl.Collect.Evidence

/-!
# What removes and what changes an entry

An entry leaves the queue only in a removal pass, and then the log holds the evidence for it.
Otherwise an entry changes only when the worker records a determinate answer about its slot: an
inspection that found something out, or a destruction that was observed completely.
-/

namespace Theyos.MeshControl

open Machine

variable {H : Hashes} {new : MeshSignerControlRecordV1} {e : GcEntry} {w w' : GcWorld}
  {event : GcEvent}

/-- The evidence for removing an entry. -/
def RemovalEvidence (log : List GcObservation) (e : GcEntry) : Prop :=
  AbsentTwice e.slot log ∨
    ∃ binding report, e = .bound e.slot e.txnId binding .done ∧
      DestroyedAs e.slot e.txnId binding report log ∧ report.isClean = true

/-- No entry for the slot is left in the queue. -/
def Removed (slot : SlotId) (r : MeshSignerControlRecordV1) : Prop :=
  ∀ e ∈ r.gcPending, e.slot ≠ slot

/-- The worker has a determinate answer about the entry to record. -/
def GcStage.Answers (e : GcEntry) : GcStage → Prop
  | .recording _ slot txnId outcome =>
    slot = e.slot ∧ txnId = e.txnId ∧ outcome ≠ .indeterminate
  | .resolving _ slot txnId binding report =>
    (∃ state, e = .bound slot txnId binding state) ∧ report.observationComplete = true
  | _ => False

/-- A supported entry that is resolved may be removed. -/
theorem GcEntry.Supported.evidence {log : List GcObservation} (h : e.Supported log)
    (hresolved : e.observationCompleteAndResidualZero = true) : RemovalEvidence log e := by
  rcases GcEntry.observationCompleteAndResidualZero_iff.mp hresolved with
    ⟨slot, txnId, rfl⟩ | ⟨slot, txnId, binding, rfl⟩
  · exact .inl h
  · obtain ⟨report, hdestroyed, hclean⟩ := h
    exact .inr ⟨binding, report, rfl, hdestroyed, hclean⟩

theorem rewritten_of_gone {t : RecordTransition} {x : GcEntry} {now : UInt64}
    {maxCap : ℕ} {f : GcEntry → Except TransitionError GcEntry} (hw : Wellformed H w.record)
    (hx : x ∈ w.record.gcPending) (ht : t.gcRewrite = some (x.slot.canonicalId H, f))
    (hsubmit : submit H w.record ⟨t, now, maxCap⟩ = .ok new) (he : e ∈ w.record.gcPending)
    (hgone : e ∉ new.gcPending) :
    e = x ∧ e.isStuck = false ∧ ∃ e' ∈ new.gcPending, e'.slot = e.slot := by
  obtain ⟨e', hf, hqueue⟩ := queue_of_rewrite hw hx ht hsubmit
  have hname : e.slot.canonicalId H = x.slot.canonicalId H := by
    by_contra hne
    exact hgone ((hqueue e).mpr (.inr ⟨he, hne⟩))
  obtain rfl := hw.gcEntry_ext he hx hname
  obtain ⟨hslot, _, hfree⟩ := gcRewrite_keeps ht hf
  exact ⟨rfl, hfree, e', (hqueue e').mpr (.inl rfl), hslot⟩

/-- An entry is gone after a step because a removal pass took it, resolved, or because the worker
rewrote it on a determinate answer. -/
theorem GcWorld.Sound.gone (h : w.Sound H) (hstep : w.step H event = .ok w')
    (he : e ∈ w.record.gcPending) (hgone : e ∉ w'.record.gcPending) :
    e.observationCompleteAndResidualZero = true ∧ Removed e.slot w'.record ∨
      w.stage.Answers e ∧ e.isStuck = false ∧ ∃ e' ∈ w'.record.gcPending, e'.slot = e.slot := by
  have hoccupied := h.occupied
  have htraced := h.traced
  cases step_taken hstep with
  | commit hother hsubmit => exact absurd ((queue_of_other hother hsubmit).1 e he) hgone
  | remove hended =>
    rcases commitBuilt_cases hended with ⟨rfl, _⟩ | ⟨t, hbuild, hsubmit⟩
    · exact absurd he hgone
    · obtain ⟨_, _, rfl⟩ := Option.map_eq_some_iff.mp hbuild
      obtain ⟨hold, hkeep⟩ := queue_of_removal h.wellformed hsubmit
      refine .inl ⟨?_, fun x hx hslot => ?_⟩
      · by_contra hopen
        exact hgone (hkeep e he (Bool.eq_false_iff.mpr hopen))
      · rw [h.wellformed.gcEntry_ext (hold x hx) he (congrArg _ hslot)] at hx
        exact hgone hx
  | @record c l slot txnId outcome fate new hstage hended =>
    rw [hstage] at hoccupied htraced
    rcases commitBuilt_cases hended with ⟨rfl, _⟩ | ⟨t, hbuild, hsubmit⟩
    · exact absurd he hgone
    · obtain ⟨t', ht, hqueued⟩ := Option.bind_eq_some_iff.mp hbuild
      obtain rfl := ifQueued_eq_some hqueued
      obtain ⟨f, hf⟩ := transition_gcRewrite ht
      obtain ⟨x, hx, rfl, rfl⟩ := occupied_inspection hoccupied
      obtain ⟨rfl, hrewritten⟩ := rewritten_of_gone h.wellformed hx hf hsubmit he hgone
      refine .inr ⟨?_, hrewritten⟩
      rw [hstage]
      exact ⟨rfl, rfl, htraced.2⟩
  | stabilize hstage hended =>
    obtain rfl := stabilized_eq hended
    exact absurd he hgone
  | @resolve c l slot txnId binding report fate new hstage hended =>
    rw [hstage] at hoccupied htraced
    rcases commitBuilt_cases hended with ⟨rfl, _⟩ | ⟨t, hbuild, hsubmit⟩
    · exact absurd he hgone
    · obtain rfl := ifQueued_eq_some hbuild
      obtain ⟨state, hx, _⟩ := hoccupied
      obtain ⟨rfl, hrewritten⟩ := rewritten_of_gone h.wellformed hx rfl hsubmit he hgone
      refine .inr ⟨?_, hrewritten⟩
      rw [hstage]
      exact ⟨⟨state, rfl⟩, htraced.2⟩
  | _ => exact absurd he hgone

/-- A stuck entry outlasts every run. -/
theorem GcWorld.Sound.stuck (h : w.Sound H) (he : e ∈ w.record.gcPending)
    (hstuck : e.isStuck = true) (events : List GcEvent) :
    e ∈ (run (GcWorld.step H) w events).record.gcPending := by
  refine (run_invariant (P := fun w : GcWorld => w.Sound H ∧ e ∈ w.record.gcPending) ⟨h, he⟩ ?_
    events).2
  rintro w event w' ⟨hw, hmem⟩ hstep
  refine ⟨hw.step hstep, ?_⟩
  by_contra hgone
  rcases hw.gone hstep hmem hgone with ⟨hresolved, _⟩ | ⟨_, hfree, _⟩
  · rcases GcEntry.observationCompleteAndResidualZero_iff.mp hresolved with
      ⟨_, _, rfl⟩ | ⟨_, _, _, rfl⟩ <;> cases hstuck
  · cases hstuck.symm.trans hfree

/-- In every run of the collector among other callers, an entry is removed only on evidence, it is
changed only on a determinate answer, and it is never changed once it is stuck. -/
theorem removal_evidence (identity : ControlIdentity) (purpose : PurposeId)
    (events : List GcEvent) (hrun : run (GcWorld.step H) (.init identity purpose) events = w) :
    (∀ event w' e, w.step H event = .ok w' → e ∈ w.record.gcPending → Removed e.slot w'.record →
      RemovalEvidence w.log e) ∧
    (∀ event w' e, w.step H event = .ok w' → e ∈ w.record.gcPending → e ∉ w'.record.gcPending →
      Removed e.slot w'.record ∨ w.stage.Answers e) ∧
    ∀ later e, e ∈ w.record.gcPending → e.isStuck = true →
      e ∈ (run (GcWorld.step H) w later).record.gcPending := by
  have hsound : w.Sound H := hrun ▸ GcWorld.sound_run identity purpose events
  refine ⟨?_, ?_, fun later e he hstuck => hsound.stuck he hstuck later⟩
  · intro event w' e hstep he hremoved
    have hgone : e ∉ w'.record.gcPending := fun he' => hremoved e he' rfl
    rcases hsound.gone hstep he hgone with ⟨hresolved, _⟩ | ⟨_, _, e', he', hslot⟩
    · exact (hsound.supported e he).evidence hresolved
    · exact absurd hslot (hremoved e' he')
  · intro event w' e hstep he hgone
    exact (hsound.gone hstep he hgone).imp (·.2) (·.1)

/-- A key is created and preempted before it was observed. -/
def queuedSlot : List GcEvent :=
  [.commit (RecordTransition.intentRecorded (repeatedTxn 1) .create .file).submission,
    .commit (RecordTransition.revokeUrgent .lost (repeatedTxn 2)).submission]

/-- A tick that inspects one slot, with the answer and the end of its commit. -/
def inspectingTick (outcome : InspectOutcome) (fate : CommitFate) : List GcEvent :=
  [.tick, .select true, .inspect outcome, .record ⟨0, 4, fate⟩, .select true]

/-- The world after events from the pristine record of the small identity. -/
def smallWorld (events : List GcEvent) : GcWorld :=
  run (GcWorld.step fieldHashes) (.init smallIdentity .meshSession) events

/-- Nothing was found in two ticks. -/
def absentRun : List GcEvent :=
  queuedSlot ++ inspectingTick .absent .committed ++ inspectingTick .absent .committed

theorem removal_evidence_absentRun :
    GcEntry.absent (firstSlot (repeatedTxn 1)) (repeatedTxn 1) ∈
        (smallWorld absentRun).record.gcPending ∧
      RemovalEvidence (smallWorld absentRun).log
        (.absent (firstSlot (repeatedTxn 1)) (repeatedTxn 1)) := by
  have hqueue : (smallWorld absentRun).record.gcPending =
      [.absent (firstSlot (repeatedTxn 1)) (repeatedTxn 1)] := by decide +kernel
  have hremoved : (smallWorld (absentRun ++ [.remove ⟨0, 4, .committed⟩])).record.gcPending =
      [] := by decide +kernel
  have hstep : (smallWorld absentRun).step fieldHashes (.remove ⟨0, 4, .committed⟩) =
      .ok (smallWorld (absentRun ++ [.remove ⟨0, 4, .committed⟩])) := by
    rfl
  have hmem : GcEntry.absent (firstSlot (repeatedTxn 1)) (repeatedTxn 1) ∈
      (smallWorld absentRun).record.gcPending := by simp [hqueue]
  refine ⟨hmem, (removal_evidence smallIdentity .meshSession absentRun rfl).1 _ _ _ hstep hmem ?_⟩
  simp [Removed, hremoved]

/-- A key is found between the two ticks, but what was found could not be recorded. -/
def unrecordedRun : List GcEvent :=
  queuedSlot ++ inspectingTick .absent .committed ++
    inspectingTick (.present ⟨firstSlot (repeatedTxn 1), [4], []⟩) .failed ++
      inspectingTick .absent .committed

theorem unrecordedRun_log :
    (smallWorld unrecordedRun).log =
      [.inspected 1 (firstSlot (repeatedTxn 1)) .absent (some .committed),
        .inspected 2 (firstSlot (repeatedTxn 1))
          (.present ⟨firstSlot (repeatedTxn 1), [4], []⟩) (some .failed),
        .inspected 3 (firstSlot (repeatedTxn 1)) .absent (some .committed)] := by
  decide +kernel

/-- In two ticks nothing was found at the slot, and no key was found there in between. -/
def AbsentTwiceUnbroken (slot : SlotId) (log : List GcObservation) : Prop :=
  Linked (fun x y => ∃ i j fate fate', x = .inspected i slot .absent fate ∧
    y = .inspected j slot .absent fate' ∧ i ≠ j)
    (fun o => ∀ i b fate, o ≠ .inspected i slot (.present b) fate) log

theorem removed_despite_present :
    (smallWorld unrecordedRun).record.gcPending =
        [.absent (firstSlot (repeatedTxn 1)) (repeatedTxn 1)] ∧
      (smallWorld (unrecordedRun ++ [.remove ⟨0, 4, .committed⟩])).record.gcPending = [] ∧
      ¬ AbsentTwiceUnbroken (firstSlot (repeatedTxn 1)) (smallWorld unrecordedRun).log ∧
      ∀ slot binding report, .destroyed slot binding report ∉ (smallWorld unrecordedRun).log := by
  refine ⟨by decide +kernel, by decide +kernel, ?_, ?_⟩
  · rw [unrecordedRun_log]
    rintro ⟨before, a, between, c, after, hsplit, ⟨i, j, fate, fate', rfl, rfl, hne⟩, hbetween⟩
    rcases before with _ | ⟨_, _ | ⟨_, _ | ⟨_, _⟩⟩⟩
    · rcases between with _ | ⟨_, _ | ⟨_, _⟩⟩
      · cases hsplit
      · cases hsplit
        exact hbetween _ List.mem_cons_self _ _ _ rfl
      · simp at hsplit
    all_goals simp at hsplit
  · rw [unrecordedRun_log]
    intro slot binding report hmem
    simp at hmem

end Theyos.MeshControl

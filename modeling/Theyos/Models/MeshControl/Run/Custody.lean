import Theyos.Models.MeshControl.Run.Submission

/-!
# Custody of slots over whole runs

Every slot ever assigned stays in exactly one place of the record until a removal
of its resolved entry, and the generations of successive assignments strictly
increase. At the end of a counter nothing is assigned any more.
-/

namespace Theyos.MeshControl

open MeshSignerControlRecordV1 Machine RecordTransition

/-- The transitions that assign a slot to a new operation. -/
def RecordTransition.assignsSlot : RecordTransition → Bool
  | .intentRecorded _ _ _ | .reactivateFromRevoked _ _ _ => true
  | _ => false

/-- The submission starts the operation `p`. -/
def Assigns (H : Hashes) (r : MeshSignerControlRecordV1) (x : Submission) (p : PendingOp) : Prop :=
  x.transition.assignsSlot = true ∧ ∃ new, submit H r x = .ok new ∧ new ≠ r ∧ new.pendingOp = some p

/-- The slot is listed exactly once over the three places of the record. -/
def HeldOnce (r : MeshSignerControlRecordV1) (s : SlotId) : Prop :=
  (r.pendingOp.toList.map (·.canonicalSlot)).count s +
    (r.liveGenerations.map (·.binding.slot)).count s + (r.gcPending.map (·.slot)).count s = 1

/-- The submission removes the entry of `s`, which was confirmed absent or destroyed. -/
def RemovesSlot (H : Hashes) (s : SlotId) (r : MeshSignerControlRecordV1) (x : Submission) : Prop :=
  (∃ new, submit H r x = .ok new) ∧
    ∃ e ∈ r.gcPending, e.slot = s ∧ x.transition = .gcRemoval (s.canonicalId H) e.txnId ∧
      ((∃ slot txnId, e = .absent slot txnId) ∨
        ∃ slot txnId binding, e = .bound slot txnId binding .done)

variable {H : Hashes} {identity : ControlIdentity} {purpose : PurposeId}
  {old new r : MeshSignerControlRecordV1} {x : Submission} {p : PendingOp} {s : SlotId}

/-- A slot in the custody of a well-formed record is held once. -/
theorem Wellformed.heldOnce (hw : Wellformed H r) (hs : s ∈ r.custody.keys) : HeldOnce r s := by
  have hcount := List.count_eq_one_of_mem hw.custody.keys_nodup hs
  simp only [Ledger.keys, MeshSignerControlRecordV1.custody, List.count_append,
    Option.toList_map] at hcount
  exact hcount

/-- A successful submission is one action of the custody ledger. -/
theorem custodyStep_of_submit (hw : Wellformed H old) (h : submit H old x = .ok new) :
    ∃ act, CustodyStep H old new x.transition act := by
  rcases submit_cases h with rfl | ⟨heffect, _⟩
  · exact ⟨.idle, .idle, nofun, nofun⟩
  · exact heffect.custodyStep hw

/-- Unless it is removed, a slot stays in custody over a submission, and stays queued. -/
theorem mem_submit (hw : Wellformed H old) (h : submit H old x = .ok new)
    (hkept : ¬ RemovesSlot H s old x) : (s ∈ old.custody.keys → s ∈ new.custody.keys) ∧
      (s ∈ old.custody.retired → s ∈ new.custody.retired) := by
  obtain ⟨act, hact⟩ := custodyStep_of_submit hw h
  have hne : act ≠ .discard s := by
    rintro rfl
    obtain ⟨e, he, hslot, hresolved, ht⟩ := hact.discarded s rfl
    exact hkept ⟨⟨new, h⟩, e, he, hslot, ht,
      GcEntry.observationCompleteAndResidualZero_iff.mp hresolved⟩
  exact ⟨fun hs => hact.step.mem_keys_of_mem hw.custody hs hne,
    fun hs => hact.step.mem_retired_of_mem hs hne⟩

/-- The slot of a new operation enters custody. -/
theorem Assigns.mem_keys (h : Assigns H r x p) :
    p.canonicalSlot ∈ (advance (submit H) r x).custody.keys := by
  obtain ⟨_, new, hsubmit, _, hp⟩ := h
  rw [advance_ok hsubmit]
  exact mem_custody_keys.mpr (Or.inl ⟨p, hp, rfl⟩)

/-- Every assigned slot is held exactly once, and once queued stays queued, until
its own resolved entry is removed. -/
theorem assigned_slot_conserved {before after : List Submission}
    (hassign : Assigns H (run (submit H) (bootstrap identity purpose) before) x p)
    (hkept : Along (submit H) (fun r y => ¬ RemovesSlot H p.canonicalSlot r y)
      (run (submit H) (bootstrap identity purpose) (before ++ [x])) after) :
    HeldOnce (run (submit H) (bootstrap identity purpose) (before ++ x :: after)) p.canonicalSlot ∧
      ∀ mid rest, after = mid ++ rest →
        p.canonicalSlot ∈ (run (submit H) (bootstrap identity purpose)
          (before ++ x :: mid)).gcPending.map (·.slot) →
        p.canonicalSlot ∈ (run (submit H) (bootstrap identity purpose)
          (before ++ x :: after)).gcPending.map (·.slot) := by
  have hstart : Reached H identity purpose
      (run (submit H) (bootstrap identity purpose) (before ++ [x])) := ⟨_, rfl⟩
  have hsplit : ∀ tail, run (submit H) (bootstrap identity purpose) (before ++ x :: tail) =
      run (submit H) (run (submit H) (bootstrap identity purpose) (before ++ [x])) tail := by
    intro tail
    rw [← run_append, List.append_assoc, List.singleton_append]
  have hmem : p.canonicalSlot ∈
      (run (submit H) (bootstrap identity purpose) (before ++ [x])).custody.keys := by
    rw [run_append]
    exact hassign.mem_keys
  refine ⟨?_, ?_⟩
  · rw [hsplit]
    have hheld := run_invariant_along
      (P := fun r => Wellformed H r ∧ p.canonicalSlot ∈ r.custody.keys)
      ⟨hstart.wellformed, hmem⟩
      (fun _ _ _ hP hG hs => ⟨hP.1.submit hs, (mem_submit hP.1 hs hG).1 hP.2⟩) hkept
    exact hheld.1.heldOnce hheld.2
  · rintro mid rest rfl hqueued
    rw [hsplit] at hqueued ⊢
    rw [run_append]
    have hmid := hstart.run mid
    have hheld := run_invariant_along
      (P := fun r => Wellformed H r ∧ p.canonicalSlot ∈ r.custody.retired)
      ⟨Reached.wellformed hmid, hqueued⟩
      (fun _ _ _ hP hG hs => ⟨hP.1.submit hs, (mem_submit hP.1 hs hG).2 hP.2⟩)
      (along_append.mp hkept).2
    exact hheld.2

/-- A created key preempted, and looked for once without success. -/
def preemptedRun : List Submission :=
  [(RecordTransition.revokeUrgent .lost (repeatedTxn 2)).submission,
    (RecordTransition.gcInspected
      ((firstSlot (repeatedTxn 1)).canonicalId fieldHashes) none).submission]

/-- The first operation of the small identity's record. -/
def firstOp (txnId : TxnId) : PendingOp :=
  newPendingOp fieldHashes (bootstrap smallIdentity .meshSession) txnId .create .one .one .file

/-- The record a preempted key leaves. -/
def preempted : MeshSignerControlRecordV1 :=
  run (submit fieldHashes) (bootstrap smallIdentity .meshSession)
    ([] ++ (RecordTransition.intentRecorded (repeatedTxn 1) .create .file).submission ::
      preemptedRun)

theorem assigned_slot_conserved_preemptedRun :
    HeldOnce preempted (firstSlot (repeatedTxn 1)) ∧ preempted.gcPending =
      [.absentUnconfirmed (firstSlot (repeatedTxn 1)) (repeatedTxn 1)] := by
  refine ⟨(assigned_slot_conserved (p := firstOp (repeatedTxn 1)) ?_ ?_).1, by decide +kernel⟩
  · exact ⟨rfl, _, rfl, by decide +kernel, by decide +kernel⟩
  · refine ⟨?_, ?_, trivial⟩ <;>
    · rintro ⟨_, e, _, _, ht, _⟩
      cases ht

/-- The mark of a record never moves down. -/
theorem mark_le_submit (hw : Wellformed H old) (h : submit H old x = .ok new) :
    old.custody.mark ≤ new.custody.mark := by
  obtain ⟨act, hact⟩ := custodyStep_of_submit hw h
  exact hact.step.mark_le

/-- A new operation takes a generation above the mark, and the mark follows it. -/
theorem Assigns.mark (h : Assigns H r x p) :
    r.custody.mark < p.generation.toNat ∧
      (advance (submit H) r x).custody.mark = p.generation.toNat ∧
        p.canonicalSlot.generation = p.generation := by
  obtain ⟨ht, new, hsubmit, hne, hp⟩ := h
  rw [advance_ok hsubmit]
  generalize hx : x.transition = t at ht
  have heffect := (effect_of_ne hsubmit hne).1
  rw [hx] at heffect
  have hmark : new.custody.mark = new.generationHighWater.toNat := by
    simp [MeshSignerControlRecordV1.custody, hp]
  rw [hmark]
  cases heffect with
  | intentRecorded hidle _ _ hnext _ _ | reactivateFromRevoked _ hidle _ _ hnext _ _ _ _ =>
    cases hp
    exact ⟨custody_mark_lt hidle hnext, rfl, rfl⟩
  | gcRewritten hrewrites => cases t <;> cases ht <;> cases hrewrites
  | _ => cases ht

/-- A later operation of a run has a larger generation and another slot. -/
theorem assigned_lt {y : Submission} {q : PendingOp} {before mid : List Submission}
    (hp : Assigns H (run (submit H) (bootstrap identity purpose) before) x p)
    (hq : Assigns H (run (submit H) (bootstrap identity purpose) (before ++ x :: mid)) y q) :
    p.generation < q.generation ∧ p.canonicalSlot ≠ q.canonicalSlot := by
  have hreach : ∀ steps, Reached H identity purpose
      (run (submit H) (bootstrap identity purpose) steps) := fun steps => ⟨steps, rfl⟩
  obtain ⟨_, hmark, hslot⟩ := hp.mark
  obtain ⟨hlt, _, hslot'⟩ := hq.mark
  have hle : p.generation.toNat ≤
      (run (submit H) (bootstrap identity purpose) (before ++ x :: mid)).custody.mark := by
    rw [run_append, ← hmark]
    exact run_relation (R := fun r r' => r.custody.mark ≤ r'.custody.mark) (fun _ => le_rfl)
      (fun h h' => h.trans h') (P := Wellformed H) (fun _ _ _ hw hs => hw.submit hs)
      (fun _ _ _ hw hs => mark_le_submit hw hs) (Reached.wellformed ((hreach before).advance x)) mid
  have hgen : p.generation < q.generation := NonZeroU64.lt_iff.mpr (hle.trans_lt hlt)
  refine ⟨hgen, ?_⟩
  intro he
  have := congrArg (fun s => s.generation.toNat) he
  simp only [hslot, hslot'] at this
  omega

/-- Some counter of the record has reached its end. -/
def Exhausted (r : MeshSignerControlRecordV1) : Prop :=
  r.generationHighWater.get = maxU64 ∨ r.epochHighWater.get = maxU64 ∨ r.revision = maxU64

/-- No operation starts from an exhausted record. -/
theorem Exhausted.no_effect {now : UInt64} {t : RecordTransition} (hw : Wellformed H r)
    (hmax : Exhausted r) (ht : t.assignsSlot = true) : ¬ Effect H r now t new := by
  have hgen : r.generationHighWater.toNat ≠ maxU64.toNat →
      r.epochHighWater.toNat ≠ maxU64.toNat → r.revision.toNat ≠ maxU64.toNat → False := by
    intro h1 h2 h3
    rcases hmax with h | h | h
    · exact h1 (congrArg UInt64.toNat h)
    · exact h2 (congrArg UInt64.toNat h)
    · exact h3 (congrArg UInt64.toNat h)
  intro heffect
  cases heffect with
  | @intentRecorded _ _ _ generation revision _ _ hvalid hnext _ hbump =>
    have hrev := checkedAdd_one_eq_some.mp hbump
    have hrevMax := UInt64.le_maxU64 revision
    have hgenMax := generation.toNat_le_max
    have hlead := hw.lead
    rcases deriveNextGeneration_eq_ok.mp hnext with ⟨hempty, _⟩ | ⟨hne, hg⟩
    · have hpristine := hw.pristine hempty
      refine hgen ?_ ?_ (by omega)
      · rw [hpristine.generation]
        decide
      · rw [hpristine.epoch]
        decide
    · have hactive : r.authority = .active := by
        revert hvalid hne
        cases r.authority <;> simp [validIntent]
      simp only [revisionLead, hactive, if_true] at hlead
      exact hgen (by omega) (by omega) (by omega)
  | @reactivateFromRevoked _ _ _ epoch generation _ revision hrevoked _ _ hepoch hnext _ _ _
      hbump =>
    have hrev := checkedAdd_one_eq_some.mp hbump
    have hep := NonZeroU64.checkedAdd_one_eq_some.mp hepoch
    have hrevMax := UInt64.le_maxU64 revision
    have hgenMax := generation.toNat_le_max
    have hepMax := epoch.toNat_le_max
    rcases deriveNextGeneration_eq_ok.mp hnext with ⟨hempty, _⟩ | ⟨_, hg⟩
    · rw [hempty] at hrevoked
      cases hrevoked
    · exact hgen (by omega) (by omega) (by omega)
  | gcRewritten hrewrites => cases t <;> cases ht <;> cases hrewrites
  | _ => cases ht

/-- Generations of successive operations strictly increase and their slots differ.
From an exhausted record an intent or a reactivation changes nothing: it is
refused, unless it replays a recorded reactivation. -/
theorem assigned_generations_fresh (H : Hashes) (identity : ControlIdentity) (purpose : PurposeId) :
    (∀ (before mid : List Submission) (x y : Submission) (p q : PendingOp),
      Assigns H (run (submit H) (bootstrap identity purpose) before) x p →
      Assigns H (run (submit H) (bootstrap identity purpose) (before ++ x :: mid)) y q →
        p.generation < q.generation ∧ p.canonicalSlot ≠ q.canonicalSlot) ∧
      ∀ r, Reached H identity purpose r → Exhausted r →
        ∀ x : Submission, x.transition.assignsSlot = true →
          advance (submit H) r x = r ∧
            ((∃ e, submit H r x = .error e) ∨ Replays r x.transition) := by
  refine ⟨fun _ _ _ _ _ _ hp hq => assigned_lt hp hq, ?_⟩
  intro r hr hmax x hx
  cases hs : submit H r x with
  | error e => exact ⟨advance_error hs, Or.inl ⟨e, rfl⟩⟩
  | ok new =>
    rcases apply_eq_ok.mp hs with ⟨hreplay, rfl⟩ | ⟨heffect, _⟩
    · exact ⟨advance_ok hs, Or.inr hreplay⟩
    · exact absurd heffect (hmax.no_effect hr.wellformed hx)

theorem assigned_generations_fresh_firstOp :
    (firstOp (repeatedTxn 1)).generation < NonZeroU64.mk 2 (by decide) ∧
      (∃ x q, q.generation = NonZeroU64.mk 2 (by decide) ∧ Assigns fieldHashes preempted x q ∧
        (firstOp (repeatedTxn 1)).canonicalSlot ≠ q.canonicalSlot) := by
  have hfirst : Assigns fieldHashes
      (run (submit fieldHashes) (bootstrap smallIdentity .meshSession) [])
      (intentRecorded (repeatedTxn 1) .create .file).submission
      (firstOp (repeatedTxn 1)) := ⟨rfl, _, rfl, by decide +kernel, by decide +kernel⟩
  have hsecond : Assigns fieldHashes preempted
      (reactivateFromRevoked (repeatedTxn 3) (repeatedTxn 1) .file).submission
      (newPendingOp fieldHashes (bootstrap smallIdentity .meshSession) (repeatedTxn 1) .reactivate
        ⟨2, by decide⟩ ⟨3, by decide⟩ .file) :=
    ⟨rfl, _, rfl, by decide +kernel, by decide +kernel⟩
  have hfresh := (assigned_generations_fresh fieldHashes smallIdentity .meshSession).1
    [] preemptedRun _ _ _ _ hfirst hsecond
  exact ⟨hfresh.1, _, _, rfl, hsecond, hfresh.2⟩

/-- Acknowledging an acknowledged result again only spends a revision. -/
theorem submit_acked_again (hw : Wellformed H r) {txnId : TxnId}
    (hrecorded : ∃ e ∈ r.recentTerminalResults, e.txnId = txnId)
    (hacked : ackTerminal r.recentTerminalResults txnId = r.recentTerminalResults)
    {revision : UInt64} (hbump : checkedAdd r.revision 1 = some revision) (now : UInt64)
    (maxCap : ℕ) :
    submit H r ⟨.terminalAcked txnId, now, maxCap⟩ = .ok { r with revision := revision } := by
  refine apply_eq_ok.mpr (Or.inr ⟨?_, ?_⟩)
  · have heffect : Effect H r now (.terminalAcked txnId) _ := .terminalAcked hrecorded hbump
    rwa [hacked] at heffect
  · exact Respects.of_kept hw rfl rfl (fun _ hg => hg) le_rfl le_rfl hw.gc_names le_rfl

/-- Repeated acknowledgements reach every later revision. -/
theorem run_acked_again (txnId : TxnId) (now : UInt64) (maxCap n : ℕ) (hw : Wellformed H r)
    (hrecorded : ∃ e ∈ r.recentTerminalResults, e.txnId = txnId)
    (hacked : ackTerminal r.recentTerminalResults txnId = r.recentTerminalResults)
    (revision : UInt64) (hn : revision.toNat = r.revision.toNat + n) :
    run (submit H) r (List.replicate n ⟨.terminalAcked txnId, now, maxCap⟩) =
      { r with revision := revision } := by
  induction n generalizing r with
  | zero =>
    have he : revision = r.revision := UInt64.toNat_inj.mp hn
    rw [he]
    rfl
  | succ n ih =>
    have hlt := UInt64.le_maxU64 revision
    have hne : r.revision ≠ maxU64 := by
      rintro he
      rw [he] at hn
      omega
    obtain ⟨next, hbump, hnext⟩ := checkedAdd_one_of_ne hne
    have hstep := submit_acked_again hw hrecorded hacked hbump now maxCap
    rw [List.replicate_succ, run_cons, advance_ok hstep]
    exact ih (hw.submit hstep) hrecorded hacked (by rw [hnext]; omega)

/-- A record revoked and reactivated, with the reactivation acknowledged. -/
def reactivatedRun : List Submission :=
  [(RecordTransition.revokeUrgent .lost (repeatedTxn 1)).submission,
    (RecordTransition.reactivateFromRevoked (repeatedTxn 2) (repeatedTxn 3) .file).submission,
    (RecordTransition.terminalAcked (repeatedTxn 2)).submission]

/-- A reactivation replayed at the last revision is answered with success. -/
theorem reactivate_replayed_at_last_revision :
    let r := run (submit fieldHashes) (bootstrap smallIdentity .meshSession)
      (reactivatedRun ++ List.replicate (2 ^ 64 - 4)
        (RecordTransition.terminalAcked (repeatedTxn 2)).submission)
    r.revision = maxU64 ∧
      submit fieldHashes r (RecordTransition.reactivateFromRevoked (repeatedTxn 2)
        (repeatedTxn 3) .file).submission = .ok r := by
  have hreach : Reached fieldHashes smallIdentity .meshSession
      (run (submit fieldHashes) (bootstrap smallIdentity .meshSession) reactivatedRun) := ⟨_, rfl⟩
  have hrun := run_acked_again (repeatedTxn 2) 0 4 (2 ^ 64 - 4) hreach.wellformed
    (by decide +kernel) (by decide +kernel) maxU64 (by decide +kernel)
  simp only [run_append, submission] at hrun ⊢
  rw [hrun]
  decide +kernel

end Theyos.MeshControl

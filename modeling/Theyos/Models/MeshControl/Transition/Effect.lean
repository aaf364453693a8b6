import Theyos.Models.MeshControl.Transition.Apply

/-!
# What a transition does

`Effect` lists, arm by arm, the guards a successful transition passed and the record it
constructed.
-/

namespace Theyos.MeshControl

open Machine MeshSignerControlRecordV1

/-- The transitions that rewrite one entry of the collector's queue, with their rewriting. -/
def RecordTransition.gcRewrite :
    RecordTransition → Option (String × (GcEntry → Except TransitionError GcEntry))
  | .gcInspected slotId found => some (slotId, GcEntry.inspected found)
  | .gcInspectionConflict slotId => some (slotId, GcEntry.conflicted)
  | .gcResolved slotId residualZero quarantine =>
    some (slotId, GcEntry.resolved residualZero quarantine)
  | _ => none

/-- The guards passed and the record constructed by each transition. -/
inductive Effect (H : Hashes) (old : MeshSignerControlRecordV1) (now : UInt64) :
    RecordTransition → MeshSignerControlRecordV1 → Prop
  | stabilizationRewrite : Effect H old now .stabilizationRewrite old
  | intentRecorded {txnId kind backend generation revision}
      (idle : old.pendingOp = none)
      (unused : ∀ r ∈ old.recentTerminalResults, r.txnId ≠ txnId)
      (valid : validIntent old.authority kind = true)
      (next : deriveNextGeneration old = .ok generation)
      (free : slotCollidesWithUnresolvedGc H old
        (old.derivedSlot H generation txnId backend) = false)
      (bump : checkedAdd old.revision 1 = some revision) :
      Effect H old now (.intentRecorded txnId kind backend)
        { old with
          generationHighWater := generation
          pendingOp := some (newPendingOp H old txnId kind generation old.epochHighWater backend)
          revision := revision }
  | keyObserved {token : WorkerToken} {binding : ExactBinding} {p revision}
      (expected : old.revision = token.expectedRevision)
      (pending : old.pendingOp = some p)
      (phase : p.phase = .intent)
      (matching : pendingMatchesToken H p token = true)
      (own : binding.slot = p.canonicalSlot)
      (bump : checkedAdd old.revision 1 = some revision) :
      Effect H old now (.keyObserved token binding)
        { old with
          pendingOp := some { p with phase := .keyObserved, binding := some binding }
          revision := revision }
  | activateFromKeyObserved {token : WorkerToken} {delegation p binding kept revision}
      (expected : old.revision = token.expectedRevision)
      (pending : old.pendingOp = some p)
      (phase : p.phase = .keyObserved)
      (matching : pendingMatchesToken H p token = true)
      (observed : p.binding = some binding)
      (unused : ∀ r ∈ old.recentTerminalResults, r.txnId ≠ p.txnId)
      (room : MakesRoom false old.recentTerminalResults kept)
      (bump : checkedAdd old.revision 1 = some revision) :
      Effect H old now (.activateFromKeyObserved token delegation)
        { old with
          liveGenerations := old.liveGenerations ++ [activatedGeneration p delegation binding]
          currentGeneration := some p.generation
          authority := .active
          pendingOp := none
          recentTerminalResults := kept ++ [unackedResult p.txnId (.activated p.generation)
            (.activate p.generation delegation) now]
          generationHighWater :=
            if old.generationHighWater < p.generation then p.generation
            else old.generationHighWater
          revision := revision }
  | revokeUrgent {reason txnId epoch kept revision}
      (next : old.epochHighWater.checkedAdd 1 = some epoch)
      (unused : ∀ r ∈ old.recentTerminalResults, r.txnId ≠ txnId)
      (room : MakesRoom true old.recentTerminalResults kept)
      (bump : checkedAdd old.revision 1 = some revision) :
      Effect H old now (.revokeUrgent reason txnId)
        { old with
          epochHighWater := epoch
          authority := .revoked reason
          gcPending := old.gcPending ++ old.pendingOp.toList.map PendingOp.gcEntry ++
            old.liveGenerations.map GenerationRecord.gcEntry
          pendingOp := none
          liveGenerations := []
          currentGeneration := none
          recentTerminalResults := kept ++ [unackedResult txnId (.revoked epoch) (.revoke reason) now]
          revision := revision }
  | reactivateFromRevoked {txnId nextTxnId backend epoch generation kept revision}
      (revoked : old.authority.isRevoked = true)
      (idle : old.pendingOp = none)
      (nextUnused : ∀ r ∈ old.recentTerminalResults, r.txnId ≠ nextTxnId)
      (nextEpoch : old.epochHighWater.checkedAdd 1 = some epoch)
      (next : deriveNextGeneration old = .ok generation)
      (free : slotCollidesWithUnresolvedGc H old
        (old.derivedSlot H generation nextTxnId backend) = false)
      (unused : ∀ r ∈ old.recentTerminalResults, r.txnId ≠ txnId)
      (room : MakesRoom false old.recentTerminalResults kept)
      (bump : checkedAdd old.revision 1 = some revision) :
      Effect H old now (.reactivateFromRevoked txnId nextTxnId backend)
        { old with
          epochHighWater := epoch
          generationHighWater := generation
          pendingOp := some (newPendingOp H old nextTxnId .reactivate generation epoch backend)
          recentTerminalResults := kept ++ [unackedResult txnId (.reactivated epoch)
            (.reactivate nextTxnId backend) now]
          revision := revision }
  | generationExpired {generation g revision}
      (notCurrent : old.currentGeneration ≠ some generation)
      (live : old.liveGenerations.find? (·.generation == generation) = some g)
      (expired : ¬ now < g.notAfter)
      (bump : checkedAdd old.revision 1 = some revision) :
      Effect H old now (.generationExpired generation)
        { old with
          gcPending := old.gcPending ++ [g.gcEntry]
          liveGenerations := old.liveGenerations.filter (·.generation ≠ generation)
          revision := revision }
  | gcRewritten {t : RecordTransition} {slotId} {f : GcEntry → Except TransitionError GcEntry} {before after e e' revision}
      (rewrites : t.gcRewrite = some (slotId, f))
      (split : old.gcPending = before ++ e :: after)
      (skipped : ∀ x ∈ before, (x.slot.canonicalId H == slotId) = false)
      (named : e.slot.canonicalId H = slotId)
      (rewritten : f e = .ok e')
      (bump : checkedAdd old.revision 1 = some revision) :
      Effect H old now t
        { old with gcPending := before ++ e' :: after, revision := revision }
  | gcRemoval {slotId txnId e revision}
      (found : old.gcPending.find? (GcEntry.isNamed H slotId txnId) = some e)
      (resolved : e.observationCompleteAndResidualZero = true)
      (bump : checkedAdd old.revision 1 = some revision) :
      Effect H old now (.gcRemoval slotId txnId)
        { old with
          gcPending := old.gcPending.filter fun e => !e.isNamed H slotId txnId
          revision := revision }
  | terminalAcked {txnId revision}
      (recorded : ∃ r ∈ old.recentTerminalResults, r.txnId = txnId)
      (bump : checkedAdd old.revision 1 = some revision) :
      Effect H old now (.terminalAcked txnId)
        { old with
          recentTerminalResults := ackTerminal old.recentTerminalResults txnId
          revision := revision }

/-- The shared checks, as facts about the old and the new record. -/
@[mk_iff] structure Respects (H : Hashes) (old new : MeshSignerControlRecordV1) (allowed : AllowedRemoval)
    (maxCap : ℕ) : Prop where
  /-- Identity and purpose never change. -/
  same : new.identity = old.identity ∧ new.purpose = old.purpose
  /-- Live generations are kept unchanged or dropped by permission. -/
  retained : ∀ g ∈ old.liveGenerations, retainedOrPermitted new allowed g = true
  /-- The current generation stays live unless everything was revoked. -/
  current : currentRetained old new allowed = true
  /-- The generation mark never moves down. -/
  generation_le : ¬ new.generationHighWater < old.generationHighWater
  /-- The epoch never moves down. -/
  epoch_le : ¬ new.epochHighWater < old.epochHighWater
  /-- Queue entries have distinct names. -/
  gc_names : (new.gcPending.map (·.slot.canonicalId H)).Nodup
  /-- Occupancy exceeds the cap only where it did not grow. -/
  cap : ¬ (maxCap < new.capOccupancy ∧ old.capOccupancy < new.capOccupancy)

/-- A terminal request that is recorded with the same fingerprint. -/
def Replays (old : MeshSignerControlRecordV1) (t : RecordTransition) : Prop :=
  ∃ txnId request e, t.terminalRequest = some (txnId, request) ∧
    old.recentTerminalResults.find? (·.txnId == txnId) = some e ∧ e.request = request

variable {H : Hashes} {old new : MeshSignerControlRecordV1} {now : UInt64} {t : RecordTransition}

theorem bumpRevision_eq_ok {out : MeshSignerControlRecordV1} :
    bumpRevision old new = .ok out ↔
      ∃ revision, checkedAdd old.revision 1 = some revision ∧
        out = { new with revision := revision } := by
  simp only [bumpRevision, eq_ok_iff, eq_comm (b := out)]

variable {txnId : TxnId}

theorem applyIntentRecorded_eq_ok {kind : PendingOpKind} {backend : BackendKind} :
    applyIntentRecorded H old txnId kind backend = .ok new ↔
      Effect H old now (.intentRecorded txnId kind backend) new := by
  simp only [applyIntentRecorded, eq_ok_iff, bumpRevision_eq_ok, Option.isNone_iff_eq_none]
  constructor
  · rintro ⟨hidle, hunused, hvalid, generation, hnext, hfree, revision, hbump, rfl⟩
    exact .intentRecorded hidle hunused hvalid hnext hfree hbump
  · intro h
    cases h with
    | intentRecorded hidle hunused hvalid hnext hfree hbump =>
      exact ⟨hidle, hunused, hvalid, _, hnext, hfree, _, hbump, rfl⟩
    | gcRewritten hrewrites => cases hrewrites

variable {token : WorkerToken}

theorem applyKeyObserved_eq_ok {binding : ExactBinding} :
    applyKeyObserved H old token binding = .ok new ↔
      Effect H old now (.keyObserved token binding) new := by
  simp only [applyKeyObserved, eq_ok_iff, bumpRevision_eq_ok]
  constructor
  · rintro ⟨hrev, p, hp, hphase, hmatch, hown, revision, hbump, rfl⟩
    exact .keyObserved hrev hp hphase hmatch hown hbump
  · intro h
    cases h with
    | keyObserved hrev hp hphase hmatch hown hbump =>
      exact ⟨hrev, _, hp, hphase, hmatch, hown, _, hbump, rfl⟩
    | gcRewritten hrewrites => cases hrewrites

theorem pendingMatchesToken_iff {p : PendingOp} :
    pendingMatchesToken H p token = true ↔
      p.txnId = token.expectedTxnId ∧ p.kind = token.expectedKind ∧
        p.generation = token.expectedGeneration ∧ p.epoch = token.expectedEpoch ∧
          p.purpose = token.expectedPurpose ∧
            p.canonicalSlot.canonicalId H = token.expectedSlotId := by
  simp only [pendingMatchesToken, Bool.and_eq_true, beq_iff_eq, and_assoc]

theorem applyActivateFromKeyObserved_eq_ok {delegation : Delegation}
    (hfresh : ∀ r ∈ old.recentTerminalResults, r.txnId ≠ token.expectedTxnId) :
    applyActivateFromKeyObserved H old token delegation now = .ok new ↔
      Effect H old now (.activateFromKeyObserved token delegation) new := by
  simp only [applyActivateFromKeyObserved, eq_ok_iff, bumpRevision_eq_ok, pushBoundedTerminal]
  constructor
  · rintro ⟨hrev, p, hp, hphase, hmatch, binding, hbinding, results, hpush, revision, hbump, rfl⟩
    have hunused : ∀ r ∈ old.recentTerminalResults, r.txnId ≠ p.txnId := by
      rw [(pendingMatchesToken_iff.mp hmatch).1]
      exact hfresh
    obtain ⟨kept, hroom, rfl⟩ := (pushBoundedTerminalImpl_eq_ok hunused).mp hpush
    exact .activateFromKeyObserved hrev hp hphase hmatch hbinding hunused hroom hbump
  · intro h
    cases h with
    | activateFromKeyObserved hrev hp hphase hmatch hbinding hunused hroom hbump =>
      exact ⟨hrev, _, hp, hphase, hmatch, _, hbinding, _,
        (pushBoundedTerminalImpl_eq_ok hunused).mpr ⟨_, hroom, rfl⟩, _, hbump, rfl⟩
    | gcRewritten hrewrites => cases hrewrites

theorem applyRevokeUrgent_eq_ok {reason : RevocationReason}
    (hfresh : ∀ r ∈ old.recentTerminalResults, r.txnId ≠ txnId) :
    applyRevokeUrgent old reason txnId now = .ok new ↔
      Effect H old now (.revokeUrgent reason txnId) new := by
  simp only [applyRevokeUrgent, eq_ok_iff, bumpRevision_eq_ok, pushBoundedTerminalUrgent]
  constructor
  · rintro ⟨epoch, hepoch, results, hpush, revision, hbump, rfl⟩
    obtain ⟨kept, hroom, rfl⟩ := (pushBoundedTerminalImpl_eq_ok hfresh).mp hpush
    exact .revokeUrgent hepoch hfresh hroom hbump
  · intro h
    cases h with
    | revokeUrgent hepoch hunused hroom hbump =>
      exact ⟨_, hepoch, _, (pushBoundedTerminalImpl_eq_ok hunused).mpr ⟨_, hroom, rfl⟩, _, hbump,
        rfl⟩
    | gcRewritten hrewrites => cases hrewrites

theorem applyReactivateFromRevoked_eq_ok {nextTxnId : TxnId} {backend : BackendKind}
    (hfresh : ∀ r ∈ old.recentTerminalResults, r.txnId ≠ txnId) :
    applyReactivateFromRevoked H old txnId nextTxnId backend now = .ok new ↔
      Effect H old now (.reactivateFromRevoked txnId nextTxnId backend) new := by
  simp only [applyReactivateFromRevoked, eq_ok_iff, bumpRevision_eq_ok, pushBoundedTerminal,
    Option.isNone_iff_eq_none]
  constructor
  · rintro ⟨hrevoked, hidle, hnext, epoch, hepoch, generation, hgen, hfree, results, hpush,
      revision, hbump, rfl⟩
    obtain ⟨kept, hroom, rfl⟩ := (pushBoundedTerminalImpl_eq_ok hfresh).mp hpush
    exact .reactivateFromRevoked hrevoked hidle hnext hepoch hgen hfree hfresh hroom hbump
  · intro h
    cases h with
    | reactivateFromRevoked hrevoked hidle hnext hepoch hgen hfree hunused hroom hbump =>
      exact ⟨hrevoked, hidle, hnext, _, hepoch, _, hgen, hfree, _,
        (pushBoundedTerminalImpl_eq_ok hunused).mpr ⟨_, hroom, rfl⟩, _, hbump, rfl⟩
    | gcRewritten hrewrites => cases hrewrites

theorem applyGenerationExpired_eq_ok {generation : NonZeroU64} :
    applyGenerationExpired old generation now = .ok new ↔
      Effect H old now (.generationExpired generation) new := by
  simp only [applyGenerationExpired, eq_ok_iff, bumpRevision_eq_ok]
  constructor
  · rintro ⟨hcurrent, g, hlive, hexpired, revision, hbump, rfl⟩
    exact .generationExpired hcurrent hlive hexpired hbump
  · intro h
    cases h with
    | generationExpired hcurrent hlive hexpired hbump =>
      exact ⟨hcurrent, _, hlive, hexpired, _, hbump, rfl⟩
    | gcRewritten hrewrites => cases hrewrites

theorem applyToGcEntry_eq_ok {slotId : String}
    {f : GcEntry → Except TransitionError GcEntry} (ht : t.gcRewrite = some (slotId, f)) :
    applyToGcEntry H old slotId f = .ok new ↔ Effect H old now t new := by
  simp only [applyToGcEntry, bind_eq_ok, bumpRevision_eq_ok, updateFirst_eq_ok]
  constructor
  · rintro ⟨entries, ⟨before, e, e', after, hsplit, rfl, hskip, hnamed, hf⟩, revision, hbump, rfl⟩
    exact .gcRewritten ht hsplit hskip (by simpa using hnamed) hf hbump
  · intro h
    cases h with
    | gcRewritten ht' hsplit hskip hnamed hf hbump =>
      obtain ⟨rfl, rfl⟩ := Prod.mk.inj (Option.some.inj (ht.symm.trans ht'))
      exact ⟨_, ⟨_, _, _, _, hsplit, rfl, hskip, by simpa using hnamed, hf⟩, _, hbump, rfl⟩
    | _ => cases ht

theorem applyGcRemoval_eq_ok {slotId : String} :
    applyGcRemoval H old slotId txnId = .ok new ↔
      Effect H old now (.gcRemoval slotId txnId) new := by
  simp only [applyGcRemoval, eq_ok_iff, bumpRevision_eq_ok]
  constructor
  · rintro ⟨e, hfound, hresolved, revision, hbump, rfl⟩
    exact .gcRemoval hfound hresolved hbump
  · intro h
    cases h with
    | gcRemoval hfound hresolved hbump => exact ⟨_, hfound, hresolved, _, hbump, rfl⟩
    | gcRewritten hrewrites => cases hrewrites

theorem applyTerminalAcked_eq_ok :
    applyTerminalAcked old txnId = .ok new ↔ Effect H old now (.terminalAcked txnId) new := by
  simp only [applyTerminalAcked, eq_ok_iff, bumpRevision_eq_ok]
  constructor
  · rintro ⟨hrecorded, revision, hbump, rfl⟩
    exact .terminalAcked hrecorded hbump
  · intro h
    cases h with
    | terminalAcked hrecorded hbump => exact ⟨hrecorded, _, hbump, rfl⟩
    | gcRewritten hrewrites => cases hrewrites

theorem applyArm_eq_ok
    (hfresh : ∀ txnId request, t.terminalRequest = some (txnId, request) →
      ∀ r ∈ old.recentTerminalResults, r.txnId ≠ txnId) :
    applyArm H old t now = .ok new ↔ Effect H old now t new := by
  cases t with
  | stabilizationRewrite =>
    simp only [applyArm, Except.ok.injEq]
    constructor
    · rintro rfl
      exact .stabilizationRewrite
    · intro h
      cases h with
      | stabilizationRewrite => rfl
      | gcRewritten hrewrites => cases hrewrites
  | intentRecorded => exact applyIntentRecorded_eq_ok
  | keyObserved => exact applyKeyObserved_eq_ok
  | activateFromKeyObserved => exact applyActivateFromKeyObserved_eq_ok (hfresh _ _ rfl)
  | revokeUrgent => exact applyRevokeUrgent_eq_ok (hfresh _ _ rfl)
  | reactivateFromRevoked => exact applyReactivateFromRevoked_eq_ok (hfresh _ _ rfl)
  | generationExpired => exact applyGenerationExpired_eq_ok
  | gcInspected | gcInspectionConflict | gcResolved => exact applyToGcEntry_eq_ok rfl
  | gcRemoval => exact applyGcRemoval_eq_ok
  | terminalAcked => exact applyTerminalAcked_eq_ok

variable {request : TerminalRequestFingerprint}

/-- The effect of a terminal transition starts from a record without its transaction. -/
theorem Effect.unrecorded (h : Effect H old now t new)
    (ht : t.terminalRequest = some (txnId, request)) :
    ∀ r ∈ old.recentTerminalResults, r.txnId ≠ txnId := by
  cases h with
  | activateFromKeyObserved hrev hp hphase hmatch hbinding hunused hroom hbump =>
    cases ht
    rw [← (pendingMatchesToken_iff.mp hmatch).1]
    exact hunused
  | revokeUrgent hepoch hunused hroom hbump
  | reactivateFromRevoked hrevoked hidle hnext hepoch hgen hfree hunused hroom hbump =>
    cases ht
    exact hunused
  | gcRewritten hrewrites => cases t <;> cases ht <;> cases hrewrites
  | _ => cases ht

/-- A terminal request is answered from the recorded results exactly when its
transaction is recorded: unchanged for the same request, refused for another one. -/
theorem idempotentReplay_eq (ht : t.terminalRequest = some (txnId, request)) :
    idempotentReplay old t =
      (old.recentTerminalResults.find? (·.txnId == txnId)).map fun e =>
        if e.request = request then .ok old else .error .terminalTxnReused := by
  simp only [idempotentReplay, ht, Option.bind_eq_bind, Option.bind_some]
  cases old.recentTerminalResults.find? (·.txnId == txnId) with
  | none => rfl
  | some e =>
    by_cases he : e.request = request
    · simp [he]
    · simp [he]

theorem idempotentReplay_eq_none :
    idempotentReplay old t = none ↔
      ∀ txnId request, t.terminalRequest = some (txnId, request) →
        ∀ r ∈ old.recentTerminalResults, r.txnId ≠ txnId := by
  cases ht : t.terminalRequest with
  | none => simp [idempotentReplay, ht]
  | some req =>
    obtain ⟨txnId, request⟩ := req
    rw [idempotentReplay_eq ht]
    simp [List.find?_eq_none]

theorem idempotentReplay_eq_some_ok :
    idempotentReplay old t = some (.ok new) ↔ Replays old t ∧ new = old := by
  cases ht : t.terminalRequest with
  | none => simp [idempotentReplay, Replays, ht]
  | some req =>
    obtain ⟨txnId, request⟩ := req
    rw [idempotentReplay_eq ht]
    constructor
    · intro h
      obtain ⟨e, he, hok⟩ := Option.map_eq_some_iff.mp h
      split at hok
      · rename_i hreq
        exact ⟨⟨txnId, request, e, ht, he, hreq⟩, (Except.ok.inj hok).symm⟩
      · cases hok
    · rintro ⟨⟨txnId', request', e, ht', he, hreq⟩, rfl⟩
      rw [ht] at ht'
      cases ht'
      rw [he, Option.map_some, if_pos hreq]

theorem validateSharedInvariants_eq_ok {allowed : AllowedRemoval} {maxCap : ℕ} {u : Unit} :
    validateSharedInvariants H old new allowed maxCap = .ok u ↔
      Respects H old new allowed maxCap := by
  simp only [validateSharedInvariants, eq_ok_iff, respects_iff]

/-- A transition succeeds exactly as a replay, which changes nothing, or as an
effect that respects the shared checks. -/
theorem apply_eq_ok {maxCap : ℕ} :
    apply H old t now maxCap = .ok new ↔
      Replays old t ∧ new = old ∨
        Effect H old now t new ∧ Respects H old new t.allowedRemoval maxCap := by
  unfold apply
  cases hreplay : idempotentReplay old t with
  | some result =>
    have hrecorded : ∀ {new'}, ¬ Effect H old now t new' := by
      intro new' heffect
      have hnone := idempotentReplay_eq_none.mpr fun _ _ => heffect.unrecorded
      rw [hreplay] at hnone
      cases hnone
    constructor
    · rintro rfl
      exact Or.inl (idempotentReplay_eq_some_ok.mp hreplay)
    · rintro (h | ⟨h, _⟩)
      · exact Option.some.inj (hreplay.symm.trans (idempotentReplay_eq_some_ok.mpr h))
      · exact absurd h hrecorded
  | none =>
    have hfresh := idempotentReplay_eq_none.mp hreplay
    have hnoReplay : ¬ Replays old t := by
      intro h
      have hsome := idempotentReplay_eq_some_ok.mpr ⟨h, rfl⟩
      rw [hreplay] at hsome
      cases hsome
    simp only [eq_ok_iff, applyArm_eq_ok hfresh, validateSharedInvariants_eq_ok]
    grind

end Theyos.MeshControl

import Theyos.Models.MeshControl.Run.Fencing

/-!
# Urgent revocation cannot be blocked

The revocation shares every final check with the other transitions. In a reached
record none of them can refuse it: retention makes room by force, the occupancy
stays the same, and the queued names are distinct because all slots are.
-/

namespace Theyos.MeshControl

open MeshSignerControlRecordV1 Machine

variable {H : Hashes} {identity : ControlIdentity} {purpose : PurposeId}
  {old new r : MeshSignerControlRecordV1}

section

variable (r : MeshSignerControlRecordV1)

/-- The entries a revocation queues: one for the operation in flight, one per live generation. -/
def MeshSignerControlRecordV1.revokedEntries : List GcEntry :=
  r.pendingOp.toList.map PendingOp.gcEntry ++ r.liveGenerations.map GenerationRecord.gcEntry

theorem gcEntry_unresolved (p : PendingOp) :
    p.gcEntry.observationCompleteAndResidualZero = false := by
  unfold PendingOp.gcEntry
  cases p.binding <;> rfl

/-- Every entry a revocation queues is unresolved. -/
theorem revokedEntries_unresolved :
    ∀ e ∈ r.revokedEntries, e.observationCompleteAndResidualZero = false := by
  intro e he
  rcases List.mem_append.mp he with he | he
  · obtain ⟨p, _, rfl⟩ := List.mem_map.mp he
    exact gcEntry_unresolved p
  · obtain ⟨g, _, rfl⟩ := List.mem_map.mp he
    rfl

/-- The entries a revocation queues track the slots that were pending and live. -/
theorem revokedEntries_slots : r.revokedEntries.map (·.slot) =
      r.pendingOp.toList.map (·.canonicalSlot) ++ r.liveGenerations.map (·.binding.slot) := by
  rw [revokedEntries, List.map_append, List.map_map, List.map_map]
  congr 1
  refine List.map_congr_left fun p _ => ?_
  simp only [Function.comp_apply, PendingOp.gcEntry]
  cases p.binding <;> rfl

end

/-- Queueing everything keeps the occupancy. -/
theorem capOccupancy_revoked (hlive : new.liveGenerations = [])
    (hpending : new.pendingOp = none)
    (hgc : new.gcPending = old.gcPending ++ old.revokedEntries) :
    new.capOccupancy = old.capOccupancy := by
  have hcount : old.revokedEntries.countP (fun e => !e.observationCompleteAndResidualZero) =
      old.pendingOp.isSome.toNat + old.liveGenerations.length := by
    rw [List.countP_eq_length.mpr]
    · rw [revokedEntries, List.length_append, List.length_map, List.length_map]
      cases old.pendingOp <;> rfl
    · intro e he
      rw [revokedEntries_unresolved old e he]
      rfl
  simp only [capOccupancy, hlive, hpending, hgc, List.countP_append, hcount, List.length_nil,
    Option.isSome_none, Bool.toNat_false]
  omega

theorem gc_names_revoked (hw : Wellformed H old)
    (hcf : H.CollisionFree old.identity old.purpose) :
    ((old.gcPending ++ old.revokedEntries).map (·.slot.canonicalId H)).Nodup := by
  have hnames := hw.names_nodup hcf
  have hentries : old.revokedEntries.map (·.slot.canonicalId H) =
      (old.pendingOp.toList.map fun p => p.canonicalSlot.canonicalId H) ++
        old.liveGenerations.map fun g => g.binding.slot.canonicalId H := by
    have hslots := congrArg (List.map (SlotId.canonicalId H)) (revokedEntries_slots old)
    rw [List.map_append, List.map_map, List.map_map, List.map_map] at hslots
    exact hslots
  rw [List.map_append, hentries, ← List.append_assoc]
  rw [slotNames, List.append_assoc] at hnames
  exact List.perm_append_comm.nodup_iff.mp hnames

/-- The shared checks pass for every revocation of a well-formed record. -/
theorem respects_revoked {maxCap : ℕ} (hw : Wellformed H old)
    (hcf : H.CollisionFree old.identity old.purpose) (hi : new.identity = old.identity)
    (hp : new.purpose = old.purpose) (hlive : new.liveGenerations = [])
    (hcurrent : new.currentGeneration = none) (hpending : new.pendingOp = none)
    (hgen : new.generationHighWater = old.generationHighWater)
    (hepoch : old.epochHighWater.toNat ≤ new.epochHighWater.toNat)
    (hgc : new.gcPending = old.gcPending ++ old.revokedEntries) :
    Respects H old new .allLive maxCap where
  same := ⟨hi, hp⟩
  retained g _ := by simp [retainedOrPermitted, hlive, AllowedRemoval.permits]
  current := by
    unfold currentRetained
    cases old.currentGeneration with
    | none => rfl
    | some cur => simp [hlive, hcurrent]
  generation_le := by
    rw [hgen, NonZeroU64.lt_iff]
    omega
  epoch_le := by
    rw [NonZeroU64.lt_iff]
    omega
  gc_names := by
    rw [hgc]
    exact gc_names_revoked hw hcf
  cap := by
    rw [capOccupancy_revoked hlive hpending hgc]
    omega

/-- In every reached record an urgent revocation under a new transaction succeeds,
whatever the cap, unless the epoch or the revision is at its end. Everything pending
or live is queued once, unresolved, and the occupancy stays the same. -/
theorem revokeUrgent_unblocked (hcf : H.CollisionFree identity purpose)
    (hr : Reached H identity purpose r) (reason : RevocationReason) {txnId : TxnId}
    (hunused : ∀ e ∈ r.recentTerminalResults, e.txnId ≠ txnId) (now : UInt64) (maxCap : ℕ)
    (hepoch : r.epochHighWater.get ≠ maxU64) (hrevision : r.revision ≠ maxU64) :
    ∃ new, apply H r (.revokeUrgent reason txnId) now maxCap = .ok new ∧
      new.authority = .revoked reason ∧ new.pendingOp = none ∧ new.liveGenerations = [] ∧
        new.currentGeneration = none ∧ new.capOccupancy = r.capOccupancy ∧
          ∃ entries, new.gcPending = r.gcPending ++ entries ∧
            (∀ e ∈ entries, e.observationCompleteAndResidualZero = false) ∧
              entries.map (·.slot) = r.pendingOp.toList.map (·.canonicalSlot) ++
                r.liveGenerations.map (·.binding.slot) := by
  have hw := hr.wellformed
  obtain ⟨hi, hp⟩ := hr.same
  rw [← hi, ← hp] at hcf
  obtain ⟨revision, hbump, _⟩ := checkedAdd_one_of_ne hrevision
  obtain ⟨kept, hroom⟩ := MakesRoom.exists_of_force r.recentTerminalResults
  cases hnext : r.epochHighWater.checkedAdd 1 with
  | none => exact absurd (NonZeroU64.checkedAdd_one_eq_none.mp hnext) hepoch
  | some epoch =>
    have hle := NonZeroU64.checkedAdd_one_eq_some.mp hnext
    have heffect : Effect H r now (.revokeUrgent reason txnId) _ :=
      .revokeUrgent hnext hunused hroom hbump
    rw [List.append_assoc] at heffect
    refine ⟨_, apply_eq_ok.mpr (Or.inr ⟨heffect, ?_⟩), rfl, rfl, rfl, rfl, ?_, r.revokedEntries,
      rfl, revokedEntries_unresolved r, revokedEntries_slots r⟩
    · refine respects_revoked hw hcf rfl rfl rfl rfl rfl rfl ?_ rfl
      exact (Nat.le_succ _).trans_eq hle.symm
    · exact capOccupancy_revoked rfl rfl rfl

/-- Revocation of a live generation with an operation in flight, under a cap of zero. -/
theorem revokeUrgent_unblocked_rotation :
    ∃ new, apply fieldHashes (run (submit fieldHashes) (bootstrap smallIdentity .meshSession)
        [creation, observation, activation,
          (RecordTransition.intentRecorded (repeatedTxn 2) .routineRotate .file).submission])
        (.revokeUrgent .compromised (repeatedTxn 3)) 5 0 = .ok new ∧
      new.capOccupancy = 2 := by
  have hreach : Reached fieldHashes smallIdentity .meshSession _ :=
    ⟨[creation, observation, activation,
      (RecordTransition.intentRecorded (repeatedTxn 2) .routineRotate .file).submission], rfl⟩
  obtain ⟨new, hok, _, _, _, _, hcap, _⟩ := revokeUrgent_unblocked (fieldHashes_collisionFree _)
    hreach .compromised (by decide +kernel : ∀ e : TerminalResult, e ∈ _ → e.txnId ≠ repeatedTxn 3)
    5 0 (by decide +kernel) (by decide +kernel)
  refine ⟨new, hok, ?_⟩
  rw [hcap]
  decide +kernel

end Theyos.MeshControl

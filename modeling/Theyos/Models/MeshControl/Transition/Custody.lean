import Theyos.Models.MeshControl.Record.Wellformed
import Theyos.Models.MeshControl.Transition.Effect

/-!
# Transitions as custody actions

Every effect on a well-formed record is one action of the custody ledger: an
intent or a reactivation assigns a slot above the mark, an activation promotes
it, an urgent revocation retires everything, an expiry retires one live slot, a
removal discards one resolved entry, and all other transitions leave custody as
it is.
-/

namespace Theyos.MeshControl

open MeshSignerControlRecordV1 Machine

variable {H : Hashes} {old new : MeshSignerControlRecordV1} {now : UInt64} {t : RecordTransition}

/-- The custody action behind a transition. -/
structure CustodyStep (H : Hashes) (old new : MeshSignerControlRecordV1) (t : RecordTransition)
    (act : Ledger.Act SlotId) : Prop where
  /-- The ledger takes that action. -/
  step : Ledger.Step SlotId.rank old.custody act new.custody
  /-- An assigned slot is the slot of the new operation, and one of the record's own. -/
  assigned : ∀ k, act = .assign k →
    (∃ p, new.pendingOp = some p ∧ p.canonicalSlot = k) ∧
      k ∈ OwnSlots (identityDigest H old.identity) old.purpose
  /-- A discarded slot was named by a removal and held by a resolved entry. -/
  discarded : ∀ k, act = .discard k → ∃ e ∈ old.gcPending, e.slot = k ∧
    e.observationCompleteAndResidualZero = true ∧ t = .gcRemoval (k.canonicalId H) e.txnId

variable {generation : NonZeroU64}

theorem deriveNextGeneration_eq_ok :
    deriveNextGeneration old = .ok generation ↔
      old.authority = .empty ∧ generation = .one ∨
        old.authority ≠ .empty ∧ generation.toNat = old.generationHighWater.toNat + 1 := by
  unfold deriveNextGeneration
  cases old.authority <;>
    simp [okOr_eq_ok, NonZeroU64.checkedAdd_one_eq_some, eq_comm (b := generation)]

/-- A derived generation lies above everything in custody. -/
theorem custody_mark_lt (hidle : old.pendingOp = none)
    (h : deriveNextGeneration old = .ok generation) :
    old.custody.mark < generation.toNat := by
  rcases deriveNextGeneration_eq_ok.mp h with ⟨hempty, rfl⟩ | ⟨hne, hg⟩
  · simp [custody, hempty, hidle]
  · have := custody_mark_le old
    omega

variable {e : GcEntry}

/-- The entries whose state only an administrator can change. -/
def GcEntry.isStuck : GcEntry → Bool
  | .bound _ _ _ .quarantine | .inspectionConflict _ _ => true
  | _ => false

/-- Rewriting an entry keeps its slot and transaction, and no stuck entry is rewritten. -/
theorem gcRewrite_keeps {slotId : String} {f : GcEntry → Except TransitionError GcEntry}
    {e' : GcEntry} (ht : t.gcRewrite = some (slotId, f)) (h : f e = .ok e') :
    e'.slot = e.slot ∧ e'.txnId = e.txnId ∧ e.isStuck = false := by
  cases t with
  | gcInspected _ found =>
    cases ht
    cases e <;> cases found <;> cases h <;> exact ⟨rfl, rfl, rfl⟩
  | gcInspectionConflict _ =>
    cases ht
    cases e <;> cases h <;> exact ⟨rfl, rfl, rfl⟩
  | gcResolved _ z q =>
    cases ht
    cases e with
    | bound slot txnId b state => cases state <;> cases h <;> exact ⟨rfl, rfl, rfl⟩
    | _ => cases h
  | _ => cases ht

variable {revision : UInt64}

theorem custody_assign (hidle : old.pendingOp = none)
    (h : deriveNextGeneration old = .ok generation) {txnId : TxnId} {kind : PendingOpKind}
    {epoch epoch' : NonZeroU64} {backend : BackendKind} {results : List TerminalResult} :
    CustodyStep H old
      { old with
        epochHighWater := epoch'
        generationHighWater := generation
        pendingOp := some (newPendingOp H old txnId kind generation epoch backend)
        recentTerminalResults := results
        revision := revision } t
      (.assign (old.derivedSlot H generation txnId backend)) where
  step := by
    have hstep : Ledger.Step SlotId.rank old.custody _ _ := .assign
      (old.derivedSlot H generation txnId backend)
      (by simp [custody, hidle]) (custody_mark_lt hidle h)
    convert hstep using 1
    ext1
    · rfl
    · rfl
    · rfl
    · simp [custody, SlotId.rank, derivedSlot]
  assigned k hk := by
    cases hk
    exact ⟨⟨_, rfl, rfl⟩, rfl, rfl⟩
  discarded k hk := by cases hk

theorem custody_idle (h : new.custody = old.custody) : CustodyStep H old new t .idle where
  step := by
    rw [h]
    exact .idle
  assigned k hk := by cases hk
  discarded k hk := by cases hk

theorem custody_promote (hw : Wellformed H old) {p : PendingOp} {binding : ExactBinding}
    (hp : old.pendingOp = some p) (hb : p.binding = some binding)
    (hpending : new.pendingOp = none) (hactive : new.authority = .active)
    (hlive : new.liveGenerations.map (·.binding.slot) =
      old.liveGenerations.map (·.binding.slot) ++ [binding.slot])
    (hgc : new.gcPending = old.gcPending)
    (hmark : new.generationHighWater = old.generationHighWater) :
    CustodyStep H old new t (.promote p.canonicalSlot) where
  step := by
    have hstep : Ledger.Step SlotId.rank old.custody _ _ := .promote p.canonicalSlot
      (by simp [custody, hp])
    convert hstep using 1
    ext1
    · simp [custody, hpending]
    · simp only [custody, hlive, (hw.pending p hp).binding binding hb]
    · simp only [custody, hgc]
    · simp [custody, hactive, hp, hmark]
  assigned k hk := by cases hk
  discarded k hk := by cases hk

theorem gcEntry_slot (p : PendingOp) : p.gcEntry.slot = p.canonicalSlot := by
  unfold PendingOp.gcEntry
  cases p.binding <;> rfl

theorem custody_revoke {reason : RevocationReason}
    (hpending : new.pendingOp = none) (hrevoked : new.authority = .revoked reason)
    (hlive : new.liveGenerations = [])
    (hgc : new.gcPending = old.gcPending ++ old.pendingOp.toList.map PendingOp.gcEntry ++
      old.liveGenerations.map GenerationRecord.gcEntry)
    (hmark : new.generationHighWater = old.generationHighWater) :
    CustodyStep H old new t .revoke where
  step := by
    have hstep : Ledger.Step SlotId.rank old.custody _ _ := .revoke
      old.generationHighWater.toNat (custody_mark_le old)
    convert hstep using 1
    ext1
    · simp [custody, hpending]
    · simp [custody, hlive]
    · simp only [custody, hgc, List.map_append, List.map_map, Option.toList_map]
      congr 2
      exact List.map_congr_left fun p _ => gcEntry_slot p
    · simp [custody, hrevoked, hmark]
  assigned k hk := by cases hk
  discarded k hk := by cases hk

section

variable (hw : Wellformed H old)

include hw

theorem live_filter {g : GenerationRecord} (hg : g ∈ old.liveGenerations) :
    (old.liveGenerations.filter (·.generation ≠ g.generation)).map (·.binding.slot) =
      (old.liveGenerations.map (·.binding.slot)).filter (· ≠ g.binding.slot) := by
  rw [List.filter_map]
  congr 1
  refine List.filter_congr fun x hx => ?_
  have hiff : x.generation = g.generation ↔ x.binding.slot = g.binding.slot := by
    rw [← hw.live_generation x hx, ← hw.live_generation g hg]
    refine ⟨?_, congrArg _⟩
    intro heq
    exact hw.custody.rank_inj (mem_custody_keys.mpr (Or.inr (Or.inl ⟨x, hx, rfl⟩)))
      (mem_custody_keys.mpr (Or.inr (Or.inl ⟨g, hg, rfl⟩))) (congrArg NonZeroU64.toNat heq)
  simp [hiff]

theorem custody_expire {g : GenerationRecord} (hg : g ∈ old.liveGenerations) :
    CustodyStep H old
      { old with
        gcPending := old.gcPending ++ [g.gcEntry]
        liveGenerations := old.liveGenerations.filter (·.generation ≠ g.generation)
        revision := revision } t
      (.expire g.binding.slot) where
  step := by
    have hstep : Ledger.Step SlotId.rank old.custody _ _ := .expire g.binding.slot
      (List.mem_map.mpr ⟨g, hg, rfl⟩)
    convert hstep using 1
    ext1
    · rfl
    · exact live_filter hw hg
    · simp [custody, GenerationRecord.gcEntry, GcEntry.slot]
    · rfl
  assigned k hk := by cases hk
  discarded k hk := by cases hk

/-- A name in the queue belongs to one entry. -/
theorem Wellformed.gcEntry_ext {e' : GcEntry} (he : e ∈ old.gcPending)
    (he' : e' ∈ old.gcPending) (h : e.slot.canonicalId H = e'.slot.canonicalId H) : e = e' :=
  List.inj_on_of_nodup_map hw.gc_names he he' h

theorem gc_filter (he : e ∈ old.gcPending) :
    (old.gcPending.filter fun x => !x.isNamed H (e.slot.canonicalId H) e.txnId).map (·.slot) =
      (old.gcPending.map (·.slot)).filter (· ≠ e.slot) := by
  rw [List.filter_map]
  congr 1
  refine List.filter_congr fun x hx => ?_
  have hiff : x.isNamed H (e.slot.canonicalId H) e.txnId = true ↔ x.slot = e.slot := by
    simp only [GcEntry.isNamed, Bool.and_eq_true, beq_iff_eq]
    constructor
    · rintro ⟨hname, _⟩
      rw [hw.gcEntry_ext hx he hname]
    · intro hslot
      have hxe := hw.gcEntry_ext hx he (congrArg _ hslot)
      exact ⟨congrArg _ hslot, congrArg _ hxe⟩
  by_cases hx : x.slot = e.slot
  · simp [hiff.mpr hx, hx]
  · simp [Bool.eq_false_iff.mpr (fun h => hx (hiff.mp h)), hx]

theorem custody_discard (he : e ∈ old.gcPending)
    (hresolved : e.observationCompleteAndResidualZero = true) :
    CustodyStep H old
      { old with
        gcPending := old.gcPending.filter fun x =>
          !x.isNamed H (e.slot.canonicalId H) e.txnId
        revision := revision }
      (.gcRemoval (e.slot.canonicalId H) e.txnId) (.discard e.slot) where
  step := by
    have hstep : Ledger.Step SlotId.rank old.custody _ _ := .discard e.slot
      (List.mem_map.mpr ⟨e, he, rfl⟩)
    convert hstep using 1
    ext1
    · rfl
    · rfl
    · exact gc_filter hw he
    · rfl
  assigned k hk := by cases hk
  discarded k hk := by
    cases hk
    exact ⟨e, he, rfl, hresolved, rfl⟩

/-- Every effect is one custody action. -/
theorem Effect.custodyStep (h : Effect H old now t new) : ∃ act, CustodyStep H old new t act := by
  cases h with
  | stabilizationRewrite | terminalAcked => exact ⟨_, custody_idle rfl⟩
  | intentRecorded hidle _ _ hnext _ _
  | reactivateFromRevoked _ hidle _ _ hnext _ _ _ _ => exact ⟨_, custody_assign hidle hnext⟩
  | keyObserved _ hp _ _ _ _ =>
    refine ⟨_, custody_idle ?_⟩
    simp [custody, hp]
  | @activateFromKeyObserved _ _ p binding _ _ _ hp _ _ hb _ _ _ =>
    refine ⟨_, custody_promote hw hp hb rfl rfl ?_ rfl (if_neg ?_)⟩
    · rw [List.map_append]
      rfl
    · have := NonZeroU64.le_iff.mp (hw.pending p hp).bound
      rw [NonZeroU64.lt_iff]
      omega
  | revokeUrgent => exact ⟨_, custody_revoke rfl rfl rfl rfl rfl⟩
  | @generationExpired _ g _ _ hlive _ _ =>
    have hg := List.mem_of_find?_eq_some hlive
    have hn := List.find?_some hlive
    simp only [beq_iff_eq] at hn
    subst hn
    exact ⟨_, custody_expire hw hg⟩
  | @gcRewritten _ _ _ before after e e' _ hrewrites hsplit _ _ hf _ =>
    refine ⟨_, custody_idle ?_⟩
    simp [custody, hsplit, (gcRewrite_keeps hrewrites hf).1]
  | @gcRemoval slotId txnId e _ hfound hresolved _ =>
    have he := List.mem_of_find?_eq_some hfound
    have hn := List.find?_some hfound
    simp only [GcEntry.isNamed, Bool.and_eq_true, beq_iff_eq] at hn
    obtain ⟨rfl, rfl⟩ := hn
    exact ⟨_, custody_discard hw he hresolved⟩

end

end Theyos.MeshControl

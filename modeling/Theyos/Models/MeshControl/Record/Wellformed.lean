import Theyos.Core.Custody.Ledger
import Theyos.Models.MeshControl.Record.Invariant

/-!
# The inductive invariant of the control record

`Wellformed` is stronger than the loader's predicate in what it remembers of the past: slots are
numbered once, a pristine record is empty, and the revision stays ahead of the epoch. It needs no
assumption on the digest functions.
-/

namespace Theyos.MeshControl

open MeshSignerControlRecordV1

/-- The rank of a slot in custody: its generation. -/
def SlotId.rank (s : SlotId) : ℕ := s.generation.toNat

variable (r : MeshSignerControlRecordV1)

/-- The custody ledger behind a record. -/
def MeshSignerControlRecordV1.custody : Ledger SlotId where
  pending := r.pendingOp.map (·.canonicalSlot)
  live := r.liveGenerations.map (·.binding.slot)
  retired := r.gcPending.map (·.slot)
  mark := if r.authority = .empty ∧ r.pendingOp = none then 0 else r.generationHighWater.toNat

/-- How many revisions the record has spent on the operation that activated it, or is about to. -/
def MeshSignerControlRecordV1.revisionLead : ℕ :=
  if r.authority = .active then 2
  else if r.pendingOp.any fun p => decide (p.phase = .keyObserved) then 1 else 0

/-- A record that was never revoked nor activated holds nothing but its operation in flight. -/
structure Pristine : Prop where
  /-- Nothing is live. -/
  live : r.liveGenerations = []
  /-- Nothing is queued. -/
  gc : r.gcPending = []
  /-- Nothing is recorded. -/
  results : r.recentTerminalResults = []
  /-- The first generation is the only one reserved. -/
  generation : r.generationHighWater = .one
  /-- The first epoch holds. -/
  epoch : r.epochHighWater = .one

/-- What the recorded terminal results satisfy. -/
structure TerminalInvariants (results : List TerminalResult) : Prop where
  /-- Retention is bounded. -/
  length : results.length ≤ maxRecentTerminalResults
  /-- Recorded transactions are distinct. -/
  nodup : (results.map (·.txnId)).Nodup
  /-- Recorded outcomes have the shape of their requests. -/
  consistent : ∀ t ∈ results, t.consistent = true

/-- The inductive invariant. -/
structure Wellformed (H : Hashes) (r : MeshSignerControlRecordV1) : Prop where
  /-- Active records, and only those, have a current generation. -/
  active : r.authority = .active ↔ r.currentGeneration.isSome
  /-- The current generation is live. -/
  current : ∀ cur, r.currentGeneration = some cur → ∃ g ∈ r.liveGenerations, g.generation = cur
  /-- An empty authority means a pristine record. -/
  pristine : r.authority = .empty → Pristine r
  /-- Every slot is held once, under its own number. -/
  custody : r.custody.Sound SlotId.rank
  /-- Every slot is one of this record's own. -/
  own : ∀ s ∈ r.custody.keys, s ∈ OwnSlots (identityDigest H r.identity) r.purpose
  /-- Live generations are bound under their own number. -/
  live_generation : ∀ g ∈ r.liveGenerations, g.binding.slot.generation = g.generation
  /-- The operation in flight satisfies its clauses. -/
  pending : ∀ p, r.pendingOp = some p → PendingInvariants H r p
  /-- Entries carry the transaction of their slot. -/
  gc_txn : ∀ e ∈ r.gcPending, e.txnId = e.slot.txnId
  /-- Entries have distinct names. -/
  gc_names : (r.gcPending.map (·.slot.canonicalId H)).Nodup
  /-- The recorded results satisfy their clauses. -/
  terminal : TerminalInvariants r.recentTerminalResults
  /-- The revision stays ahead of the epoch. -/
  lead : r.epochHighWater.toNat + r.revisionLead ≤ r.revision.toNat + 1

/-- Every bound entry holds a binding for its own slot. -/
def GcBindingsOwn (r : MeshSignerControlRecordV1) : Prop :=
  ∀ e ∈ r.gcPending, e.bindingOwnSlot = true

variable {H : Hashes} {r : MeshSignerControlRecordV1}

theorem custody_mark_le (r : MeshSignerControlRecordV1) :
    r.custody.mark ≤ r.generationHighWater.toNat := by
  simp only [custody]
  split
  · exact Nat.zero_le _
  · exact le_rfl

theorem mem_custody_keys {s : SlotId} :
    s ∈ r.custody.keys ↔ (∃ p, r.pendingOp = some p ∧ p.canonicalSlot = s) ∨
      (∃ g ∈ r.liveGenerations, g.binding.slot = s) ∨ ∃ e ∈ r.gcPending, e.slot = s := by
  simp only [Ledger.mem_keys, custody, Option.map_eq_some_iff, List.mem_map]

/-- No slot of a well-formed record lies above the high-water mark. -/
theorem Wellformed.generation_le (h : Wellformed H r) {s : SlotId} (hs : s ∈ r.custody.keys) :
    s.generation ≤ r.generationHighWater :=
  NonZeroU64.le_iff.mpr ((h.custody.bound s hs).trans (custody_mark_le r))

theorem Wellformed.live_nodup (h : Wellformed H r) :
    (r.liveGenerations.map (·.generation)).Nodup := by
  have hkeys := (List.nodup_append.mp (List.map_append ▸ h.custody.nodup)).1
  have hlive := (List.nodup_append.mp (List.map_append ▸ hkeys)).2.1
  simp only [MeshSignerControlRecordV1.custody, List.map_map] at hlive
  have hmap : r.liveGenerations.map (SlotId.rank ∘ fun g => g.binding.slot) =
      (r.liveGenerations.map (·.generation)).map NonZeroU64.toNat := by
    rw [List.map_map]
    refine List.map_congr_left fun g hg => ?_
    exact congrArg NonZeroU64.toNat (h.live_generation g hg)
  rw [hmap] at hlive
  exact hlive.of_map

/-- Without digest collisions the slots of a well-formed record have distinct names. -/
theorem Wellformed.names_nodup (h : Wellformed H r)
    (hcf : H.CollisionFree r.identity r.purpose) : (slotNames H r).Nodup := by
  have hinj : (r.custody.keys.map (SlotId.canonicalId H)).Nodup := by
    refine List.Nodup.map_on ?_ h.custody.keys_nodup
    intro s hs t ht he
    exact canonicalId_inj hcf (h.own s hs) (h.own t ht) he
  have hkeys : r.custody.keys.map (SlotId.canonicalId H) =
      (r.pendingOp.toList.map fun p => p.canonicalSlot.canonicalId H) ++
        (r.liveGenerations.map fun g => g.binding.slot.canonicalId H) ++
          (r.gcPending.map fun e => e.slot.canonicalId H) := by
    simp only [Ledger.keys, MeshSignerControlRecordV1.custody, List.map_append, List.map_map,
      Option.toList_map]
    rfl
  rw [hkeys, List.append_assoc] at hinj
  exact List.perm_append_comm.nodup_iff.mpr hinj

/-- Without digest collisions, and with bindings at their own slots, a well-formed
record satisfies the loader's predicate. -/
theorem Wellformed.invariants (h : Wellformed H r) (hcf : H.CollisionFree r.identity r.purpose)
    (hgc : GcBindingsOwn r) : Invariants H r where
  active := h.active
  current cur hcur := by
    obtain ⟨g, hg, he⟩ := h.current cur hcur
    refine ⟨⟨g, hg, he⟩, ?_⟩
    have hle := h.generation_le (mem_custody_keys.mpr (Or.inr (Or.inl ⟨g, hg, rfl⟩)))
    rwa [h.live_generation g hg, he] at hle
  live_nodup := h.live_nodup
  live_bound g hg := by
    have hle := h.generation_le (mem_custody_keys.mpr (Or.inr (Or.inl ⟨g, hg, rfl⟩)))
    rwa [h.live_generation g hg] at hle
  live_slot g hg := by
    obtain ⟨hd, hp⟩ := h.own _ (mem_custody_keys.mpr (Or.inr (Or.inl ⟨g, hg, rfl⟩)))
    unfold derivedSlot
    rw [← h.live_generation g hg, ← hd, ← hp]
  names := h.names_nodup hcf
  gc_binding := hgc
  gc_slot e he := by
    have hmem := mem_custody_keys.mpr (Or.inr (Or.inr ⟨e, he, rfl⟩))
    obtain ⟨hd, hp⟩ := h.own _ hmem
    exact ⟨h.gc_txn e he, hd, hp, h.generation_le hmem⟩
  pending := h.pending
  terminal_length := h.terminal.length
  terminal_nodup := h.terminal.nodup
  terminal_consistent := h.terminal.consistent

/-- The pristine record is well formed. -/
theorem bootstrap_wellformed (identity : ControlIdentity) (purpose : PurposeId) :
    Wellformed H (bootstrap identity purpose) where
  active := by simp [bootstrap]
  current := by simp [bootstrap]
  pristine _ := ⟨rfl, rfl, rfl, rfl, rfl⟩
  custody := ⟨by simp [bootstrap, custody, Ledger.keys],
    by simp [bootstrap, custody, Ledger.keys]⟩
  own := by simp [bootstrap, custody, Ledger.keys]
  live_generation := by simp [bootstrap]
  pending := by simp [bootstrap]
  gc_txn := by simp [bootstrap]
  gc_names := by simp [bootstrap]
  terminal := ⟨by simp [bootstrap], by simp [bootstrap], by simp [bootstrap]⟩
  lead := by simp [bootstrap, revisionLead, initialRevision]

end Theyos.MeshControl

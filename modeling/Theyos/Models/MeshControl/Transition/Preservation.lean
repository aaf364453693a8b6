import Theyos.Models.MeshControl.Transition.Custody

/-!
# Transitions preserve the inductive invariant

One lemma for each clause of `Wellformed`, each a case analysis of the effect, and
the preservation theorem assembled from them. The clause on bindings held by the
collector's queue is kept apart: it depends on what an inspection reports.
-/

namespace Theyos.MeshControl

open MeshSignerControlRecordV1 Machine

variable {H : Hashes} {old new : MeshSignerControlRecordV1} {now : UInt64} {t : RecordTransition}

/-- Identity and purpose are never touched. -/
theorem Effect.same (h : Effect H old now t new) :
    new.identity = old.identity ∧ new.purpose = old.purpose := by
  cases h <;> exact ⟨rfl, rfl⟩

/-- Every effect but the stabilization rewrite advances the revision by exactly one. -/
theorem Effect.revision (h : Effect H old now t new) :
    new = old ∨ new.revision.toNat = old.revision.toNat + 1 := by
  cases h with
  | stabilizationRewrite => exact Or.inl rfl
  | _ => exact Or.inr (checkedAdd_one_eq_some.mp ‹_›)

section

variable (hw : Wellformed H old) (h : Effect H old now t new)

include hw h

theorem Effect.active : new.authority = .active ↔ new.currentGeneration.isSome := by
  cases h with
  | activateFromKeyObserved | revokeUrgent => simp
  | _ => exact hw.active

theorem Effect.current :
    ∀ cur, new.currentGeneration = some cur → ∃ g ∈ new.liveGenerations, g.generation = cur := by
  intro cur hcur
  cases h with
  | @activateFromKeyObserved _ delegation p binding =>
    exact ⟨activatedGeneration p delegation binding, List.mem_append_right _ List.mem_cons_self,
      Option.some.inj hcur⟩
  | revokeUrgent => cases hcur
  | generationExpired hne =>
    obtain ⟨g, hg, he⟩ := hw.current cur hcur
    refine ⟨g, List.mem_filter.mpr ⟨hg, decide_eq_true ?_⟩, he⟩
    rintro rfl
    exact hne (by rw [← he] at hcur; exact hcur)
  | _ => exact hw.current cur hcur

theorem Effect.pristine : new.authority = .empty → Pristine new := by
  intro hempty
  cases h with
  | stabilizationRewrite => exact hw.pristine hempty
  | intentRecorded hidle hunused hvalid hnext =>
    obtain ⟨hlive, hgc, hresults, _, hepoch⟩ := hw.pristine hempty
    rcases deriveNextGeneration_eq_ok.mp hnext with ⟨_, rfl⟩ | ⟨hne, _⟩
    · exact ⟨hlive, hgc, hresults, rfl, hepoch⟩
    · exact absurd hempty hne
  | keyObserved =>
    obtain ⟨hlive, hgc, hresults, hgen, hepoch⟩ := hw.pristine hempty
    exact ⟨hlive, hgc, hresults, hgen, hepoch⟩
  | activateFromKeyObserved | revokeUrgent => cases hempty
  | reactivateFromRevoked hrevoked =>
    rw [hempty] at hrevoked
    cases hrevoked
  | generationExpired hne hlive =>
    rw [(hw.pristine hempty).live] at hlive
    cases hlive
  | gcRewritten _ hsplit =>
    rw [(hw.pristine hempty).gc] at hsplit
    simp at hsplit
  | gcRemoval hfound =>
    rw [(hw.pristine hempty).gc] at hfound
    cases hfound
  | terminalAcked hrecorded =>
    rw [(hw.pristine hempty).results] at hrecorded
    simp at hrecorded

theorem Effect.custodySound : new.custody.Sound SlotId.rank := by
  obtain ⟨act, hact⟩ := h.custodyStep hw
  exact hw.custody.step hact.step

theorem Effect.own :
    ∀ s ∈ new.custody.keys, s ∈ OwnSlots (identityDigest H new.identity) new.purpose := by
  intro s hs
  rw [h.same.1, h.same.2]
  obtain ⟨act, hact⟩ := h.custodyStep hw
  rcases hact.step.mem_keys_or_assign hw.custody hs with hold | rfl
  · exact hw.own s hold
  · exact (hact.assigned s rfl).2

theorem Effect.live_generation :
    ∀ g ∈ new.liveGenerations, g.binding.slot.generation = g.generation := by
  intro g hg
  cases h with
  | @activateFromKeyObserved _ delegation p binding _ _ _ hp _ _ hb =>
    rcases List.mem_append.mp hg with hg | hg
    · exact hw.live_generation g hg
    · rw [List.mem_singleton.mp hg]
      change binding.slot.generation = p.generation
      rw [(hw.pending p hp).binding binding hb, (hw.pending p hp).slot]
      rfl
  | revokeUrgent => cases hg
  | generationExpired => exact hw.live_generation g (List.mem_filter.mp hg).1
  | _ => exact hw.live_generation g hg

end

/-- The clauses on the operation in flight read only the counters, the authority and the names. -/
theorem PendingInvariants.congr {p : PendingOp} (h : PendingInvariants H old p)
    (hi : new.identity = old.identity) (hp : new.purpose = old.purpose)
    (he : new.epochHighWater = old.epochHighWater)
    (hg : new.generationHighWater = old.generationHighWater)
    (ha : new.authority = old.authority) : PendingInvariants H new p where
  purpose := by rw [hp]; exact h.purpose
  slot := by
    unfold derivedSlot
    rw [hi, hp]
    exact h.slot
  epoch := by rw [he]; exact h.epoch
  phase := h.phase
  binding := h.binding
  bound := by rw [hg]; exact h.bound
  kind := by rw [ha]; exact h.kind

theorem Effect.pending (hw : Wellformed H old) (h : Effect H old now t new) :
    ∀ p, new.pendingOp = some p → PendingInvariants H new p := by
  intro p hp
  cases h with
  | @intentRecorded _ kind _ _ _ hidle hunused hvalid hnext =>
    cases hp
    refine ⟨rfl, rfl, rfl, by simp [newPendingOp], by simp [newPendingOp],
      NonZeroU64.le_iff.mpr le_rfl, ?_⟩
    revert hvalid
    cases old.authority <;> cases kind <;> first | exact fun _ => rfl | exact nofun
  | @keyObserved token binding q _ _ hq _ _ hown =>
    cases hp
    obtain ⟨h1, h2, h3, h4, h5, h6, h7⟩ := hw.pending q hq
    exact ⟨h1, h2, h3, by simp, by simpa using hown, h6, h7⟩
  | activateFromKeyObserved | revokeUrgent => cases hp
  | reactivateFromRevoked hrevoked =>
    cases hp
    refine ⟨rfl, rfl, rfl, by simp [newPendingOp], by simp [newPendingOp],
      NonZeroU64.le_iff.mpr le_rfl, ?_⟩
    revert hrevoked
    cases old.authority <;> first | exact fun _ => rfl | exact nofun
  | _ => exact (hw.pending p hp).congr rfl rfl rfl rfl rfl

theorem gcEntry_txnId {p : PendingOp} (h : PendingInvariants H old p) :
    p.gcEntry.txnId = p.gcEntry.slot.txnId := by
  have htxn : p.txnId = p.canonicalSlot.txnId := by
    rw [h.slot]
    rfl
  unfold PendingOp.gcEntry
  cases p.binding <;> exact htxn

/-- A queue entry was queued before, is queued for a pending operation or a generation, or replaces
the entry that a transition rewrites. -/
theorem Effect.mem_gcPending (h : Effect H old now t new) {e : GcEntry} (he : e ∈ new.gcPending) :
    e ∈ old.gcPending ∨ (∃ p, old.pendingOp = some p ∧ e = p.gcEntry) ∨
      (∃ g : GenerationRecord, e = g.gcEntry) ∨
      ∃ slotId f, ∃ e₀ ∈ old.gcPending, t.gcRewrite = some (slotId, f) ∧
        e₀.slot.canonicalId H = slotId ∧ f e₀ = .ok e := by
  cases h with
  | revokeUrgent =>
    rcases List.mem_append.mp he with he | he
    · rcases List.mem_append.mp he with he | he
      · exact .inl he
      · obtain ⟨p, hp, rfl⟩ := List.mem_map.mp he
        exact .inr (.inl ⟨p, Option.mem_toList.mp hp, rfl⟩)
    · obtain ⟨g, _, rfl⟩ := List.mem_map.mp he
      exact .inr (.inr (.inl ⟨g, rfl⟩))
  | generationExpired =>
    rcases List.mem_append.mp he with he | he
    · exact .inl he
    · exact .inr (.inr (.inl ⟨_, List.mem_singleton.mp he⟩))
  | gcRewritten hrewrites hsplit _ hnamed hf =>
    rw [hsplit]
    rcases List.mem_append.mp he with he | he
    · exact .inl (List.mem_append_left _ he)
    · rcases List.mem_cons.mp he with rfl | he
      · exact .inr (.inr (.inr ⟨_, _, _, by simp, hrewrites, hnamed, hf⟩))
      · exact .inl (List.mem_append_right _ (List.mem_cons_of_mem _ he))
  | gcRemoval => exact .inl (List.mem_filter.mp he).1
  | _ => exact .inl he

theorem Effect.gc_txn (hw : Wellformed H old) (h : Effect H old now t new) :
    ∀ e ∈ new.gcPending, e.txnId = e.slot.txnId := by
  intro e he
  obtain he | ⟨p, hp, rfl⟩ | ⟨g, rfl⟩ | ⟨_, _, e₀, he₀, hrewrites, _, hf⟩ := h.mem_gcPending he
  · exact hw.gc_txn e he
  · exact gcEntry_txnId (hw.pending p hp)
  · rfl
  · obtain ⟨hslot, htxn, _⟩ := gcRewrite_keeps hrewrites hf
    rw [hslot, htxn]
    exact hw.gc_txn e₀ he₀

/-- Recording a new transaction keeps the clauses on recorded results. -/
theorem TerminalInvariants.push {force : Bool} {v kept : List TerminalResult} {r : TerminalResult}
    (h : TerminalInvariants v) (hroom : MakesRoom force v kept)
    (hunused : ∀ e ∈ v, e.txnId ≠ r.txnId) (hr : r.consistent = true) :
    TerminalInvariants (kept ++ [r]) where
  length := by
    have := hroom.length_lt h.length
    rw [List.length_append, List.length_singleton]
    omega
  nodup := by
    rw [List.map_append, List.nodup_append]
    refine ⟨h.nodup.sublist (hroom.sublist.map _), List.nodup_singleton _, ?_⟩
    intro a ha b hb
    obtain ⟨e, he, rfl⟩ := List.mem_map.mp ha
    rw [List.mem_singleton.mp hb]
    exact hunused e (hroom.sublist.subset he)
  consistent e he := by
    rcases List.mem_append.mp he with he | he
    · exact h.consistent e (hroom.sublist.subset he)
    · rw [List.mem_singleton.mp he]
      exact hr

/-- Acknowledgement keeps the clauses on recorded results. -/
theorem TerminalInvariants.ack {v : List TerminalResult} (h : TerminalInvariants v)
    (txnId : TxnId) : TerminalInvariants (ackTerminal v txnId) where
  length := by
    rw [ackTerminal, List.length_map]
    exact h.length
  nodup := by
    rw [map_ackTerminal _ (fun _ => rfl)]
    exact h.nodup
  consistent e he := by
    obtain ⟨x, hx, rfl⟩ := List.mem_map.mp he
    have := h.consistent x hx
    split <;> exact this

variable (hw : Wellformed H old)

include hw

theorem Effect.terminal (h : Effect H old now t new) :
    TerminalInvariants new.recentTerminalResults := by
  cases h with
  | activateFromKeyObserved _ _ _ _ _ hunused hroom =>
    exact hw.terminal.push hroom hunused (by simp [TerminalResult.consistent, unackedResult])
  | revokeUrgent _ hunused hroom
  | reactivateFromRevoked _ _ _ _ _ _ hunused hroom => exact hw.terminal.push hroom hunused rfl
  | terminalAcked => exact hw.terminal.ack _
  | _ => exact hw.terminal

theorem Effect.lead (h : Effect H old now t new) :
    new.epochHighWater.toNat + new.revisionLead ≤ new.revision.toNat + 1 := by
  have hlead := hw.lead
  rcases h.revision with rfl | hrev
  · exact hlead
  rw [hrev]
  cases h with
  | intentRecorded hidle =>
    simp only [revisionLead, hidle, newPendingOp, Option.any_some, Option.any_none] at hlead ⊢
    simp only [reduceCtorEq, decide_false] at hlead ⊢
    omega
  | keyObserved _ hp hphase =>
    simp only [revisionLead, hp, hphase, Option.any_some, reduceCtorEq, decide_false, decide_true,
      Bool.false_eq_true, if_false, if_true] at hlead ⊢
    by_cases ha : old.authority = .active
    · simp only [ha, if_true] at hlead ⊢
      omega
    · simp only [ha, if_false] at hlead ⊢
      omega
  | activateFromKeyObserved _ hp hphase =>
    simp only [revisionLead, hp, hphase, Option.any_some, decide_true, if_true] at hlead ⊢
    split at hlead <;> omega
  | revokeUrgent hepoch =>
    have hep := NonZeroU64.checkedAdd_one_eq_some.mp hepoch
    simp only [revisionLead, Option.any_none, Bool.false_eq_true, reduceCtorEq, if_false]
    omega
  | reactivateFromRevoked hrevoked _ _ hepoch =>
    have hep := NonZeroU64.checkedAdd_one_eq_some.mp hepoch
    have hne : old.authority ≠ .active := by
      intro ha
      rw [ha] at hrevoked
      cases hrevoked
    simp only [revisionLead, newPendingOp, Option.any_some, reduceCtorEq, decide_false,
      Bool.false_eq_true, if_false, if_neg hne]
    omega
  | _ => exact hlead.trans (Nat.le_succ _)

/-- A transition that respects the shared checks preserves the inductive invariant. -/
theorem Wellformed.effect {maxCap : ℕ} (h : Effect H old now t new)
    (hr : Respects H old new t.allowedRemoval maxCap) : Wellformed H new where
  active := h.active hw
  current := h.current hw
  pristine := h.pristine hw
  custody := h.custodySound hw
  own := h.own hw
  live_generation := h.live_generation hw
  pending := h.pending hw
  gc_txn := h.gc_txn hw
  gc_names := hr.gc_names
  terminal := h.terminal hw
  lead := h.lead hw

/-- The shared checks pass wherever everything live is kept, the counters do not move
down, the queue's names stay distinct and the occupancy does not grow. -/
theorem Respects.of_kept {allowed : AllowedRemoval} {maxCap : ℕ}
    (hi : new.identity = old.identity) (hp : new.purpose = old.purpose)
    (hlive : ∀ g ∈ old.liveGenerations, g ∈ new.liveGenerations)
    (hgen : old.generationHighWater.toNat ≤ new.generationHighWater.toNat)
    (hepoch : old.epochHighWater.toNat ≤ new.epochHighWater.toNat)
    (hnames : (new.gcPending.map (·.slot.canonicalId H)).Nodup)
    (hcap : new.capOccupancy ≤ old.capOccupancy) : Respects H old new allowed maxCap where
  same := ⟨hi, hp⟩
  retained g hg := by
    unfold retainedOrPermitted
    rw [if_pos (List.contains_iff_mem.mpr (hlive g hg))]
  current := by
    unfold currentRetained
    cases hcur : old.currentGeneration with
    | none => rfl
    | some cur =>
      obtain ⟨g, hg, he⟩ := hw.current cur hcur
      have hany : new.liveGenerations.any (·.generation == cur) = true :=
        List.any_eq_true.mpr ⟨g, hlive g hg, by simpa using he⟩
      simp only [hany, if_true]
  generation_le := by
    rw [NonZeroU64.lt_iff]
    omega
  epoch_le := by
    rw [NonZeroU64.lt_iff]
    omega
  gc_names := hnames
  cap := by omega

end Theyos.MeshControl

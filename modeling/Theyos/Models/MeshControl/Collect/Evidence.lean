import Theyos.Models.MeshControl.Collect.Worker

/-!
# The evidence behind a removal

Every entry of the queue is supported by what the collector has seen. A slot found absent once was
inspected with that result, and no later inspection that was recorded found a key there. A slot
confirmed absent was inspected so in two different ticks.
-/

namespace Theyos.MeshControl

open Machine

variable {H : Hashes} {old new r r' : MeshSignerControlRecordV1} {s : Submission} {e : GcEntry}
  {log : List GcObservation} {w w' : GcWorld} {event : GcEvent}

/-- The entries under which slots are queued. -/
def GcEntry.isFresh : GcEntry → Bool
  | .awaitingInspection _ _ | .bound _ _ _ .pending => true
  | _ => false

theorem PendingOp.gcEntry_isFresh (p : PendingOp) : p.gcEntry.isFresh = true := by
  unfold PendingOp.gcEntry
  cases p.binding <;> rfl

variable {t : RecordTransition}

theorem collects_of_gcRewrite {x} (h : t.gcRewrite = some x) : t.collects = true := by
  cases t <;> cases h <;> rfl

/-- Other callers keep every entry and only queue fresh ones. -/
theorem queue_of_other (hother : s.transition.collects = false) (h : submit H old s = .ok new) :
    (∀ e ∈ old.gcPending, e ∈ new.gcPending) ∧
      ∀ e ∈ new.gcPending, e ∈ old.gcPending ∨ e.isFresh = true := by
  rcases submit_cases h with rfl | ⟨heffect, _⟩
  · exact ⟨fun _ h => h, fun _ h => .inl h⟩
  · refine ⟨fun e he => ?_, fun e he => ?_⟩
    · obtain ⟨t, now, maxCap⟩ := s
      cases heffect with
      | revokeUrgent => exact List.mem_append_left _ (List.mem_append_left _ he)
      | generationExpired => exact List.mem_append_left _ he
      | gcRewritten hrewrites => cases (collects_of_gcRewrite hrewrites).symm.trans hother
      | gcRemoval => cases hother
      | _ => exact he
    · obtain he | ⟨p, _, rfl⟩ | ⟨g, rfl⟩ | ⟨_, _, _, _, hrewrites, _⟩ := heffect.mem_gcPending he
      · exact .inl he
      · exact .inr p.gcEntry_isFresh
      · exact .inr rfl
      · cases (collects_of_gcRewrite hrewrites).symm.trans hother

theorem not_terminal_of_gcRewrite {x} (h : t.gcRewrite = some x) :
    t.terminalRequest = none := by
  cases t <;> cases h <;> rfl

variable {f : GcEntry → Except TransitionError GcEntry}

/-- Rewriting an entry replaces it and keeps all others. -/
theorem queue_of_rewrite {now : UInt64} {maxCap : ℕ} (hw : Wellformed H old)
    (he : e ∈ old.gcPending) (ht : t.gcRewrite = some (e.slot.canonicalId H, f))
    (h : submit H old ⟨t, now, maxCap⟩ = .ok new) :
    ∃ e', f e = .ok e' ∧ ∀ x, x ∈ new.gcPending ↔
      x = e' ∨ x ∈ old.gcPending ∧ x.slot.canonicalId H ≠ e.slot.canonicalId H := by
  have heffect : Effect H old now t new := by
    rcases apply_eq_ok.mp h with ⟨⟨_, _, _, hterminal, _⟩, _⟩ | ⟨heffect, _⟩
    · rw [not_terminal_of_gcRewrite ht] at hterminal
      cases hterminal
    · exact heffect
  have hnames := hw.gc_names
  cases heffect with
  | @gcRewritten _ _ _ before after e₀ e' _ hrewrites hsplit _ hnamed hf =>
    obtain ⟨rfl, rfl⟩ := Prod.mk.inj (Option.some.inj (ht.symm.trans hrewrites))
    have he₀ : e₀ ∈ old.gcPending := by simp [hsplit]
    obtain rfl := hw.gcEntry_ext he₀ he hnamed
    refine ⟨e', hf, fun x => ?_⟩
    simp only [hsplit, List.map_append, List.map_cons, List.nodup_append, List.nodup_cons,
      List.mem_map, List.mem_cons] at hnames
    obtain ⟨_, ⟨hafter, _⟩, hbefore⟩ := hnames
    have hold : x ∈ old.gcPending ↔ x ∈ before ∨ x = e₀ ∨ x ∈ after := by simp [hsplit]
    simp only [List.mem_append, List.mem_cons, hold]
    grind
  | _ => cases ht

variable {slotId : String} {e' : GcEntry} {txnId : TxnId}

/-- A removal takes resolved entries only. -/
theorem queue_of_removal {now : UInt64} {maxCap : ℕ} (hw : Wellformed H old)
    (h : submit H old ⟨.gcRemoval slotId txnId, now, maxCap⟩ = .ok new) :
    (∀ e ∈ new.gcPending, e ∈ old.gcPending) ∧
      ∀ e ∈ old.gcPending, e.observationCompleteAndResidualZero = false → e ∈ new.gcPending := by
  rcases submit_cases h with rfl | ⟨heffect, _⟩
  · exact ⟨fun _ h => h, fun _ h _ => h⟩
  · cases heffect with
    | gcRewritten hrewrites => cases hrewrites
    | @gcRemoval _ _ e₀ _ hfound hresolved =>
      refine ⟨fun e he => List.mem_of_mem_filter he, fun e he hopen => ?_⟩
      refine List.mem_filter.mpr ⟨he, ?_⟩
      rw [Bool.not_eq_true', Bool.eq_false_iff]
      intro hnamed
      have hsame : e.slot.canonicalId H = e₀.slot.canonicalId H := by
        have hnamed₀ := List.find?_some hfound
        simp only [GcEntry.isNamed, Bool.and_eq_true, beq_iff_eq] at hnamed hnamed₀
        rw [hnamed.1, hnamed₀.1]
      rw [hw.gcEntry_ext he (List.mem_of_find?_eq_some hfound) hsame, hresolved] at hopen
      cases hopen

variable (slot : SlotId)

/-- An inspection that found nothing at the slot. -/
def AbsentSeen (o : GcObservation) : Prop :=
  ∃ i fate, o = .inspected i slot .absent fate

/-- No inspection of the slot that found a key, unless what it found could not be recorded. -/
def NoPresent (o : GcObservation) : Prop :=
  ∀ i b fate, o = .inspected i slot (.present b) fate → fate = some .failed

/-- In two ticks nothing was found at the slot, and no key was recorded there in between. -/
def AbsentTwice (log : List GcObservation) : Prop :=
  Linked (fun x y => ∃ i j fate fate', x = .inspected i slot .absent fate ∧
    y = .inspected j slot .absent fate' ∧ i ≠ j) (NoPresent slot) log

/-- A record was made durable while it queued the slot under the binding. -/
def StabilizedWith (txnId : TxnId) (binding : ExactBinding) (o : GcObservation) : Prop :=
  ∃ r state, o = .stabilized r ∧ GcEntry.bound slot txnId binding state ∈ r.gcPending

/-- After a record with the entry was made durable, a destruction of its key reported back. -/
def DestroyedAs (txnId : TxnId) (binding : ExactBinding) (report : GcReport)
    (log : List GcObservation) : Prop :=
  Linked (fun x y => StabilizedWith slot txnId binding x ∧ y = .destroyed slot binding report)
    (fun _ => True) log

/-- Everything was looked at, nothing is left and nothing else was met. -/
def GcReport.isClean (report : GcReport) : Bool :=
  report.observationComplete && !report.residual && !report.mismatch

/-- What the log shows about an entry in its state. -/
def GcEntry.Supported (log : List GcObservation) : GcEntry → Prop
  | .absentUnconfirmed slot _ => Since (AbsentSeen slot) (NoPresent slot) log
  | .absent slot _ => AbsentTwice slot log
  | .bound slot txnId binding .done =>
    ∃ report, DestroyedAs slot txnId binding report log ∧ report.isClean = true
  | _ => True

theorem GcEntry.supported_of_isFresh (h : e.isFresh = true) : e.Supported log := by
  cases e with
  | awaitingInspection => trivial
  | bound slot txnId binding state => cases state <;> trivial
  | _ => cases h

/-- An observation leaves an entry supported unless it recorded a key at its slot. -/
theorem GcEntry.Supported.snoc {o : GcObservation} (h : e.Supported log)
    (ho : NoPresent e.slot o) : e.Supported (log ++ [o]) := by
  cases e with
  | absentUnconfirmed => exact Since.snoc h ho
  | absent => exact Linked.snoc h o
  | bound slot txnId binding state =>
    cases state with
    | done =>
      obtain ⟨report, hdestroyed, hclean⟩ := h
      exact ⟨report, hdestroyed.snoc o, hclean⟩
    | _ => trivial
  | _ => trivial

namespace GcStage

/-- The local state of the tick the worker is in. -/
def tickState : GcStage → Option TickState
  | .idle => none
  | .selecting l | .inspecting l _ _ | .recording l _ _ _ | .stabilizing l _ _ _
  | .destroying l _ _ _ | .resolving l _ _ _ _ => some l

/-- The entry the worker is busy with is queued as it was selected. -/
def Occupied (r : MeshSignerControlRecordV1) : GcStage → Prop
  | .idle | .selecting _ => True
  | .inspecting _ slot txnId | .recording _ slot txnId _ =>
    GcEntry.awaitingInspection slot txnId ∈ r.gcPending ∨
      GcEntry.absentUnconfirmed slot txnId ∈ r.gcPending
  | .stabilizing _ slot txnId binding | .destroying _ slot txnId binding
  | .resolving _ slot txnId binding _ =>
    ∃ state, GcEntry.bound slot txnId binding state ∈ r.gcPending ∧
      state.observationCompleteAndResidualZero = false

/-- The worker stays busy with its entry while unresolved entries are kept. -/
theorem Occupied.mono {stage : GcStage} (h : stage.Occupied r)
    (hkeep : ∀ e ∈ r.gcPending, e.observationCompleteAndResidualZero = false →
      e ∈ r'.gcPending) : stage.Occupied r' := by
  cases stage with
  | idle | selecting => trivial
  | inspecting | recording =>
    exact h.imp (fun h => hkeep _ h rfl) (fun h => hkeep _ h rfl)
  | stabilizing | destroying | resolving =>
    obtain ⟨state, hmem, hopen⟩ := h
    exact ⟨state, hkeep _ hmem hopen, hopen⟩

/-- The slot was not inspected before in this tick, and is noted as inspected. -/
structure FirstLook (H : Hashes) (tick : ℕ) (log : List GcObservation) (l : TickState)
    (slot : SlotId) : Prop where
  noted : slot.canonicalId H ∈ l.inspectedThisTick
  unseen : ∀ outcome fate, .inspected tick slot outcome fate ∉ log

/-- What the log shows about the worker's stage. -/
def Traced (H : Hashes) (tick : ℕ) (log : List GcObservation) : GcStage → Prop
  | .inspecting l slot _ => FirstLook H tick log l slot
  | .recording l slot _ outcome => FirstLook H tick log l slot ∧ outcome ≠ .indeterminate
  | .destroying _ slot txnId binding => Since (StabilizedWith slot txnId binding) (fun _ => True) log
  | .resolving _ slot txnId binding report =>
    DestroyedAs slot txnId binding report log ∧ report.observationComplete = true
  | .idle | .selecting _ | .stabilizing _ _ _ _ => True

end GcStage

/-- The invariant of the collector's world. -/
structure GcWorld.Sound (H : Hashes) (w : GcWorld) : Prop where
  wellformed : Wellformed H w.record
  /-- Every entry is supported by the log. -/
  supported : ∀ e ∈ w.record.gcPending, e.Supported w.log
  /-- Inspections carry the number of a tick that began. -/
  tick_le : ∀ i slot outcome fate, .inspected i slot outcome fate ∈ w.log → i ≤ w.tick
  /-- The slots inspected in the current tick are noted. -/
  noted : ∀ l, w.stage.tickState = some l → ∀ slot outcome fate,
    .inspected w.tick slot outcome fate ∈ w.log → slot.canonicalId H ∈ l.inspectedThisTick
  occupied : w.stage.Occupied w.record
  traced : w.stage.Traced H w.tick w.log

/-- A queue that keeps what is unresolved and adds only fresh entries keeps the invariant. -/
theorem GcWorld.Sound.queue (h : w.Sound H) (hnew : Wellformed H new)
    (hkeep : ∀ e ∈ w.record.gcPending, e.observationCompleteAndResidualZero = false →
      e ∈ new.gcPending)
    (hfresh : ∀ e ∈ new.gcPending, e ∈ w.record.gcPending ∨ e.isFresh = true) :
    GcWorld.Sound H { w with record := new } where
  wellformed := hnew
  supported e he := by
    rcases hfresh e he with he | he
    · exact h.supported e he
    · exact e.supported_of_isFresh he
  tick_le := h.tick_le
  noted := h.noted
  occupied := h.occupied.mono hkeep
  traced := h.traced

/-- Only the transition asked for is ever built. -/
theorem ifQueued_eq_some {t' : RecordTransition} (h : ifQueued H slotId txnId t r = some t') :
    t' = t := by
  unfold ifQueued at h
  split at h
  · exact (Option.some.inj h).symm
  · cases h

theorem ifQueued_of_mem (he : e ∈ r.gcPending) :
    ifQueued H (e.slot.canonicalId H) e.txnId t r = some t := by
  unfold ifQueued
  rw [if_pos (List.any_eq_true.mpr ⟨e, he, by simp⟩)]

variable {c : GcCommit} {fate : Option CommitFate}

/-- A removal pass keeps the invariant. -/
theorem GcWorld.Sound.remove (h : w.Sound H)
    (hended : commitBuilt H w.record (firstRemoval H) c = (fate, new)) :
    GcWorld.Sound H { w with record := new } := by
  rcases commitBuilt_cases hended with ⟨rfl, _⟩ | ⟨t, hbuild, hsubmit⟩
  · exact h
  · obtain ⟨e, _, rfl⟩ := Option.map_eq_some_iff.mp hbuild
    obtain ⟨hold, hkeep⟩ := queue_of_removal h.wellformed hsubmit
    exact h.queue (h.wellformed.submit hsubmit) hkeep fun e he => .inl (hold e he)

/-- A rewriting that makes the record durable leaves it as it is. -/
theorem stabilized_eq
    (hended : commitBuilt H r (ifQueued H slotId txnId .stabilizationRewrite) c = (fate, new)) :
    new = r := by
  rcases commitBuilt_cases hended with ⟨rfl, _⟩ | ⟨t, hbuild, hsubmit⟩
  · rfl
  · cases ifQueued_eq_some hbuild
    rcases submit_cases hsubmit with rfl | ⟨heffect, _⟩
    · rfl
    · cases heffect with
      | stabilizationRewrite => rfl
      | gcRewritten hrewrites => cases hrewrites

variable {l : TickState} {slot : SlotId}

/-- Selecting an entry keeps the invariant. -/
theorem GcWorld.Sound.select (h : w.Sound H) (hstage : w.stage = .selecting l) :
    GcWorld.Sound H
      { w with stage := .afterSelect H l (w.record.gcPending.find? (l.selects H)) } := by
  have hnoted := h.noted l (by rw [hstage]; rfl)
  cases hfind : w.record.gcPending.find? (l.selects H) with
  | none => exact ⟨h.wellformed, h.supported, h.tick_le, nofun, trivial, trivial⟩
  | some e =>
    have he := List.mem_of_find?_eq_some hfind
    have hselects := List.find?_some hfind
    cases e with
    | awaitingInspection slot txnId | absentUnconfirmed slot txnId =>
      simp only [TickState.selects, Bool.and_eq_true, Bool.not_eq_true', List.contains_eq_mem,
        decide_eq_false_iff_not] at hselects
      refine ⟨h.wellformed, h.supported, h.tick_le, ?_, ?_, List.mem_cons_self, ?_⟩
      · rintro _ ⟨⟩ slot' outcome fate hseen
        exact List.mem_cons_of_mem _ (hnoted slot' outcome fate hseen)
      · first | exact .inl he | exact .inr he
      · -- the slot of a selected entry was not inspected before in the tick
        exact fun outcome fate hseen => hselects.2 (hnoted slot outcome fate hseen)
    | bound slot txnId binding state =>
      refine ⟨h.wellformed, h.supported, h.tick_le, ?_, ⟨state, he, ?_⟩, trivial⟩
      · rintro _ ⟨⟩ slot' outcome fate hseen
        exact hnoted slot' outcome fate hseen
      · simp only [TickState.selects, Bool.and_eq_true, Bool.not_eq_true'] at hselects
        exact hselects.1.1
    | absent | inspectionConflict =>
      exact ⟨h.wellformed, h.supported, h.tick_le, nofun, trivial, trivial⟩

/-- Nothing is asked of the stage behind a commit but what the tick has inspected. -/
theorem afterCommit_free (H : Hashes) (r : MeshSignerControlRecordV1)
    (log : List GcObservation) (n : ℕ) (l : TickState) (fate : Option CommitFate) :
    (GcStage.afterCommit l fate).Occupied r ∧ (GcStage.afterCommit l fate).Traced H n log ∧
      ∀ l', (GcStage.afterCommit l fate).tickState = some l' →
        l'.inspectedThisTick = l.inspectedThisTick := by
  unfold GcStage.afterCommit
  split <;> exact ⟨trivial, trivial, by rintro _ ⟨⟩ <;> rfl⟩

variable {n : ℕ} {outcome : InspectOutcome}

/-- What a determinate answer makes of the inspected entry. -/
theorem inspected_supported {e : GcEntry} (ht : outcome.transition slotId = some t)
    (hf : t.gcRewrite = some (slotId, f))
    (hunseen : ∀ outcome fate, .inspected n e.slot outcome fate ∉ log) (he : e.Supported log)
    (h : f e = .ok e') :
    e'.Supported (log ++ [.inspected n e.slot outcome fate]) := by
  cases outcome with
  | indeterminate => cases ht
  | present b | conflict =>
    cases ht
    cases hf
    cases e <;> cases h <;> trivial
  | absent =>
    cases ht
    cases hf
    cases e with
    | awaitingInspection slot txnId =>
      cases h
      exact Since.latest ⟨n, fate, rfl⟩
    | absentUnconfirmed slot txnId =>
      cases h
      have hearlier := Since.imp (C := fun o => ∃ i fate, o = .inspected i slot .absent fate ∧
        i ≠ n) he (by
          rintro _ ho ⟨i, fate, rfl⟩
          exact ⟨i, fate, rfl, by rintro rfl; exact hunseen _ _ ho⟩)
      refine hearlier.linked ?_
      rintro _ ⟨i, fate', rfl, hne⟩
      exact ⟨i, n, fate', fate, rfl, rfl, hne⟩
    | _ => cases h

/-- What an inspection found is recorded by rewriting the entry. -/
theorem transition_gcRewrite (h : outcome.transition slotId = some t) :
    ∃ f, t.gcRewrite = some (slotId, f) := by
  cases outcome <;> cases h <;> exact ⟨_, rfl⟩

/-- The entry a busy inspection is about. -/
theorem occupied_inspection
    (h : GcEntry.awaitingInspection slot txnId ∈ r.gcPending ∨ GcEntry.absentUnconfirmed slot
      txnId ∈ r.gcPending) :
    ∃ e ∈ r.gcPending, e.slot = slot ∧ e.txnId = txnId := by
  rcases h with h | h <;> exact ⟨_, h, rfl, rfl⟩

/-- A key found at one slot says nothing about another. -/
theorem noPresent_of_ne {slot' : SlotId} (h : slot' ≠ slot) :
    NoPresent slot' (.inspected n slot outcome fate) := by
  rintro i b fate' ⟨⟩
  exact absurd rfl h

theorem noPresent_failed {slot' : SlotId} :
    NoPresent slot' (.inspected n slot outcome (some .failed)) := by
  rintro i b fate ⟨⟩
  rfl

namespace GcWorld

variable (h : w.Sound H)

include h

/-- The queue stays supported when what an inspection found is recorded. -/
theorem Sound.recorded (hstage : w.stage = .recording l slot txnId outcome)
    (hended : commitBuilt H w.record (recordInspection H slot txnId outcome) c = (fate, new)) :
    Wellformed H new ∧
      ∀ e ∈ new.gcPending, e.Supported (w.log ++ [.inspected w.tick slot outcome fate]) := by
  have htraced := h.traced
  have hoccupied := h.occupied
  rw [hstage] at htraced hoccupied
  obtain ⟨e, he, rfl, rfl⟩ := occupied_inspection hoccupied
  obtain ⟨t, ht⟩ : ∃ t, outcome.transition (e.slot.canonicalId H) = some t := by
    cases outcome with
    | indeterminate => exact absurd rfl htraced.2
    | _ => exact ⟨_, rfl⟩
  have hbuild : recordInspection H e.slot e.txnId outcome w.record = some t := by
    rw [recordInspection, ht, Option.bind_some, ifQueued_of_mem he]
  rcases commitBuilt_cases hended with ⟨rfl, rfl | hnone⟩ | ⟨t', hbuilt, hsubmit⟩
  · exact ⟨h.wellformed, fun x hx => (h.supported x hx).snoc noPresent_failed⟩
  · cases hbuild.symm.trans hnone
  · obtain rfl := Option.some.inj (hbuild.symm.trans hbuilt)
    obtain ⟨f, hf⟩ := transition_gcRewrite ht
    obtain ⟨e', hrewritten, hqueue⟩ := queue_of_rewrite h.wellformed he hf hsubmit
    refine ⟨h.wellformed.submit hsubmit, fun x hx => ?_⟩
    rcases (hqueue x).mp hx with rfl | ⟨hold, hne⟩
    · exact inspected_supported ht hf htraced.1.unseen (h.supported e he) hrewritten
    · exact (h.supported x hold).snoc (noPresent_of_ne fun h => hne (congrArg _ h))

/-- The worker observes something and goes on in the same tick. -/
theorem Sound.observe {o : GcObservation} {stage : GcStage}
    (hl : w.stage.tickState = some l) (hnew : Wellformed H new)
    (hsupported : ∀ e ∈ new.gcPending, e.Supported (w.log ++ [o]))
    (ho : ∀ i slot outcome fate, o = .inspected i slot outcome fate →
      i = w.tick ∧ slot.canonicalId H ∈ l.inspectedThisTick)
    (hstage : ∀ l', stage.tickState = some l' → l'.inspectedThisTick = l.inspectedThisTick)
    (hoccupied : stage.Occupied new) (htraced : stage.Traced H w.tick (w.log ++ [o])) :
    Sound H (w.moved new stage [o]) := by
  refine ⟨hnew, hsupported, ?_, ?_, hoccupied, htraced⟩
  · intro i slot outcome fate hseen
    rcases List.mem_append.mp hseen with hseen | hseen
    · exact h.tick_le i slot outcome fate hseen
    · exact (ho i slot outcome fate (List.mem_singleton.mp hseen).symm).1.le
  · intro l' hl' slot outcome fate hseen
    rw [hstage l' hl']
    rcases List.mem_append.mp hseen with hseen | hseen
    · exact h.noted l hl slot outcome fate hseen
    · exact (ho _ slot outcome fate (List.mem_singleton.mp hseen).symm).2

/-- Recording an inspection keeps the invariant. -/
theorem Sound.record (hstage : w.stage = .recording l slot txnId outcome)
    (hended : commitBuilt H w.record (recordInspection H slot txnId outcome) c = (fate, new)) :
    Sound H
      (w.moved new (.afterCommit l fate) [.inspected w.tick slot outcome fate]) := by
  have htraced := h.traced
  rw [hstage] at htraced
  obtain ⟨hwellformed, hsupported⟩ := h.recorded hstage hended
  obtain ⟨hoccupied, hfree, hstate⟩ := afterCommit_free H new _ w.tick l fate
  refine h.observe (by rw [hstage]; rfl) hwellformed hsupported ?_ hstate hoccupied hfree
  rintro _ _ _ _ ⟨⟩
  exact ⟨rfl, htraced.1.noted⟩

/-- An inspection without a result keeps the invariant. -/
theorem Sound.indeterminate (hstage : w.stage = .inspecting l slot txnId) :
    Sound H (w.moved w.record (.selecting (l.setAside (slot.canonicalId H)))
      [.inspected w.tick slot .indeterminate none]) := by
  have htraced := h.traced
  rw [hstage] at htraced
  refine h.observe (by rw [hstage]; rfl) h.wellformed (fun e he => (h.supported e he).snoc nofun)
    ?_ (by rintro _ ⟨⟩; rfl) trivial trivial
  rintro _ _ _ _ ⟨⟩
  exact ⟨rfl, htraced.noted⟩

variable {binding : ExactBinding}

/-- Making the record durable keeps the invariant. -/
theorem Sound.stabilize (hstage : w.stage = .stabilizing l slot txnId binding)
    (hended : commitBuilt H w.record (ifQueued H (slot.canonicalId H) txnId
      .stabilizationRewrite) c = (fate, new)) :
    Sound H
      (w.moved new (.afterStabilize l slot txnId binding fate) (stabilizedLog new fate)) := by
  have hoccupied := h.occupied
  have hnoted := h.noted l (by rw [hstage]; rfl)
  rw [hstage] at hoccupied
  obtain rfl := stabilized_eq hended
  have hunchanged : ∀ stage : GcStage, stage.tickState = some l ∨ stage.tickState = none →
      stage.Occupied w.record → stage.Traced H w.tick w.log →
        Sound H (w.moved w.record stage []) := by
    rintro stage hstate hoccupied htraced
    rw [moved, List.append_nil]
    refine ⟨h.wellformed, h.supported, h.tick_le, fun l' hl' => ?_, hoccupied, htraced⟩
    rcases hstate with hstate | hstate <;> cases hstate.symm.trans hl'
    exact hnoted
  rcases fate with _ | _ | _ | _
  · exact hunchanged (.selecting l) (.inl rfl) trivial trivial
  · obtain ⟨state, hmem, hopen⟩ := hoccupied
    exact h.observe (by rw [hstage]; rfl) h.wellformed
      (fun e he => (h.supported e he).snoc nofun) nofun (by rintro _ ⟨⟩; rfl) ⟨state, hmem, hopen⟩
      (Since.latest ⟨w.record, state, rfl, hmem⟩)
  · exact hunchanged .idle (.inr rfl) trivial trivial
  · exact hunchanged .idle (.inr rfl) trivial trivial

variable {report : GcReport}

/-- The report of a destruction keeps the invariant. -/
theorem Sound.destroy (hstage : w.stage = .destroying l slot txnId binding) :
    Sound H (w.moved w.record (.afterDestroy H l slot txnId binding report)
      [.destroyed slot binding report]) := by
  have hoccupied := h.occupied
  have htraced := h.traced
  rw [hstage] at hoccupied htraced
  have hl : w.stage.tickState = some l := by rw [hstage]; rfl
  have hsupported (e : GcEntry) (he : e ∈ w.record.gcPending) :=
    (h.supported e he).snoc (o := .destroyed slot binding report) nofun
  unfold GcStage.afterDestroy
  cases hcomplete : report.observationComplete with
  | true =>
    exact h.observe hl h.wellformed hsupported nofun (by rintro _ ⟨⟩; rfl) hoccupied
      ⟨htraced.linked fun _ ha => ⟨ha, rfl⟩, hcomplete⟩
  | false =>
    exact h.observe hl h.wellformed hsupported nofun (by rintro _ ⟨⟩; rfl) trivial trivial

end GcWorld

/-- A completed destruction makes an entry done only when its report was clean. -/
theorem resolved_supported {state : GcState}
    (hdestroyed : DestroyedAs slot txnId binding report log)
    (hcomplete : report.observationComplete = true)
    (h : GcEntry.resolved (!report.residual) report.mismatch (.bound slot txnId binding state) =
      .ok e') : e'.Supported log := by
  have hclean : report.mismatch = false → report.residual = false → report.isClean = true := by
    intro hmismatch hresidual
    simp [GcReport.isClean, hcomplete, hmismatch, hresidual]
  rcases report with ⟨_, residual, _, mismatch⟩
  cases state with
  | quarantine => cases h
  | _ =>
    cases h
    cases mismatch <;> cases residual
    · exact ⟨_, hdestroyed, hclean rfl rfl⟩
    all_goals trivial

namespace GcWorld

/-- Recording a destruction keeps the invariant. -/
theorem Sound.resolve (h : w.Sound H)
    (hstage : w.stage = .resolving l slot txnId binding report)
    (hended : commitBuilt H w.record (ifQueued H (slot.canonicalId H) txnId (.gcResolved
      (slot.canonicalId H) (!report.residual) report.mismatch)) c = (fate, new)) :
    Sound H { w with record := new, stage := .afterCommit l fate } := by
  have hoccupied := h.occupied
  have htraced := h.traced
  have hnoted := h.noted l (by rw [hstage]; rfl)
  rw [hstage] at hoccupied htraced
  obtain ⟨state, hmem, hopen⟩ := hoccupied
  have hqueue : Wellformed H new ∧ ∀ e ∈ new.gcPending, e.Supported w.log := by
    rcases commitBuilt_cases hended with ⟨rfl, _⟩ | ⟨t, hbuild, hsubmit⟩
    · exact ⟨h.wellformed, h.supported⟩
    · cases ifQueued_eq_some hbuild
      obtain ⟨e', hrewritten, hqueue⟩ := queue_of_rewrite h.wellformed hmem rfl hsubmit
      refine ⟨h.wellformed.submit hsubmit, fun x hx => ?_⟩
      rcases (hqueue x).mp hx with rfl | ⟨hold, _⟩
      · exact resolved_supported htraced.1 htraced.2 hrewritten
      · exact h.supported x hold
  obtain ⟨hoccupied, hfree, hstate⟩ := afterCommit_free H new w.log w.tick l fate
  refine ⟨hqueue.1, hqueue.2, h.tick_le, fun l' hl' => ?_, hoccupied, hfree⟩
  rw [hstate l' hl']
  exact hnoted

/-- Every step keeps the invariant. -/
theorem Sound.step (h : w.Sound H) (hstep : w.step H event = .ok w') : w'.Sound H := by
  cases step_taken hstep with
  | commit hother hsubmit =>
    obtain ⟨hkeep, hfresh⟩ := queue_of_other hother hsubmit
    exact h.queue (h.wellformed.submit hsubmit) (fun e he _ => hkeep e he) hfresh
  | remove hended => exact h.remove hended
  | tick hstage =>
    refine ⟨h.wellformed, h.supported, fun i slot outcome fate hseen =>
      (h.tick_le i slot outcome fate hseen).trans (Nat.le_succ _), ?_, trivial, trivial⟩
    rintro _ _ slot outcome fate hseen
    exact absurd (h.tick_le _ slot outcome fate hseen) (Nat.not_succ_le_self _)
  | unreadable => exact ⟨h.wellformed, h.supported, h.tick_le, nofun, trivial, trivial⟩
  | select hstage => exact h.select hstage
  | indeterminate hstage => exact h.indeterminate hstage
  | inspect hstage hfound =>
    have hoccupied := h.occupied
    have htraced := h.traced
    have hnoted := h.noted _ (by rw [hstage]; rfl)
    rw [hstage] at hoccupied htraced
    refine ⟨h.wellformed, h.supported, h.tick_le, ?_, hoccupied, htraced, hfound⟩
    rintro _ ⟨⟩
    exact hnoted
  | record hstage hended => exact h.record hstage hended
  | stabilize hstage hended => exact h.stabilize hstage hended
  | destroy hstage => exact h.destroy hstage
  | resolve hstage hended => exact h.resolve hstage hended

/-- The invariant holds before the first tick. -/
theorem Sound.init (identity : ControlIdentity) (purpose : PurposeId) :
    (GcWorld.init identity purpose).Sound H where
  wellformed := bootstrap_wellformed identity purpose
  supported := by simp [GcWorld.init, MeshSignerControlRecordV1.bootstrap]
  tick_le := by simp [GcWorld.init]
  noted := by simp [GcWorld.init]
  occupied := trivial
  traced := trivial

/-- Every run of the world is sound. -/
theorem sound_run (identity : ControlIdentity) (purpose : PurposeId)
    (events : List GcEvent) :
    (run (step H) (.init identity purpose) events).Sound H :=
  run_invariant (.init identity purpose) (fun _ _ _ h hs => h.step hs) events

end GcWorld

end Theyos.MeshControl

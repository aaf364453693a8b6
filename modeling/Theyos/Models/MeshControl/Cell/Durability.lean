import Theyos.Models.MeshControl.Cell.Activate
import Theyos.Models.MeshControl.Cell.Gc
import Theyos.Models.MeshControl.Store.Chain

/-!
# Committed records stay loadable

A write is not checked against the loader's predicate. Every transition that a call can commit
keeps the record inside it, except an inspection that reports a binding of another slot than the
one inspected: the record can then not be loaded any more.
-/

namespace Theyos.MeshControl

open Machine MeshSignerControlRecordV1

/-- A record of the store that passes the loader's check after every admissible transition. -/
structure Loadable (st : FileBackedStore) (r : MeshSignerControlRecordV1) : Prop where
  wellformed : Wellformed st.hashes r
  own : GcBindingsOwn r
  identity : r.identity = st.identity
  purpose : r.purpose = st.purpose

variable {st : FileBackedStore} {r new : MeshSignerControlRecordV1}

theorem bootstrap_loadable (st : FileBackedStore) : Loadable st st.bootstrap where
  wellformed := bootstrap_wellformed st.identity st.purpose
  own := by simp [GcBindingsOwn, FileBackedStore.bootstrap, bootstrap]
  identity := rfl
  purpose := rfl

/-- A loadable record is loaded from its bytes. -/
theorem Loadable.load (hD : st.Derived) (hcf : st.hashes.CollisionFree st.identity st.purpose)
    {disk : Disk} (h : Loadable st r) (hholds : st.Holds disk r) :
    st.loadCanonical disk true = .exact r := by
  refine hholds.load hD ⟨h.identity, h.purpose⟩ (invariantsHold_iff.mpr ?_)
  refine h.wellformed.invariants ?_ h.own
  rw [h.identity, h.purpose]
  exact hcf

/-- Transitions whose inspections echo their slots keep a record loadable. -/
theorem Loadable.submit {s : Submission} (h : Loadable st r)
    (hecho : InspectionEchoes st.hashes r s) (hs : submit st.hashes r s = .ok new) :
    Loadable st new := by
  obtain ⟨hidentity, hpurpose⟩ := submit_same hs
  refine ⟨h.wellformed.submit hs, ?_, hidentity.trans h.identity, hpurpose.trans h.purpose⟩
  rcases submit_cases hs with rfl | ⟨heffect, _⟩
  · exact h.own
  · exact h.own.effect h.wellformed heffect hecho

/-- Transitions other than inspections that found a key keep a record loadable. -/
theorem Loadable.apply {t : RecordTransition} {now : UInt64} {maxCap : ℕ} (h : Loadable st r)
    (ht : ∀ slotId b, t ≠ .gcInspected slotId (some b))
    (happly : MeshControl.apply st.hashes r t now maxCap = .ok new) : Loadable st new :=
  h.submit (s := ⟨t, now, maxCap⟩) (fun slotId b heq => absurd heq (ht slotId b)) happly

/-- An inspection of a queued slot that found the slot's own binding keeps a record loadable. -/
theorem Loadable.inspected (hcf : st.hashes.CollisionFree st.identity st.purpose)
    {e : GcEntry} {b : ExactBinding} {now : UInt64} {maxCap : ℕ} (h : Loadable st r)
    (he : e ∈ r.gcPending) (hb : b.slot = e.slot)
    (happly : MeshControl.apply st.hashes r
      (.gcInspected (e.slot.canonicalId st.hashes) (some b)) now maxCap = .ok new) :
    Loadable st new := by
  refine h.submit (s := ⟨_, now, maxCap⟩) ?_ happly
  rintro slotId b' ⟨⟩ e' he' hname
  have hown : ∀ e ∈ r.gcPending,
      e.slot ∈ OwnSlots (identityDigest st.hashes r.identity) r.purpose :=
    fun e he => h.wellformed.own _ (mem_custody_keys.mpr (.inr (.inr ⟨e, he, rfl⟩)))
  rw [hb]
  refine canonicalId_inj ?_ (hown e he) (hown e' he') hname.symm
  rw [h.identity, h.purpose]
  exact hcf

/-- A program that keeps every committed record loadable. -/
abbrev KeepsLoadable {ε α : Type} (st : FileBackedStore) (x : Program ε Cell α) : Prop :=
  Meets (Durable st (Loadable st)) x (fun _ => Durable st (Loadable st)) (Durable st (Loadable st))

/-- The inspections of an iteration report only bindings of the inspected slots. -/
def TickAnswers.InspectsOwnSlot (a : TickAnswers) : Prop :=
  ∀ slot b, a.inspect slot = .present b → b.slot = slot

section

variable (hD : st.Derived) (hcf : st.hashes.CollisionFree st.identity st.purpose)

include hD hcf

/-- Committing transitions other than inspections that found a key. -/
theorem meets_commitBuilt_loadable {build : MeshSignerControlRecordV1 → Option RecordTransition}
    (hbuild : ∀ r t, build r = some t → ∀ slotId b, t ≠ .gcInspected slotId (some b))
    (now : UInt64) (maxCap : ℕ) (answers : CommitAnswers) :
    KeepsLoadable st (commitBuiltPrivileged st build now maxCap answers) := by
  refine .of_exists (fun _ h => h.holdsRecord) fun r => ?_
  refine meets_commitBuiltPrivileged hD (fun _ _ h hholds => h.load hD hcf hholds) ?_ answers
  exact fun t new ht hr happly => hr.apply (hbuild r t ht) happly

theorem meets_commitQueued {t : RecordTransition}
    (ht : ∀ slotId b, t ≠ .gcInspected slotId (some b)) (slotId : String) (txnId : TxnId)
    (now : UInt64) (maxCap : ℕ) (answers : CommitAnswers) :
    KeepsLoadable st
      (commitBuiltPrivileged st (ifQueued st.hashes slotId txnId t) now maxCap answers) := by
  refine meets_commitBuilt_loadable hD hcf ?_ now maxCap answers
  intro r t' ht'
  cases (Option.ite_none_right_eq_some.mp ht').2
  exact ht

/-- An inspection that reports only bindings of the inspected slot keeps the cell durable. -/
theorem meets_inspectSlot {a : TickAnswers} {e : GcEntry} (he : e ∈ r.gcPending)
    (hecho : ∀ b, a.inspect e.slot = .present b → b.slot = e.slot) (now : UInt64) (maxCap : ℕ)
    (l : TickState) (txnId : TxnId) :
    Meets (HoldsRecord st (Loadable st) r) (inspectSlot st now maxCap a l e.slot txnId)
      (fun _ => Durable st (Loadable st)) (Durable st (Loadable st)) := by
  have hother {t : RecordTransition} (ht : ∀ slotId b, t ≠ .gcInspected slotId (some b)) :=
    (meets_commitQueued hD hcf ht (e.slot.canonicalId st.hashes) txnId now maxCap a.first).mono
      (fun _ (h : HoldsRecord st (Loadable st) r _) => h.1) fun _ _ h => h
  unfold inspectSlot
  cases hinspect : a.inspect e.slot with
  | indeterminate => exact .pure fun _ h => h.1
  | conflict | absent => exact .map (hother nofun)
  | present b =>
    refine .map (meets_commitBuiltPrivileged hD (fun _ _ h hh => h.load hD hcf hh) ?_ a.first)
    intro t new ht hr happly
    cases (Option.ite_none_right_eq_some.mp ht).2
    exact hr.inspected hcf he (hecho b hinspect) happly

/-- A destruction keeps the cell durable, whatever is reported. -/
theorem meets_destroySlot (a : TickAnswers) (now : UInt64) (maxCap : ℕ) (l : TickState)
    (slot : SlotId) (txnId : TxnId) (binding : ExactBinding) :
    KeepsLoadable st (destroySlot st now maxCap a l slot txnId binding) := by
  refine .bind (meets_commitQueued hD hcf (by simp) _ txnId now maxCap a.first) fun stabilized => ?_
  cases stabilized with
  | none => exact .pure fun _ h => h
  | some _ =>
    dsimp only
    split
    · exact .map (meets_commitQueued hD hcf (by simp) _ txnId now maxCap a.second)
    · exact .pure fun _ h => h

/-- One iteration of a tick keeps the cell durable. -/
theorem meets_gcTickOnce {a : TickAnswers} (ha : a.InspectsOwnSlot) (now : UInt64) (maxCap : ℕ)
    (l : TickState) :
    KeepsLoadable st (gcTickOnce st now maxCap a l) := by
  refine .of_exists (fun _ h => h.holdsRecord) fun r => ?_
  refine .bind (meets_loadRecord hD r a.readable) fun base => .assume ?_
  rintro rfl
  cases hfind : base.gcPending.find? (l.selects st.hashes) with
  | none => exact .pure fun _ h => h.1
  | some e =>
    have he := List.mem_of_find?_eq_some hfind
    have hinspect (txnId : TxnId) :=
      meets_inspectSlot hD hcf he (ha e.slot) now maxCap l txnId
    cases e with
    | awaitingInspection slot txnId | absentUnconfirmed slot txnId => exact .map (hinspect txnId)
    | bound slot txnId binding state =>
      exact .map ((meets_destroySlot hD hcf a now maxCap l slot txnId binding).mono
        (fun _ h => h.1) fun _ _ h => h)
    | absent slot txnId | inspectionConflict slot txnId => exact .pure fun _ h => h.1

/-- A tick keeps the cell durable. -/
theorem meets_gcWorkerTick {answers : List TickAnswers}
    (hanswers : ∀ a ∈ answers, a.InspectsOwnSlot) (now : UInt64) (maxCap : ℕ) (l : TickState) :
    KeepsLoadable st (gcWorkerTick st now maxCap answers l) := by
  induction answers generalizing l with
  | nil => exact .pure fun _ h => h
  | cons a answers ih =>
    obtain ⟨ha, hrest⟩ := List.forall_mem_cons.mp hanswers
    refine .bind (meets_gcTickOnce hD hcf ha now maxCap l) fun next => ?_
    cases next with
    | none => exact .pure fun _ h => h
    | some l => exact ih hrest l

/-- A removal pass keeps the cell durable. -/
theorem meets_gcRemovalPass (answers : List CommitAnswers) (now : UInt64) (maxCap removed : ℕ) :
    KeepsLoadable st (gcRemovalPass st now maxCap answers removed) := by
  induction answers generalizing removed with
  | nil => exact .pure fun _ h => h
  | cons a answers ih =>
    refine .bind (meets_commitBuilt_loadable hD hcf ?_ now maxCap a) fun committed => ?_
    · intro r t ht
      obtain ⟨e, _, rfl⟩ := Option.map_eq_some_iff.mp ht
      exact nofun
    · cases committed with
      | none => exact .pure fun _ h => h
      | some _ => exact ih (removed + 1)

end

/-- The calls that write through the cell. -/
inductive CellCall where
  | commit (t : RecordTransition) (now : UInt64) (maxCap : ℕ) (answers : CommitAnswers)
  | activateFromKeyObserved (q : ActivateRequest) (answers : ActivateAnswers)
  | gcWorkerTick (now : UInt64) (maxCap : ℕ) (answers : List TickAnswers)
  | gcRemovalPass (now : UInt64) (maxCap : ℕ) (answers : List CommitAnswers)

namespace CellCall

/-- The cell after a call, whether it succeeded or not. -/
def perform (st : FileBackedStore) (cell : Cell) : CellCall → Cell
  | .commit t now maxCap answers => ((MeshControl.commit st t now maxCap answers).exec cell).2
  | .activateFromKeyObserved q answers =>
    ((MeshControl.activateFromKeyObserved st q answers).exec cell).2
  | .gcWorkerTick now maxCap answers =>
    ((MeshControl.gcWorkerTick st now maxCap answers .init).exec cell).2
  | .gcRemovalPass now maxCap answers =>
    ((MeshControl.gcRemovalPass st now maxCap answers 0).exec cell).2

/-- The call's inspections report only bindings of the inspected slots. -/
def InspectsOwnSlot : CellCall → Prop
  | .gcWorkerTick _ _ answers => ∀ a ∈ answers, a.InspectsOwnSlot
  | _ => True

end CellCall

/-- The cell of a freshly created record. -/
def Cell.genesis (st : FileBackedStore) : Cell := ⟨st.bytes st.bootstrap, []⟩

/-- The cell after a sequence of calls. -/
def performAll (st : FileBackedStore) (cell : Cell) (calls : List CellCall) : Cell :=
  calls.foldl (CellCall.perform st) cell

theorem KeepsLoadable.exec {ε α : Type} {x : Program ε Cell α} (h : KeepsLoadable st x)
    {cell : Cell} (hcell : Durable st (Loadable st) cell) :
    Durable st (Loadable st) (x.exec cell).2 := by
  have hx := h cell hcell
  rcases hexec : x.exec cell with ⟨_ | a, t⟩ <;>
  · rw [hexec] at hx
    exact hx

/-- Every call keeps the cell durable. -/
theorem Durable.perform (hD : st.Derived) (hcf : st.hashes.CollisionFree st.identity st.purpose)
    {cell : Cell} (hcell : Durable st (Loadable st) cell) {c : CellCall}
    (hc : c.InspectsOwnSlot) : Durable st (Loadable st) (c.perform st cell) := by
  have hloads : ∀ disk r, Loadable st r → st.Holds disk r → st.loadCanonical disk true = .exact r :=
    fun _ _ h hholds => h.load hD hcf hholds
  cases c with
  | commit t now maxCap answers =>
    refine KeepsLoadable.exec (meets_commit hD hloads ?_ answers) hcell
    intro r new hpriv hr happly
    refine hr.apply ?_ happly
    rintro slotId b rfl
    cases hpriv
  | activateFromKeyObserved q answers =>
    refine KeepsLoadable.exec (meets_activateFromKeyObserved hD hloads ?_ answers) hcell
    exact fun r p new hr happly => hr.apply (by simp [activateTransition]) happly
  | gcWorkerTick now maxCap answers =>
    exact (meets_gcWorkerTick hD hcf hc now maxCap .init).exec hcell
  | gcRemovalPass now maxCap answers =>
    exact (meets_gcRemovalPass hD hcf answers now maxCap 0).exec hcell

/-- As long as inspections report bindings of the slots they inspected, every record any sequence
of calls commits is loaded back as committed, and the record stays loadable throughout. -/
theorem committed_loads (hD : st.Derived) (hcf : st.hashes.CollisionFree st.identity st.purpose)
    (hgenesis : (st.bytes st.bootstrap).isSome) {calls : List CellCall}
    (hcalls : ∀ c ∈ calls, c.InspectsOwnSlot) :
    (∀ r disk, (r, disk) ∈ (performAll st (.genesis st) calls).committed →
        st.loadCanonical disk true = .exact r) ∧
      ∃ r, st.loadCanonical (performAll st (.genesis st) calls).disk true = .exact r := by
  have hrun : ∀ cell, Durable st (Loadable st) cell →
      Durable st (Loadable st) (performAll st cell calls) := by
    induction calls with
    | nil => exact fun _ h => h
    | cons c calls ih =>
      obtain ⟨hc, hrest⟩ := List.forall_mem_cons.mp hcalls
      exact fun cell hcell => ih hrest _ (hcell.perform hD hcf hc)
  obtain ⟨bytes, hbytes⟩ := Option.isSome_iff_exists.mp hgenesis
  have hinit : Durable st (Loadable st) (.genesis st) :=
    ⟨⟨st.bootstrap, bootstrap_loadable st, bytes, hbytes, hbytes⟩, fun _ _ h => nomatch h⟩
  have hfinal := hrun _ hinit
  obtain ⟨r, hr, hholds⟩ := hfinal.held
  exact ⟨hfinal.loads, r, hr.load hD hcf hholds⟩

/-- A commit without faults. -/
def CommitAnswers.clean : CommitAnswers := ⟨true, fun _ => ⟨.clean, true⟩⟩

theorem exec_loadRecord (st : FileBackedStore) (readable : Bool) (cell : Cell) :
    (loadRecord st readable).exec cell =
      (match st.loadCanonical cell.disk readable with
      | .exact r => .ok r
      | .missing => .error .noRecord
      | .corrupt => .error .recordCorrupt, cell) := by
  simp only [loadRecord, Program.exec_bind, Program.exec_get]
  cases st.loadCanonical cell.disk readable <;> rfl

variable (inspect : SlotId → InspectOutcome)

/-- An iteration without faults whose inspections answer as given, and whose destructions leave
nothing behind. -/
def TickAnswers.clean : TickAnswers :=
  ⟨true, inspect, fun _ _ => ⟨true, false, true, false⟩, .clean, .clean⟩

/-- A creation preempted by a revocation, and the start of a tick over the queued slot. -/
def preemptedCalls : List CellCall :=
  [.commit (.intentRecorded (repeatedTxn 1) .create .file) 0 4 .clean,
    .commit (.revokeUrgent .lost (repeatedTxn 2)) 0 4 .clean,
    .gcWorkerTick 0 4 [.clean inspect]]

theorem committed_loads_preemptedCalls :
    (performAll smallStore (.genesis smallStore)
        ((preemptedCalls fun slot => .present ⟨slot, [4], []⟩).take 1)).committed.length = 1 ∧
      ∀ r disk, (r, disk) ∈ (performAll smallStore (.genesis smallStore)
          (preemptedCalls fun slot => .present ⟨slot, [4], []⟩)).committed →
        smallStore.loadCanonical disk true = .exact r := by
  refine ⟨by decide +kernel, (committed_loads smallStore_derived (fieldHashes_collisionFree _)
    (by decide +kernel) ?_).1⟩
  intro c hc
  simp only [preemptedCalls, List.mem_cons, List.not_mem_nil, or_false] at hc
  rcases hc with rfl | rfl | rfl
  · trivial
  · trivial
  · rintro a ha slot b hb
    rw [List.mem_singleton.mp ha] at hb
    cases hb
    rfl

/-- An inspection that reports a binding of another slot is committed, and what it committed
cannot be loaded. -/
theorem foreign_binding_bricks_record :
    smallStore.Derived ∧
      (performAll smallStore (.genesis smallStore)
          (preemptedCalls fun slot =>
            .present ⟨{ slot with txnId := repeatedTxn 9 }, [4], []⟩)).committed.head?.map
        (fun (_, disk) => smallStore.loadCanonical disk true) = some .corrupt :=
  ⟨smallStore_derived, by decide +kernel⟩

end Theyos.MeshControl

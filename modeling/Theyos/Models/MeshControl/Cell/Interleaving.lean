import Theyos.Models.MeshControl.Cell.Durability
import Theyos.Models.MeshControl.Run.Replay

/-!
# Activation under interference

Activation reads its snapshot without a guard, so any transitions may be committed before its own
commit. The commit names the revision of the fresh reading, and only the other fields of its token
tie it to the snapshot.
-/

namespace Theyos.MeshControl

open MeshSignerControlRecordV1 Machine

/-- A record is held by one content only. -/
theorem FileBackedStore.Holds.disk_eq {st : FileBackedStore} {disk disk' : Disk}
    {r : MeshSignerControlRecordV1} (h : st.Holds disk r) (h' : st.Holds disk' r) :
    disk = disk' := by
  obtain ⟨bytes, hbytes, rfl⟩ := h
  obtain ⟨bytes', hbytes', rfl⟩ := h'
  rw [← hbytes, ← hbytes']

/-- An activation that reads its snapshot in one state of the cell and commits in a later one. -/
def activateInterleaved (st : FileBackedStore) (q : ActivateRequest) (a : ActivateAnswers)
    (before : Cell) : Program ActivateError Cell MeshSignerControlRecordV1 :=
  match st.loadCanonical before.disk a.readable with
  | .exact base => activateFrom st q a base
  | .missing => throw (.commit .noRecord)
  | .corrupt => throw (.commit .recordCorrupt)

variable {st : FileBackedStore} {q : ActivateRequest} {a : ActivateAnswers}
  {base r new : MeshSignerControlRecordV1} {p : PendingOp} {g : GenerationRecord} {cell : Cell}

/-- What the unguarded part established about the generation it hands on. -/
structure Confirmed (H : Hashes) (q : ActivateRequest) (a : ActivateAnswers)
    (base : MeshSignerControlRecordV1) (p : PendingOp) (g : GenerationRecord) : Prop where
  pending : base.pendingOp = some p
  txnId : p.txnId = q.expectedTxnId
  phase : p.phase = .keyObserved
  binding : p.binding = some g.binding
  generation : g.generation = p.generation
  delegation : g.delegation = q.delegation
  notAfter : g.notAfter = q.delegation.notAfter
  unrecorded : ∀ e ∈ base.recentTerminalResults, e.txnId ≠ q.expectedTxnId
  /-- The backend holds exactly the observed key. -/
  loadExact : a.loadExact p.canonicalSlot g.binding.publicKey = .ready g.binding
  validated : validateFullBinding H q.purpose g (.fromIdentity base.identity) q.policy
    a.queryMachineCurrency a.verify q.now = .ok ()
  leased : a.leaseGranted q.delegation.delegatorMId
    (a.currencyRevision q.delegation.delegatorMId) = true

variable {H : Hashes}

/-- An activation is recorded in its snapshot already, or confirmed by it. -/
theorem activateSnapshot_eq_ok {confirmed : Option (PendingOp × GenerationRecord)}
    (h : activateSnapshot H q a base = .ok confirmed) :
    match confirmed with
    | none => ∃ generation, Recorded q.expectedTxnId (.activate generation q.delegation) base
    | some (p, g) => Confirmed H q a base p g := by
  obtain ⟨_, _, h⟩ := bind_eq_ok.mp h
  cases hfind : base.recentTerminalResults.find? (·.txnId = q.expectedTxnId) with
  | some existing =>
    have htxn : existing.txnId = q.expectedTxnId := by simpa using List.find?_some hfind
    rw [hfind] at h
    dsimp only at h
    split at h
    · rename_i generation delegation hrequest
      obtain ⟨_, hsame, ⟨⟩⟩ := bind_eq_ok.mp h
      rw [require_eq_ok.mp hsame] at hrequest
      exact ⟨generation, existing, List.mem_of_find?_eq_some hfind, htxn, hrequest⟩
    · cases h
  | none =>
    simp only [hfind, eq_ok_iff, Option.filter_eq_some_iff, decide_eq_true_eq] at h
    obtain ⟨p', ⟨hpending, htxn⟩, hphase, b, hbinding, hload, hvalid, hleased, rfl⟩ := h
    refine ⟨hpending, htxn, hphase, hbinding, rfl, rfl, rfl, ?_, hload, hvalid, hleased⟩
    intro e he
    simpa using List.find?_eq_none.mp hfind e he

/-- A commit built from the record the path holds either fails without a write, or applies the
transition that was built to that record. -/
theorem exec_commitBuiltPrivileged (hD : st.Derived)
    {build : MeshSignerControlRecordV1 → Option RecordTransition} {now : UInt64} {maxCap : ℕ}
    {answers : CommitAnswers} (hholds : st.Holds cell.disk r) {after : Cell}
    {result : Except CommitTransitionError (Option MeshSignerControlRecordV1)}
    (hexec : (commitBuiltPrivileged st build now maxCap answers).exec cell = (result, after)) :
    after.disk = cell.disk ∧ (∃ e, result = .error e) ∨
      build r = none ∧ after = cell ∧ result = .ok none ∨
        ∃ t new, build r = some t ∧ apply st.hashes r t now maxCap = .ok new ∧
          st.Holds after.disk new ∧ ((∃ e, result = .error e) ∨ result = .ok (some new)) := by
  unfold commitBuiltPrivileged at hexec
  rw [Program.exec_bind, exec_loadRecord] at hexec
  cases hload : st.loadCanonical cell.disk answers.readable with
  | missing | corrupt =>
    rw [hload] at hexec
    cases hexec
    exact .inl ⟨rfl, _, rfl⟩
  | exact base =>
    have hbase := hholds.eq_of_load hD hload
    subst hbase
    simp only [hload] at hexec
    cases hbuild : build base with
    | none =>
      rw [hbuild] at hexec
      cases hexec
      exact .inr (.inl ⟨rfl, rfl, rfl⟩)
    | some t =>
      simp only [hbuild, Program.exec_map] at hexec
      rcases hcommit : (commitTransition st base t now maxCap answers.attempts).exec cell with
        ⟨committed, cell'⟩
      rw [hcommit] at hexec
      cases hexec
      rcases exec_commitTransition hcommit with ⟨rfl, e, rfl⟩ | ⟨new, happly, hplaced, hresult⟩
      · exact .inl ⟨rfl, e, rfl⟩
      · refine .inr (.inr ⟨t, new, rfl, happly, hplaced, ?_⟩)
        rcases hresult with ⟨⟨e, rfl⟩, _⟩ | ⟨rfl, _⟩
        · exact .inl ⟨e, rfl⟩
        · exact .inr rfl

/-- An activation with an effect finds the confirmed operation and appends the confirmed
generation. -/
theorem Confirmed.activated {mid : List Submission} (h : Confirmed H q a base p g)
    (hw : Wellformed H base) (hr : run (submit H) base mid = r)
    (heffect : Effect H r q.now (activateTransition H q p r) new) :
    r.pendingOp = some p ∧ new.liveGenerations = r.liveGenerations ++ [g] ∧
      new.currentGeneration = some g.generation ∧ r.epochHighWater = base.epochHighWater ∧
        new.epochHighWater = base.epochHighWater := by
  have hwr : Wellformed H r := by
    rw [← hr]
    exact run_invariant hw (fun _ _ _ hw hs => hw.submit hs) mid
  cases heffect with
  | @activateFromKeyObserved _ _ o b _ _ _ hpending hphase hmatch hbinding =>
    obtain ⟨_, _, hgeneration, _⟩ := pendingMatchesToken_iff.mp hmatch
    have hcontinues := (continues_run hw h.pending mid).2 o (by rw [hr, hpending]) hgeneration
    have hsame : o = p := hcontinues.2 h.phase
    subst hsame
    have hb : b = g.binding := Option.some.inj (hbinding.symm.trans h.binding)
    have hepoch : r.epochHighWater = base.epochHighWater :=
      (hwr.pending o hpending).epoch.symm.trans (hw.pending o h.pending).epoch
    have hg : activatedGeneration o q.delegation b = g := by
      rw [activatedGeneration, hb, ← h.generation]
      cases g
      cases h.delegation
      cases h.notAfter
      rfl
    exact ⟨hpending, by rw [hg], congrArg some h.generation.symm, hepoch, hepoch⟩
  | gcRewritten hrewrites => cases hrewrites

/-- An activation answered without a change was activated meanwhile, with the same delegation. -/
theorem Confirmed.replayed {mid : List Submission} (h : Confirmed H q a base p g)
    (hr : run (submit H) base mid = r)
    (hreplays : Replays r (activateTransition H q p r)) :
    ∃ before x after new, mid = before ++ x :: after ∧
      submit H (run (submit H) base before) x = .ok new ∧ new ≠ run (submit H) base before ∧
        x.transition.terminalRequest = some (p.txnId, .activate p.generation q.delegation) := by
  obtain ⟨txnId, request, e, hrequest, hfind, rfl⟩ := hreplays
  simp only [activateTransition, PendingOp.token, ← h.txnId, RecordTransition.terminalRequest,
    Option.some.injEq, Prod.mk.injEq] at hrequest
  obtain ⟨rfl, hrequest⟩ := hrequest
  have hfound : e.txnId = p.txnId := by simpa using List.find?_some hfind
  refine exists_recording ?_ ?_
  · rintro ⟨e', he', htxn, _⟩
    exact h.unrecorded e' he' (htxn.trans h.txnId)
  · rw [hr]
    exact ⟨e, List.mem_of_find?_eq_some hfind, hfound, hrequest.symm⟩

theorem exec_activateFrom (st : FileBackedStore) (q : ActivateRequest) (a : ActivateAnswers)
    (base : MeshSignerControlRecordV1) (cell : Cell) :
    (activateFrom st q a base).exec cell =
      match activateSnapshot st.hashes q a base with
      | .error e => (.error e, cell)
      | .ok none => (.ok base, cell)
      | .ok (some (p, _)) =>
        match (commitBuiltPrivileged st (fun fresh => some (activateTransition st.hashes q p fresh))
          q.now q.maxCap a.commit).exec cell with
        | (.ok new, after) => (.ok (new.getD base), after)
        | (.error e, after) => (.error (.commit e), after) := by
  unfold activateFrom
  rcases activateSnapshot st.hashes q a base with _ | _ | ⟨p, g⟩
  · rfl
  · rfl
  · dsimp only
    rw [Program.exec_bind, Program.exec_adapt]
    rcases (commitBuiltPrivileged st _ q.now q.maxCap a.commit).exec cell with ⟨_ | _, _⟩ <;> rfl

/-- An activation is carried out on whatever was committed since its snapshot. If it changes the
record, it appends exactly the generation it confirmed and validated, at the epoch of the snapshot,
and makes it current. If the operation in flight is not the snapshot's any more, the record is left
as it is, and the call fails unless its own request was already carried out: before the snapshot,
or since then by a submission with the same transaction and delegation. -/
theorem activation_validated (hD : st.Derived) {before after final : Cell} {mid : List Submission}
    {result : Except ActivateError MeshSignerControlRecordV1}
    (hbase : Reached st.hashes st.identity st.purpose base)
    (hload : st.loadCanonical before.disk a.readable = .exact base)
    (hr : run (submit st.hashes) base mid = r) (hafter : st.Holds after.disk r)
    (hexec : (activateInterleaved st q a before).exec after = (result, final)) :
    (∀ new, result = .ok new → final.disk ≠ after.disk →
      st.Holds final.disk new ∧ ∃ p g, Confirmed st.hashes q a base p g ∧ r.pendingOp = some p ∧
        new.liveGenerations = r.liveGenerations ++ [g] ∧
          new.currentGeneration = some g.generation ∧ r.epochHighWater = base.epochHighWater ∧
            new.epochHighWater = base.epochHighWater) ∧
      (r.pendingOp ≠ base.pendingOp → final.disk = after.disk ∧
        ((∃ e, result = .error e) ∨
          result = .ok base ∧
            (∃ generation, Recorded q.expectedTxnId (.activate generation q.delegation) base) ∨
          result = .ok r ∧ ∃ p first y rest new, base.pendingOp = some p ∧
            mid = first ++ y :: rest ∧ submit st.hashes (run (submit st.hashes) base first) y =
              .ok new ∧ new ≠ run (submit st.hashes) base first ∧
                y.transition.terminalRequest =
                  some (p.txnId, .activate p.generation q.delegation))) := by
  have hw := hbase.wellformed
  simp only [activateInterleaved, hload, exec_activateFrom] at hexec
  split at hexec
  · cases hexec
    refine ⟨?_, fun _ => ⟨rfl, .inl ⟨_, rfl⟩⟩⟩
    rintro _ ⟨⟩
  · rename_i hsnapshot
    cases hexec
    exact ⟨fun _ _ hne => absurd rfl hne,
      fun _ => ⟨rfl, .inr (.inl ⟨rfl, activateSnapshot_eq_ok hsnapshot⟩)⟩⟩
  · rename_i p g hsnapshot
    have hconfirmed := activateSnapshot_eq_ok hsnapshot
    rcases hcommit : (commitBuiltPrivileged st
        (fun fresh => some (activateTransition st.hashes q p fresh)) q.now q.maxCap
          a.commit).exec after with ⟨committed, cell'⟩
    have houtcome := exec_commitBuiltPrivileged hD hafter hcommit
    rw [hcommit] at hexec
    rcases houtcome with ⟨hdisk, e, rfl⟩ | ⟨hnone, _⟩ | ⟨_, new, ⟨⟩, happly, hplaced, hresult⟩
    · cases hexec
      refine ⟨?_, fun _ => ⟨hdisk, .inl ⟨_, rfl⟩⟩⟩
      rintro _ ⟨⟩
    · cases hnone
    · rcases apply_eq_ok.mp happly with ⟨hreplays, rfl⟩ | ⟨heffect, _⟩
      · have hkept : cell'.disk = after.disk := hplaced.disk_eq hafter
        rcases hresult with ⟨e, rfl⟩ | rfl
        · cases hexec
          refine ⟨?_, fun _ => ⟨hkept, .inl ⟨_, rfl⟩⟩⟩
          rintro _ ⟨⟩
        · cases hexec
          refine ⟨fun _ _ hne => absurd hkept hne, fun _ => ⟨hkept, .inr (.inr ⟨rfl, p, ?_⟩)⟩⟩
          obtain ⟨first, y, rest, new, hmid, hs, hne, hy⟩ := hconfirmed.replayed hr hreplays
          exact ⟨first, y, rest, new, hconfirmed.pending, hmid, hs, hne, hy⟩
      · have hactivated := hconfirmed.activated hw hr heffect
        refine ⟨?_, fun hchanged => absurd (hactivated.1.trans hconfirmed.pending.symm) hchanged⟩
        rintro new' hok -
        rcases hresult with ⟨e, rfl⟩ | rfl
        · cases hexec
          cases hok
        · cases hexec
          cases hok
          exact ⟨hplaced, p, g, hconfirmed, hactivated⟩

/-- An environment without faults that confirms every key and every delegator. -/
def ActivateAnswers.clean : ActivateAnswers :=
  ⟨true, fun slot _ => .ready ⟨slot, [4], []⟩, fun _ => 7,
    fun _ => .active [] (Vector.replicate 32 0), fun _ _ _ => true, fun _ _ => true, .clean⟩

/-- The activation of the first operation with the session delegation. -/
def sessionRequest : ActivateRequest :=
  ⟨meshSessionPurpose, .test 9, repeatedTxn 1, sessionDelegation, 1, 4⟩

/-- The record whose first operation awaits activation. -/
def observedRecord : MeshSignerControlRecordV1 :=
  run (submit fieldHashes) (bootstrap smallIdentity .meshSession) [creation, observation]

/-- The record after the activation of its first operation. -/
def activatedRecord : MeshSignerControlRecordV1 :=
  advance (submit fieldHashes) observedRecord
    ⟨activateTransition fieldHashes sessionRequest (firstOp (repeatedTxn 1)) observedRecord, 1, 4⟩

/-- A cell that holds a record of the small store. -/
def smallCell (r : MeshSignerControlRecordV1) : Cell := ⟨smallStore.bytes r, []⟩

theorem activation_validated_observedRecord :
    ((activateInterleaved smallStore sessionRequest .clean (smallCell observedRecord)).exec
        (smallCell observedRecord)).1 = .ok activatedRecord ∧
      activatedRecord.currentGeneration.isSome ∧
        ∃ p g, Confirmed fieldHashes sessionRequest .clean observedRecord p g ∧
          activatedRecord.liveGenerations = observedRecord.liveGenerations ++ [g] := by
  have hreached : Reached fieldHashes smallIdentity .meshSession observedRecord :=
    ⟨[creation, observation], by rw [observedRecord]⟩
  have hload : smallStore.loadCanonical (smallCell observedRecord).disk true =
      .exact observedRecord := by decide +kernel
  have hholds : smallStore.Holds (smallCell observedRecord).disk observedRecord := by
    obtain ⟨bytes, hbytes⟩ := Option.isSome_iff_exists.mp
      (by decide +kernel : (smallStore.bytes observedRecord).isSome)
    exact ⟨bytes, hbytes, hbytes⟩
  have hidle : run (submit smallStore.hashes) observedRecord [] = observedRecord := rfl
  rcases hexec : (activateInterleaved smallStore sessionRequest .clean
    (smallCell observedRecord)).exec (smallCell observedRecord) with ⟨result, final⟩
  have hfacts : ((activateInterleaved smallStore sessionRequest .clean
      (smallCell observedRecord)).exec (smallCell observedRecord)).1 = .ok activatedRecord ∧
      ((activateInterleaved smallStore sessionRequest .clean
        (smallCell observedRecord)).exec (smallCell observedRecord)).2.disk ≠
          (smallCell observedRecord).disk := by decide +kernel
  rw [hexec] at hfacts
  have hvalidated := @activation_validated smallStore sessionRequest .clean observedRecord
    observedRecord smallStore_derived (smallCell observedRecord) (smallCell observedRecord) _ _ _
    hreached hload hidle hholds hexec
  obtain ⟨_, p, g, hconfirmed, _, hlive, _⟩ := hvalidated.1 activatedRecord hfacts.1 hfacts.2
  exact ⟨hfacts.1, by decide +kernel, p, g, hconfirmed, hlive⟩

/-- Two activations of one operation with the same delegation: when the first is committed between
the snapshot and the commit of the second, the second one succeeds although the operation is gone. -/
theorem repeated_activation_answered_ok :
    observedRecord.pendingOp.isSome ∧ activatedRecord.pendingOp = none ∧
      ((activateInterleaved smallStore sessionRequest .clean (smallCell observedRecord)).exec
        (smallCell activatedRecord)).1 = .ok activatedRecord := by
  decide +kernel

end Theyos.MeshControl

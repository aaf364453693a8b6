import Theyos.Models.MeshControl.Cell.Interleaving
import Theyos.Models.MeshControl.Collect.Evidence

/-!
# The collector's calls are runs of its world

Every execution of a tick or of a removal pass over a cell follows a run of the world that ends
with the record the cell then holds. The run's commits end the way the store let them end, and what
it observes is what the backend answered.
-/

namespace Theyos.MeshControl

open Machine GcWorld

variable {st : FileBackedStore} {cell after : Cell} {w : GcWorld} {now : UInt64} {maxCap : ℕ}
  {r : MeshSignerControlRecordV1}

/-- How the result of a commit tells how it ended. -/
def CommitReported (result : Except CommitTransitionError (Option MeshSignerControlRecordV1)) :
    Option CommitFate → Prop
  | none => result = .ok none
  | some .committed => ∃ new, result = .ok (some new)
  | some .uncertain | some .failed => ∃ e, result = .error e

variable {result : Except CommitTransitionError (Option MeshSignerControlRecordV1)}

/-- A commit through the cell ends in one of the ways the world allows. -/
theorem commitBuilt_of_exec (hD : st.Derived)
    {build : MeshSignerControlRecordV1 → Option RecordTransition} {answers : CommitAnswers}
    (hholds : st.Holds cell.disk r)
    (hexec : (commitBuiltPrivileged st build now maxCap answers).exec cell = (result, after)) :
    ∃ fate reply new, commitBuilt st.hashes r build ⟨now, maxCap, fate⟩ = (reply, new) ∧
      CommitReported result reply ∧ st.Holds after.disk new := by
  have hfailed : commitBuilt st.hashes r build ⟨now, maxCap, .failed⟩ = (some .failed, r) := rfl
  rcases exec_commitBuiltPrivileged hD hholds hexec with
    ⟨hdisk, herror⟩ | ⟨hbuild, rfl, rfl⟩ | ⟨t, new, hbuild, happly, hnew, hresult⟩
  · exact ⟨_, _, _, hfailed, herror, hdisk ▸ hholds⟩
  · refine ⟨.committed, none, r, ?_, rfl, hholds⟩
    simp [commitBuilt, hbuild]
  · have hsubmit : submit st.hashes r ⟨t, now, maxCap⟩ = .ok new := happly
    rcases hresult with herror | rfl
    · refine ⟨.uncertain, some .uncertain, new, ?_, herror, hnew⟩
      simp [commitBuilt, hbuild, hsubmit]
    · refine ⟨.committed, some .committed, new, ?_, ⟨new, rfl⟩, hnew⟩
      simp [commitBuilt, hbuild, hsubmit]

/-- The worker's stage after an iteration or a part of one. -/
def GcStage.follows (stage : GcStage) (result : Except CommitTransitionError TickState) : Prop :=
  match result with
  | .ok l => stage = .selecting l
  | .error _ => stage = .idle

theorem afterCommit_follows {l : TickState} {reply : Option CommitFate}
    (h : CommitReported result reply) :
    (GcStage.afterCommit l reply).follows (result.map l.count) := by
  rcases reply with _ | _ | _ | _
  · obtain rfl := h
    rfl
  · obtain ⟨new, rfl⟩ := h
    rfl
  · obtain ⟨e, rfl⟩ := h
    rfl
  · obtain ⟨e, rfl⟩ := h
    rfl

/-- The cell holds the record of the world, the worker is in tick `n` and in a stage in `P`, and
what it observed is in `A`. -/
structure Follows (st : FileBackedStore) (A : GcObservation → Prop) (n : ℕ) (cell : Cell)
    (P : GcStage → Prop) (w : GcWorld) : Prop where
  holds : st.Holds cell.disk w.record
  log : ∀ o ∈ w.log, A o
  tick : w.tick = n
  stage : P w.stage

/-- What the worker may observe in an iteration of tick `n` is in `A`. -/
structure Allows (A : GcObservation → Prop) (n : ℕ) (a : TickAnswers) : Prop where
  inspected : ∀ slot fate, A (.inspected n slot (a.inspect slot) fate)
  stabilized : ∀ r, A (.stabilized r)
  destroyed : ∀ slot binding, A (.destroyed slot binding (a.gcBestEffort slot binding))

variable {A : GcObservation → Prop} {n : ℕ} {answers : CommitAnswers}

/-- A commit that ends an iteration leaves the worker where its result says. -/
theorem commitBuilt_of_count (hD : st.Derived) {l : TickState}
    {build : MeshSignerControlRecordV1 → Option RecordTransition}
    {result : Except CommitTransitionError TickState} (hholds : st.Holds cell.disk r)
    (hexec : (l.count <$> commitBuiltPrivileged st build now maxCap answers).exec cell =
      (result, after)) :
    ∃ fate reply new, commitBuilt st.hashes r build ⟨now, maxCap, fate⟩ = (reply, new) ∧
      (GcStage.afterCommit l reply).follows result ∧ st.Holds after.disk new := by
  rw [Program.exec_map] at hexec
  rcases hcommit : (commitBuiltPrivileged st build now maxCap answers).exec cell with
    ⟨committed, cell'⟩
  rw [hcommit] at hexec
  cases hexec
  obtain ⟨fate, reply, new, hended, hreported, hnew⟩ := commitBuilt_of_exec hD hholds hcommit
  exact ⟨fate, reply, new, hended, afterCommit_follows hreported, hnew⟩

variable {t : RecordTransition} {l : TickState} {slot : SlotId} {txnId : TxnId}
  {binding : ExactBinding} {log : List GcObservation}

theorem forall_mem_concat {last : GcObservation} (hlog : ∀ o ∈ log, A o) (hlast : A last) :
    ∀ o ∈ log ++ [last], A o :=
  List.forall_mem_append.mpr ⟨hlog, List.forall_mem_singleton.mpr hlast⟩

section

variable {result : Except CommitTransitionError TickState}

variable (hD : st.Derived) (hholds : st.Holds cell.disk r) (hlog : ∀ o ∈ log, A o)

include hD hholds hlog

/-- Recording what an inspection found is a step of the world. -/
theorem run_of_recording {outcome : InspectOutcome} (hA : ∀ fate, A (.inspected n slot outcome fate))
    (ht : outcome.transition (slot.canonicalId st.hashes) = some t)
    (hexec : (l.count <$> commitBuiltPrivileged st (ifQueued st.hashes (slot.canonicalId
      st.hashes) txnId t) now maxCap answers).exec cell = (result, after)) :
    Leads (step st.hashes) ⟨r, .recording l slot txnId outcome, n, log⟩
      (Follows st A n after (·.follows result)) := by
  obtain ⟨fate, reply, new, hended, hfollows, hnew⟩ := commitBuilt_of_count hD hholds hexec
  refine .after (a := .record ⟨now, maxCap, fate⟩) (t := ⟨new, .afterCommit l reply, n,
    log ++ [.inspected n slot outcome reply]⟩) ?_
    (.here ⟨hnew, forall_mem_concat hlog (hA reply), rfl, hfollows⟩)
  have hbuild : recordInspection st.hashes slot txnId outcome =
      ifQueued st.hashes (slot.canonicalId st.hashes) txnId t := by
    funext fresh
    rw [recordInspection, ht, Option.bind_some]
  simp only [step, hbuild, hended, moved]

variable {a : TickAnswers} (hA : Allows A n a)

include hA

/-- Inspecting a slot is a run of the world. -/
theorem run_of_inspectSlot
    (hexec : (inspectSlot st now maxCap a l slot txnId).exec cell = (result, after)) :
    Leads (step st.hashes)
      ⟨r, .inspecting (l.inspected (slot.canonicalId st.hashes)) slot txnId, n, log⟩
      (Follows st A n after (·.follows result)) := by
  have hinspected := hA.inspected slot
  unfold inspectSlot at hexec
  cases houtcome : a.inspect slot with
  | indeterminate =>
    simp only [houtcome] at hexec hinspected
    cases hexec
    refine .after (a := .inspect .indeterminate) rfl ?_
    exact .here ⟨hholds, forall_mem_concat hlog (hinspected none), rfl, rfl⟩
  | present b =>
    simp only [houtcome] at hexec hinspected
    exact .after (a := .inspect (.present b)) rfl (run_of_recording hD hholds hlog hinspected rfl hexec)
  | absent =>
    simp only [houtcome] at hexec hinspected
    exact .after (a := .inspect .absent) rfl (run_of_recording hD hholds hlog hinspected rfl hexec)
  | conflict =>
    simp only [houtcome] at hexec hinspected
    exact .after (a := .inspect .conflict) rfl (run_of_recording hD hholds hlog hinspected rfl hexec)

omit hA in
/-- A destruction and the recording of its report are a run of the world. -/
theorem run_of_destroying {report : GcReport} (hA : A (.destroyed slot binding report))
    (hexec : (if report.observationComplete then l.count <$> commitBuiltPrivileged st
        (ifQueued st.hashes (slot.canonicalId st.hashes) txnId (.gcResolved
          (slot.canonicalId st.hashes) (!report.residual) report.mismatch)) now maxCap answers
      else return l.setAside (slot.canonicalId st.hashes) : CellProgram TickState).exec cell =
        (result, after)) :
    Leads (step st.hashes) ⟨r, .destroying l slot txnId binding, n, log⟩
      (Follows st A n after (·.follows result)) := by
  refine .after (a := .destroy report) rfl ?_
  have hlog := forall_mem_concat hlog hA
  unfold moved GcStage.afterDestroy
  cases hcomplete : report.observationComplete with
  | false =>
    rw [hcomplete] at hexec
    cases hexec
    exact .here ⟨hholds, hlog, rfl, rfl⟩
  | true =>
    rw [if_pos hcomplete] at hexec
    obtain ⟨fate, reply, new, hended, hfollows, hnew⟩ := commitBuilt_of_count hD hholds hexec
    refine .after (a := .resolve ⟨now, maxCap, fate⟩) (t := ⟨new, .afterCommit l reply, n,
      log ++ [.destroyed slot binding report]⟩) ?_ (.here ⟨hnew, hlog, rfl, hfollows⟩)
    simp only [step, if_true, hended]

/-- Destroying the key of a slot is a run of the world. -/
theorem run_of_destroySlot
    (hexec : (destroySlot st now maxCap a l slot txnId binding).exec cell = (result, after)) :
    Leads (step st.hashes)
      ⟨r, .stabilizing (l.attempted (slot.canonicalId st.hashes)) slot txnId binding, n, log⟩
      (Follows st A n after (·.follows result)) := by
  unfold destroySlot at hexec
  rw [Program.exec_bind] at hexec
  rcases hcommit : (commitBuiltPrivileged st (ifQueued st.hashes (slot.canonicalId st.hashes)
    txnId .stabilizationRewrite) now maxCap a.first).exec cell with ⟨committed, cell'⟩
  obtain ⟨fate, reply, new, hended, hreported, hnew⟩ := commitBuilt_of_exec hD hholds hcommit
  refine .after (a := .stabilize ⟨now, maxCap, fate⟩) (t := ⟨new, .afterStabilize (l.attempted
    (slot.canonicalId st.hashes)) slot txnId binding reply, n, log ++ stabilizedLog new reply⟩) ?_ ?_
  · simp only [step, hended, moved]
  rw [hcommit] at hexec
  have hsame : ∀ o ∈ log ++ [], A o := (List.append_nil log).symm ▸ hlog
  rcases reply with _ | _ | _ | _
  · obtain rfl := hreported
    cases hexec
    exact .here ⟨hnew, hsame, rfl, rfl⟩
  · obtain ⟨_, rfl⟩ := hreported
    exact run_of_destroying hD hnew (forall_mem_concat hlog (hA.stabilized new))
      (hA.destroyed slot binding) hexec
  · obtain ⟨_, rfl⟩ := hreported
    cases hexec
    exact .here ⟨hnew, hsame, rfl, rfl⟩
  · obtain ⟨_, rfl⟩ := hreported
    cases hexec
    exact .here ⟨hnew, hsame, rfl, rfl⟩

end

/-- The worker's stage after an iteration: it goes on, or the tick is over. -/
def GcStage.followsTick (stage : GcStage)
    (result : Except CommitTransitionError (Option TickState)) : Prop :=
  match result with
  | .ok (some l) => stage = .selecting l
  | .ok none | .error _ => stage = .idle

theorem leads_followsTick {result : Except CommitTransitionError TickState}
    (h : Leads (step st.hashes) w (Follows st A n after (·.follows result))) :
    Leads (step st.hashes) w (Follows st A n after (·.followsTick (result.map some))) := by
  refine h.trans fun v hv => .here ⟨hv.holds, hv.log, hv.tick, ?_⟩
  cases result <;> exact hv.stage

/-- An iteration of a tick is a run of the world. -/
theorem run_of_gcTickOnce (hD : st.Derived) {a : TickAnswers} (hA : Allows A n a)
    {result : Except CommitTransitionError (Option TickState)}
    (hw : Follows st A n cell (· = .selecting l) w)
    (hexec : (gcTickOnce st now maxCap a l).exec cell = (result, after)) :
    Leads (step st.hashes) w (Follows st A n after (·.followsTick result)) := by
  obtain ⟨r, stage, tick, log⟩ := w
  obtain ⟨hholds, hlog, rfl, rfl⟩ := hw
  unfold gcTickOnce at hexec
  rw [Program.exec_bind, exec_loadRecord] at hexec
  cases hload : st.loadCanonical cell.disk a.readable with
  | missing | corrupt =>
    rw [hload] at hexec
    cases hexec
    refine .after (a := .select false) rfl ?_
    exact .here ⟨hholds, hlog, rfl, rfl⟩
  | exact base =>
    obtain rfl := hholds.eq_of_load hD hload
    simp only [hload] at hexec
    refine .after (a := .select true) rfl ?_
    cases hfind : base.gcPending.find? (l.selects st.hashes) with
    | none =>
      rw [hfind] at hexec
      cases hexec
      exact .here ⟨hholds, hlog, rfl, rfl⟩
    | some e =>
      rw [hfind] at hexec
      cases e with
      | awaitingInspection slot txnId | absentUnconfirmed slot txnId =>
        rw [Program.exec_map] at hexec
        cases hexec
        exact leads_followsTick (run_of_inspectSlot hD hholds hlog hA rfl)
      | bound slot txnId binding state =>
        rw [Program.exec_map] at hexec
        cases hexec
        exact leads_followsTick (run_of_destroySlot hD hholds hlog hA rfl)
      | absent slot txnId | inspectionConflict slot txnId =>
        cases hexec
        exact .here ⟨hholds, hlog, rfl, rfl⟩

/-- A tick that is under way is a run of the world, and it ends with the tick. -/
theorem run_of_gcWorkerTick (hD : st.Derived) {answers : List TickAnswers}
    (hA : ∀ a ∈ answers, Allows A n a) {result : Except CommitTransitionError (Option ℕ)}
    (hw : Follows st A n cell (· = .selecting l) w)
    (hexec : (gcWorkerTick st now maxCap answers l).exec cell = (result, after)) :
    Leads (step st.hashes) w
      (Follows st A n after fun stage => result ≠ .ok none → stage = .idle) := by
  induction answers generalizing cell w l with
  | nil =>
    cases hexec
    exact .here ⟨hw.holds, hw.log, hw.tick, fun h => absurd rfl h⟩
  | cons a answers ih =>
    obtain ⟨hfirst, hrest⟩ := List.forall_mem_cons.mp hA
    rw [gcWorkerTick, Program.exec_bind] at hexec
    rcases honce : (gcTickOnce st now maxCap a l).exec cell with ⟨once, mid⟩
    refine (run_of_gcTickOnce hD hfirst hw honce).trans fun v hv => ?_
    rw [honce] at hexec
    rcases once with _ | _ | l'
    · cases hexec
      exact .here ⟨hv.holds, hv.log, hv.tick, fun _ => hv.stage⟩
    · cases hexec
      exact .here ⟨hv.holds, hv.log, hv.tick, fun _ => hv.stage⟩
    · exact ih hrest hv hexec

/-- A removal pass is a run of the world that leaves the worker where it is. -/
theorem run_of_gcRemovalPass (hD : st.Derived) {P : GcStage → Prop} (answers : List CommitAnswers) {removed : ℕ}
    {result : Except CommitTransitionError (Option ℕ)} (hw : Follows st A n cell P w)
    (hexec : (gcRemovalPass st now maxCap answers removed).exec cell = (result, after)) :
    Leads (step st.hashes) w (Follows st A n after P) := by
  induction answers generalizing cell w removed with
  | nil =>
    cases hexec
    exact .here hw
  | cons a answers ih =>
    rw [gcRemovalPass, Program.exec_bind] at hexec
    rcases hcommit : (commitBuiltPrivileged st (firstRemoval st.hashes) now maxCap a).exec cell with
      ⟨committed, mid⟩
    obtain ⟨fate, reply, new, hended, _, hnew⟩ := commitBuilt_of_exec hD hw.holds hcommit
    refine .after (a := .remove ⟨now, maxCap, fate⟩) (t := { w with record := new }) ?_ ?_
    · simp only [step, hended]
    rw [hcommit] at hexec
    have hw : Follows st A n mid P { w with record := new } := ⟨hnew, hw.log, hw.tick, hw.stage⟩
    rcases committed with _ | _ | _
    · cases hexec
      exact .here hw
    · cases hexec
      exact .here hw
    · exact ih hw hexec

theorem collects_of_not_privileged (h : isPrivileged t = false) : t.collects = false := by
  cases t <;> first | rfl | cases h

/-- Another caller's commit is a run of the world that leaves the worker where it is. -/
theorem run_of_commit (hD : st.Derived) {P : GcStage → Prop}
    {result : Except CommitTransitionError MeshSignerControlRecordV1}
    (hw : Follows st A n cell P w)
    (hexec : (commit st t now maxCap answers).exec cell = (result, after)) :
    Leads (step st.hashes) w (Follows st A n after P) := by
  unfold commit at hexec
  cases hprivileged : isPrivileged t with
  | true =>
    rw [hprivileged] at hexec
    cases hexec
    exact .here hw
  | false =>
    simp only [hprivileged, Bool.false_eq_true, if_false, Program.exec_bind,
      exec_loadRecord] at hexec
    cases hload : st.loadCanonical cell.disk answers.readable with
    | missing | corrupt =>
      rw [hload] at hexec
      cases hexec
      exact .here hw
    | exact base =>
      obtain rfl := hw.holds.eq_of_load hD hload
      simp only [hload] at hexec
      rcases exec_commitTransition hexec with ⟨rfl, _⟩ | ⟨new, happly, hnew, _⟩
      · exact .here hw
      · have hsubmit : submit st.hashes w.record ⟨t, now, maxCap⟩ = .ok new := happly
        refine .after (a := .commit ⟨t, now, maxCap⟩) (t := { w with record := new }) ?_
          (.here ⟨hnew, hw.log, hw.tick, hw.stage⟩)
        simp [step, collects_of_not_privileged hprivileged, hsubmit]

/-- Sequences of calls on a cell, each run to its end, with the answers to each tick. -/
inductive Calls (st : FileBackedStore) (start : Cell) : List (List TickAnswers) → Cell → Prop
  | none : Calls st start [] start
  | tick {ticks cell after now maxCap answers result}
      (earlier : Calls st start ticks cell)
      (exec : (gcWorkerTick st now maxCap answers .init).exec cell = (result, after))
      (ended : result ≠ .ok Option.none) : Calls st start (ticks ++ [answers]) after
  | removal {ticks cell after now maxCap answers result}
      (earlier : Calls st start ticks cell)
      (exec : (gcRemovalPass st now maxCap answers 0).exec cell = (result, after)) :
      Calls st start ticks after
  | commit {ticks cell after t now maxCap answers result}
      (earlier : Calls st start ticks cell)
      (exec : (Theyos.MeshControl.commit st t now maxCap answers).exec cell = (result, after)) :
      Calls st start ticks after

/-- An inspection is what the backend answered in its tick, and a destruction what it answered in
one of the ticks. -/
def GcObservation.Answered (ticks : List (List TickAnswers)) : GcObservation → Prop
  | .inspected i slot outcome _ => ∃ before answers after, ticks = before ++ answers :: after ∧
    i = before.length + 1 ∧ ∃ a ∈ answers, a.inspect slot = outcome
  | .stabilized _ => True
  | .destroyed slot binding report => ∃ answers ∈ ticks, ∃ a ∈ answers,
    a.gcBestEffort slot binding = report

theorem GcObservation.Answered.concat {ticks : List (List TickAnswers)} {o : GcObservation}
    (h : o.Answered ticks) (answers : List TickAnswers) : o.Answered (ticks ++ [answers]) := by
  cases o with
  | inspected i slot outcome fate =>
    obtain ⟨before, given, after, rfl, hi, ha⟩ := h
    exact ⟨before, given, after ++ [answers], by simp, hi, ha⟩
  | stabilized r => trivial
  | destroyed slot binding report =>
    obtain ⟨given, hgiven, ha⟩ := h
    exact ⟨given, List.mem_append_left _ hgiven, ha⟩

/-- After every sequence of calls the cell holds the record of a run of the world with as many
ticks, and all that this run observed is what the backend answered in them. -/
theorem Calls.holds_world_run {start : Cell} {identity : ControlIdentity} {purpose : PurposeId}
    {ticks : List (List TickAnswers)} (h : Calls st start ticks cell) (hD : st.Derived)
    (hstart : st.Holds start.disk (.bootstrap identity purpose)) :
    ∃ events, Follows st (·.Answered ticks) ticks.length cell (· = .idle)
      (Machine.run (step st.hashes) (.init identity purpose) events) := by
  change Leads _ _ _
  induction h with
  | none => exact .here ⟨hstart, List.forall_mem_nil _, rfl, rfl⟩
  | @tick ticks _ _ _ _ answers _ _ hexec hended ih =>
    have hA : ∀ a ∈ answers, Allows (·.Answered (ticks ++ [answers])) (ticks.length + 1) a :=
      fun a ha => ⟨fun slot _ => ⟨ticks, answers, [], rfl, rfl, a, ha, rfl⟩, fun _ => trivial,
        fun slot binding => ⟨answers, by simp, a, ha, rfl⟩⟩
    refine ih.trans fun w hw => .after (a := .tick)
      (t := { w with stage := .selecting .init, tick := w.tick + 1 }) ?_ ?_
    · simp only [step, hw.stage]
    · have htick := run_of_gcWorkerTick (w := ⟨_, _, w.tick + 1, w.log⟩) hD hA
        ⟨hw.holds, fun o ho => (hw.log o ho).concat answers, congrArg (· + 1) hw.tick, rfl⟩ hexec
      refine htick.trans fun v hv => .here ⟨hv.holds, hv.log, ?_, hv.stage hended⟩
      rw [hv.tick, List.length_append, List.length_singleton]
  | removal _ hexec ih => exact ih.trans fun w hw => run_of_gcRemovalPass hD _ hw hexec
  | commit _ hexec ih => exact ih.trans fun w hw => run_of_commit hD hw hexec

theorem Calls.holds_world_run_creation :
    ∃ cell, Calls smallStore (smallCell (.bootstrap smallIdentity .meshSession)) [] cell ∧
      cell.committed.length = 1 ∧ ∃ events, smallStore.Holds cell.disk
        (Machine.run (step fieldHashes) (.init smallIdentity .meshSession) events).record := by
  have hcalls := @Calls.commit smallStore (smallCell (.bootstrap smallIdentity .meshSession)) _ _ _
    creation.transition 1 4 .clean _ .none Prod.mk.eta.symm
  obtain ⟨bytes, hbytes⟩ := Option.isSome_iff_exists.mp (by decide +kernel :
    (smallStore.bytes (.bootstrap smallIdentity .meshSession)).isSome)
  obtain ⟨events, hfollows⟩ :=
    hcalls.holds_world_run smallStore_derived ⟨bytes, hbytes, hbytes⟩
  exact ⟨_, hcalls, by decide +kernel, events, hfollows.holds⟩

end Theyos.MeshControl
